import Mathlib.Tactic.ByContra
import LiveQuery.Proofs.Wire.Field

namespace LiveQuery.Wire

variable {β γ : Type} {read : Bytes → Option (β × Bytes)} {k : β → Bytes → Option (γ × Bytes)}
  {bs taken taken' rest : Bytes} {b : β} {c : γ} {depth tag fuel fuel' : Nat}
  {delimited : Nat → Bool} {f : Field} {fs : List Field}

/-- A reader takes just these bytes from the front, whatever follows them. -/
def Takes (read : Bytes → Option (β × Bytes)) (taken : Bytes) (b : β) : Prop :=
  ∀ rest, read (taken ++ rest) = some (b, rest)

/-- A reader looks at nothing but the bytes that it takes from the front. -/
def IsLocal (read : Bytes → Option (β × Bytes)) : Prop :=
  ∀ bs b rest, read bs = some (b, rest) → ∃ taken, bs = taken ++ rest ∧ Takes read taken b

theorem Takes.bind (h : Takes read taken b) (h' : Takes (k b) taken' c) :
    Takes (fun bs => (read bs).bind fun r => k r.1 r.2) (taken ++ taken') c := by
  intro rest
  change (read (taken ++ taken' ++ rest)).bind _ = _
  rw [List.append_assoc, h, Option.bind_some]
  exact h' rest

theorem Takes.map (h : Takes read taken b) (g : β → γ) :
    Takes (fun bs => (read bs).map (Prod.map g id)) taken (g b) := by
  intro rest
  change (read (taken ++ rest)).map _ = _
  rw [h]
  rfl

theorem isLocal_none : IsLocal fun _ => (none : Option (β × Bytes)) := nofun

/-- One reader after the other. -/
theorem IsLocal.bind (h : IsLocal read) (h' : ∀ b, IsLocal (k b)) :
    IsLocal fun bs => (read bs).bind fun r => k r.1 r.2 := by
  intro bs c rest hread
  obtain ⟨⟨b, mid⟩, hfirst, hsecond⟩ := Option.bind_eq_some_iff.1 hread
  obtain ⟨taken, rfl, htakes⟩ := h bs b mid hfirst
  obtain ⟨taken', rfl, htakes'⟩ := h' b mid c rest hsecond
  exact ⟨taken ++ taken', (List.append_assoc _ _ _).symm, htakes.bind htakes'⟩

theorem IsLocal.map (h : IsLocal read) (g : β → γ) : IsLocal fun bs => (read bs).map (Prod.map g id) := by
  intro bs c rest hread
  obtain ⟨⟨b, mid⟩, hfirst, heq⟩ := Option.map_eq_some_iff.1 hread
  cases heq
  obtain ⟨taken, rfl, htakes⟩ := h bs b _ hfirst
  exact ⟨taken, rfl, htakes.map g⟩

/-- What is read decides whether it is kept. -/
theorem IsLocal.filter (h : IsLocal read) (p : β → Bool) :
    IsLocal fun bs => (read bs).filter fun r => p r.1 := by
  intro bs b rest hread
  obtain ⟨hfirst, hkept⟩ := Option.filter_eq_some_iff.1 hread
  obtain ⟨taken, hbs, htakes⟩ := h bs b rest hfirst
  exact ⟨taken, hbs, fun rest' => Option.filter_eq_some_iff.2 ⟨htakes rest', hkept⟩⟩

/-! Numbers and contents -/

theorem isLocal_readGroups? (limit : Nat) : IsLocal (readGroups? limit) := by
  induction limit with
  | zero => nofun
  | succ limit ih =>
    intro bs n rest h
    cases bs with
    | nil => cases h
    | cons b bs =>
      rw [readGroups?] at h
      split at h
      · next hlast =>
        cases h
        exact ⟨[b], rfl, fun rest' => if_pos hlast⟩
      · next hmore =>
        obtain ⟨⟨m, mid⟩, hread, heq⟩ := Option.map_eq_some_iff.1 h
        cases heq
        obtain ⟨taken, rfl, htakes⟩ := ih bs m _ hread
        refine ⟨b :: taken, rfl, fun rest' => ?_⟩
        rw [List.cons_append, readGroups?, if_neg hmore, htakes rest', Option.map_some]

theorem isLocal_readVarint? : IsLocal readVarint? := (isLocal_readGroups? 10).filter fun n => n < UInt64.size

theorem isLocal_take? (count : Nat) : IsLocal (take? count) := by
  intro bs content rest h
  rw [take?] at h
  split at h
  · next hle =>
    cases h
    refine ⟨bs.take count, (List.take_append_drop count bs).symm, fun rest' => ?_⟩
    have htake := take?_append (bs.take count) rest'
    rwa [List.length_take_of_le hle] at htake
  · cases h

theorem isLocal_readDelimited? : IsLocal readDelimited? := isLocal_readVarint?.bind isLocal_take?

/-- Reads a tag and a wire type as one thing. -/
def readTag? (bs : Bytes) : Option ((Nat × Nat) × Bytes) :=
  (readKey? bs).map fun (tag, wireType, rest) => ((tag, wireType), rest)

theorem readTag?_eq : readTag? = fun bs => ((readVarint? bs).filter fun r =>
    decide (r.1 < UInt32.size ∧ 8 ≤ r.1 ∧ r.1 % 8 ≤ 5)).map (Prod.map (fun n => (n / 8, n % 8)) id) := by
  funext bs
  rw [readTag?, readKey?]
  cases readVarint? bs with
  | none => rfl
  | some r =>
    change Option.map _ (if r.1 < UInt32.size ∧ 8 ≤ r.1 ∧ r.1 % 8 ≤ 5 then _ else _) = _
    rw [Option.filter_some]
    by_cases hkey : r.1 < UInt32.size ∧ 8 ≤ r.1 ∧ r.1 % 8 ≤ 5
    · rw [if_pos hkey, if_pos (decide_eq_true hkey)]
      rfl
    · rw [if_neg hkey, if_neg (by simpa using hkey)]
      rfl

theorem isLocal_readTag? : IsLocal readTag? := by
  rw [readTag?_eq]
  exact (isLocal_readVarint?.filter fun n => decide (n < UInt32.size ∧ 8 ≤ n ∧ n % 8 ≤ 5)).map _

/-- Nothing is read of nothing. -/
theorem readTag?_nil : readTag? [] = none := rfl

theorem Takes.ne_nil (h : Takes read taken b) (hnil : read [] = none) : taken ≠ [] := by
  rintro rfl
  have hread := h []
  rw [List.append_nil, hnil] at hread
  cases hread

/-! Groups -/

/-- Skips the content of a field in a group. -/
def skipContent? (fuel depth tag wireType : Nat) (bs : Bytes) : Option Bytes :=
  match wireType with
  | 0 => Prod.snd <$> readVarint? bs
  | 1 => Prod.snd <$> take? 8 bs
  | 2 => Prod.snd <$> readDelimited? bs
  | 3 => skipGroup? fuel (depth - 1) tag bs
  | _ => Prod.snd <$> take? 4 bs

theorem skipGroup?_succ (fuel depth tag : Nat) (bs : Bytes) : skipGroup? (fuel + 1) depth tag bs =
    (readTag? bs).bind fun r =>
      if r.1.2 = 4 then if r.1.1 = tag then some r.2 else none
      else if depth ≤ 1 then none
      else (skipContent? fuel depth r.1.1 r.1.2 r.2).bind (skipGroup? fuel depth tag) := by
  rw [skipGroup?, readTag?]
  cases readKey? bs with
  | none => rfl
  | some r =>
    obtain ⟨inner, wireType, bs⟩ := r
    change (if _ then _ else _) = if _ then _ else _
    split
    · rfl
    split
    · rfl
    match wireType with
    | 0 | 1 | 2 | 3 | _ + 4 => rfl

/-- With so much fuel or more just these bytes are skipped, whatever follows them. -/
def Skips (skip : Nat → Bytes → Option Bytes) (taken : Bytes) : Prop :=
  ∀ fuel, taken.length ≤ fuel → ∀ rest, skip fuel (taken ++ rest) = some rest

theorem IsLocal.skips (h : IsLocal read) (hread : Prod.snd <$> read bs = some rest) :
    ∃ taken, bs = taken ++ rest ∧ Skips (fun _ bs => Prod.snd <$> read bs) taken := by
  obtain ⟨⟨b, rest⟩, hfirst, rfl⟩ := Option.map_eq_some_iff.1 hread
  obtain ⟨taken, hbs, htakes⟩ := h bs b rest hfirst
  refine ⟨taken, hbs, fun _ _ rest' => ?_⟩
  change Prod.snd <$> read (taken ++ rest') = some rest'
  rw [htakes rest']
  rfl

theorem skips_content {tag wireType : Nat}
    (hgroup : ∀ depth tag bs rest, skipGroup? fuel depth tag bs = some rest →
      ∃ taken, bs = taken ++ rest ∧ Skips (fun fuel => skipGroup? fuel depth tag) taken)
    (h : skipContent? fuel depth tag wireType bs = some rest) :
    ∃ taken, bs = taken ++ rest ∧ Skips (fun fuel => skipContent? fuel depth tag wireType) taken := by
  unfold skipContent? at h ⊢
  split at h
  · exact isLocal_readVarint?.skips h
  · exact (isLocal_take? 8).skips h
  · exact isLocal_readDelimited?.skips h
  · exact hgroup _ _ _ _ h
  · exact (isLocal_take? 4).skips h

/-- A group ends where its end is, whatever follows it. -/
theorem skips_group (h : skipGroup? fuel depth tag bs = some rest) :
    ∃ taken, bs = taken ++ rest ∧ Skips (fun fuel => skipGroup? fuel depth tag) taken := by
  induction fuel generalizing depth tag bs rest with
  | zero => cases h
  | succ fuel ih =>
    rw [skipGroup?_succ] at h
    obtain ⟨⟨⟨inner, wireType⟩, mid⟩, htag, hrest⟩ := Option.bind_eq_some_iff.1 h
    obtain ⟨key, rfl, htakes⟩ := isLocal_readTag? bs _ mid htag
    have hkey : 0 < key.length := List.length_pos_iff.2 (htakes.ne_nil readTag?_nil)
    dsimp only at hrest
    split at hrest
    · next hend =>
      -- the key that ends the group
      split at hrest
      · next hsame =>
        cases hrest
        refine ⟨key, rfl, fun fuel' hfuel rest' => ?_⟩
        obtain ⟨fuel', rfl⟩ : ∃ k, fuel' = k + 1 := ⟨fuel' - 1, by omega⟩
        change skipGroup? (fuel' + 1) depth tag (key ++ rest') = some rest'
        rw [skipGroup?_succ, htakes, Option.bind_some, if_pos hend, if_pos hsame]
      · cases hrest
    · next hmore =>
      split at hrest
      · cases hrest
      · next hdepth =>
        -- a field of the group, and after it the group goes on, each with a part of the fuel
        obtain ⟨mid', hcontent, hlater⟩ := Option.bind_eq_some_iff.1 hrest
        obtain ⟨content, rfl, hskips⟩ := skips_content (fun _ _ _ _ => ih) hcontent
        obtain ⟨more, rfl, hskips'⟩ := ih hlater
        refine ⟨key ++ (content ++ more), by simp only [List.append_assoc], fun fuel' hfuel rest' => ?_⟩
        simp only [List.length_append] at hfuel
        obtain ⟨fuel', rfl⟩ : ∃ k, fuel' = k + 1 := ⟨fuel' - 1, by omega⟩
        have hcontent' : skipContent? fuel' depth inner wireType (content ++ (more ++ rest')) =
            some (more ++ rest') := hskips fuel' (by omega) _
        have hmore' : skipGroup? fuel' depth tag (more ++ rest') = some rest' := hskips' fuel' (by omega) _
        change skipGroup? (fuel' + 1) depth tag (key ++ (content ++ more) ++ rest') = some rest'
        rw [skipGroup?_succ, List.append_assoc, htakes, Option.bind_some, if_neg hmore, if_neg hdepth,
          List.append_assoc, hcontent', Option.bind_some, hmore']

/-! Fields -/

/-- Reads the content of a field after its key. -/
def readContent? (delimited : Nat → Bool) (depth : Nat) (key : Nat × Nat) (bs : Bytes) :
    Option (Field × Bytes) :=
  if delimited key.1 || key.2 = 2 then
    (readDelimited? bs).map (Prod.map (fun content => ⟨key.1, .bytes content⟩) id)
  else match key.2 with
    | 0 => (readVarint? bs).map (Prod.map (fun n => ⟨key.1, .varint n⟩) id)
    | 1 => (take? 8 bs).map (Prod.map (fun content => ⟨key.1, .fixed64 (ofLittleEndian content)⟩) id)
    | 3 =>
      if depth = 0 then none
      else (skipGroup? bs.length depth key.1 bs).map fun rest => (⟨key.1, .group⟩, rest)
    | 5 => (take? 4 bs).map (Prod.map (fun content => ⟨key.1, .fixed32 (ofLittleEndian content)⟩) id)
    | _ => none

theorem readField?_eq (delimited : Nat → Bool) (depth : Nat) : readField? delimited depth =
    fun bs => (readTag? bs).bind fun r => readContent? delimited depth r.1 r.2 := by
  funext bs
  rw [readField?, readTag?]
  cases readKey? bs with
  | none => rfl
  | some r =>
    obtain ⟨tag, wireType, bs⟩ := r
    change (if _ then _ else _) = if _ then _ else _
    split
    · cases readDelimited? bs <;> rfl
    rcases wireType with _ | _ | _ | _ | _ | _ | _
    · cases readVarint? bs <;> rfl
    · cases take? 8 bs <;> rfl
    · rfl
    · change (if _ then _ else _) = if _ then _ else _
      split
      · rfl
      · cases skipGroup? bs.length depth tag bs <;> rfl
    · rfl
    · cases take? 4 bs <;> rfl
    · rfl

theorem isLocal_readContent? (delimited : Nat → Bool) (depth : Nat) (key : Nat × Nat) :
    IsLocal (readContent? delimited depth key) := by
  unfold readContent?
  split
  · exact isLocal_readDelimited?.map _
  split
  · exact isLocal_readVarint?.map _
  · exact (isLocal_take? 8).map _
  · split
    · exact isLocal_none
    · intro bs f rest h
      obtain ⟨rest, hskip, heq⟩ := Option.map_eq_some_iff.1 h
      cases heq
      obtain ⟨taken, rfl, hskips⟩ := skips_group hskip
      refine ⟨taken, rfl, fun rest' => ?_⟩
      have hskip' : skipGroup? (taken ++ rest').length depth key.1 (taken ++ rest') = some rest' :=
        hskips _ (by rw [List.length_append]; omega) rest'
      change Option.map _ (skipGroup? _ depth key.1 (taken ++ rest')) = _
      rw [hskip']
      rfl
  · exact (isLocal_take? 4).map _
  · exact isLocal_none

theorem isLocal_readField? (delimited : Nat → Bool) (depth : Nat) : IsLocal (readField? delimited depth) := by
  rw [readField?_eq]
  exact isLocal_readTag?.bind (isLocal_readContent? delimited depth)

theorem readField?_nil (delimited : Nat → Bool) (depth : Nat) : readField? delimited depth [] = none := rfl

/-! Fields, one after the other -/

theorem readFields?_succ (hne : bs ≠ []) : readFields? delimited depth (fuel + 1) bs =
    (readField? delimited depth bs).bind fun r =>
      (readFields? delimited depth fuel r.2).map (r.1 :: ·) := by
  rw [readFields?]
  · cases readField? delimited depth bs with
    | none => rfl
    | some r =>
      change Option.bind (readFields? delimited depth fuel r.2) _ =
        Option.map _ (readFields? delimited depth fuel r.2)
      cases readFields? delimited depth fuel r.2 <;> rfl
  · exact hne

/-- A field takes at least a byte, so any fuel from the number of bytes on is enough. -/
theorem readFields?_congr (h : bs.length ≤ fuel) (h' : bs.length ≤ fuel') :
    readFields? delimited depth fuel bs = readFields? delimited depth fuel' bs := by
  induction fuel generalizing bs fuel' with
  | zero =>
    obtain rfl : bs = [] := List.length_eq_zero_iff.1 (Nat.le_zero.1 h)
    cases fuel' <;> rfl
  | succ fuel ih =>
    by_cases hne : bs = []
    · rw [hne]
      cases fuel' <;> rfl
    have hpos := List.length_pos_iff.2 hne
    obtain ⟨fuel', rfl⟩ : ∃ k, fuel' = k + 1 := ⟨fuel' - 1, by omega⟩
    rw [readFields?_succ hne, readFields?_succ hne]
    refine Option.bind_congr fun r hread => ?_
    obtain ⟨taken, rfl, htakes⟩ := isLocal_readField? delimited depth bs r.1 r.2 hread
    have hpos := List.length_pos_iff.2 (htakes.ne_nil (readField?_nil delimited depth))
    rw [List.length_append] at h h'
    have hrest : readFields? delimited depth fuel r.2 = readFields? delimited depth fuel' r.2 :=
      ih (by omega) (by omega)
    rw [hrest]

theorem decodeFields?_of_ne_nil (hne : bs ≠ []) : decodeFields? delimited depth bs =
    (readField? delimited depth bs).bind fun r =>
      (decodeFields? delimited depth r.2).map (r.1 :: ·) := by
  have hfuel : bs.length = bs.length - 1 + 1 := (Nat.sub_add_cancel (List.length_pos_iff.2 hne)).symm
  rw [decodeFields?, hfuel, readFields?_succ hne]
  refine Option.bind_congr fun r hread => ?_
  obtain ⟨taken, rfl, htakes⟩ := isLocal_readField? delimited depth bs r.1 r.2 hread
  have hpos := List.length_pos_iff.2 (htakes.ne_nil (readField?_nil delimited depth))
  rw [decodeFields?, readFields?_congr (by rw [List.length_append]; omega) (Nat.le_refl _)]

theorem decodeFields?_of_takes (h : Takes (readField? delimited depth) taken f) (rest : Bytes) :
    decodeFields? delimited depth (taken ++ rest) = (decodeFields? delimited depth rest).map (f :: ·) := by
  have hne := h.ne_nil (readField?_nil delimited depth)
  rw [decodeFields?_of_ne_nil (List.append_ne_nil_of_left_ne_nil hne _), h, Option.bind_some]

/-- Whole fields are read as such, whatever follows them. -/
theorem decodeFields?_append (h : decodeFields? delimited depth bs = some fs) (rest : Bytes) :
    decodeFields? delimited depth (bs ++ rest) = (decodeFields? delimited depth rest).map (fs ++ ·) := by
  induction fs generalizing bs with
  | nil =>
    obtain rfl : bs = [] := by
      by_contra hne
      rw [decodeFields?_of_ne_nil hne] at h
      obtain ⟨r, -, hr⟩ := Option.bind_eq_some_iff.1 h
      obtain ⟨gs, -, hgs⟩ := Option.map_eq_some_iff.1 hr
      cases hgs
    exact (Option.map_id_apply).symm
  | cons f fs ih =>
    have hne : bs ≠ [] := by
      rintro rfl
      cases h
    rw [decodeFields?_of_ne_nil hne] at h
    obtain ⟨r, hread, hr⟩ := Option.bind_eq_some_iff.1 h
    obtain ⟨gs, hgs, heq⟩ := Option.map_eq_some_iff.1 hr
    cases heq
    obtain ⟨taken, rfl, htakes⟩ := isLocal_readField? delimited depth bs r.1 r.2 hread
    rw [List.append_assoc, decodeFields?_of_takes htakes, ih hgs, Option.map_map]
    rfl

end LiveQuery.Wire
