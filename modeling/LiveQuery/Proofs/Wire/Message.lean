import LiveQuery.Proofs.Wire.Field
import LiveQuery.Proofs.Wire.Nesting

namespace LiveQuery.Wire

variable {α β γ : Type} {delimited : Nat → Bool} {step : α → Field → Option α} {depth l l' : Nat}
  {fs gs content : List Field} {f : Field} {a b c : α} {m default : β} {tag : Nat} {payload : Payload}
  {bs : Bytes} {merge? : Nat → β → Bytes → Option β}

theorem distinctKeys_setEntry {es : List (String × γ)} (h : DistinctKeys es) (key : String) (value : γ) :
    DistinctKeys (setEntry key value es) := by
  induction es with
  | nil => exact List.nodup_cons.2 ⟨nofun, List.nodup_nil⟩
  | cons e es ih =>
    obtain ⟨hfirst, hrest⟩ := List.nodup_cons.1 h
    rw [setEntry]
    split
    · next hkey => exact List.nodup_cons.2 ⟨hkey ▸ hfirst, hrest⟩
    · next hkey =>
      refine List.nodup_cons.2 ⟨fun hmem => ?_, ih hrest⟩
      obtain ⟨e', he', heq⟩ := List.mem_map.1 hmem
      rcases mem_setEntry he' with rfl | he'
      · exact hkey heq.symm
      · exact hfirst (heq ▸ List.mem_map_of_mem he')

/-! Fields folded into a value -/

/-- Reading these fields makes one value of another, if there are so many levels left, and fails
otherwise. -/
structure Yields (delimited : Nat → Bool) (step : α → Field → Option α) (depth : Nat) (fs : List Field)
    (l : Nat) (a b : α) : Prop where
  sound : ∀ f ∈ fs, f.Sound delimited
  foldlM : Short fs → fs.foldlM step a = if l ≤ depth then some b else none

/-- The bytes of these fields read as a message with so many levels below it. -/
def Reads (merge? : Nat → β → Bytes → Option β) (default : β) (fs : List Field) (l : Nat) (m : β) : Prop :=
  Short fs → ∀ depth, merge? depth default (encodeFields fs) = if l ≤ depth then some m else none

/-- Merges a message one level down, if there is a level left. -/
def deeper (merge? : Nat → β → Bytes → Option β) (depth : Nat) (m : β) (bs : Bytes) : Option β :=
  if depth = 0 then none else merge? (depth - 1) m bs

theorem Short.of_append (h : Short (fs ++ gs)) : Short fs ∧ Short gs := by
  rw [Short, encodeFields_append, List.length_append] at h
  exact ⟨Nat.lt_of_le_of_lt (Nat.le_add_right _ _) h, Nat.lt_of_le_of_lt (Nat.le_add_left _ _) h⟩

theorem Short.of_ofFields (h : Short [.ofFields tag content]) : Short content := by
  rw [Short, encodeFields_cons, List.length_append, Field.ofFields, Field.encode, List.length_append] at h
  rw [Short]
  omega

theorem Reads.deeper (h : Reads merge? default fs l m) (hshort : Short fs) (depth : Nat) :
    deeper merge? depth default (encodeFields fs) = if l + 1 ≤ depth then some m else none := by
  cases depth with
  | zero => rfl
  | succ depth =>
    rw [Wire.deeper, if_neg (Nat.succ_ne_zero depth), Nat.add_sub_cancel, h hshort]
    simp only [Nat.add_le_add_iff_right]

namespace Yields

theorem nil (a : α) : Yields delimited step depth [] 0 a a :=
  ⟨nofun, fun _ => (if_pos (Nat.zero_le depth)).symm⟩

theorem append (h : Yields delimited step depth fs l a b) (h' : Yields delimited step depth gs l' b c) :
    Yields delimited step depth (fs ++ gs) (max l l') a c where
  sound f hf := (List.mem_append.1 hf).elim (h.sound f) (h'.sound f)
  foldlM hshort := by
    rw [List.foldlM_append, h.foldlM hshort.of_append.1]
    by_cases hl : l ≤ depth
    · rw [if_pos hl, Option.bind_eq_bind, Option.bind_some, h'.foldlM hshort.of_append.2]
      simp only [Nat.max_le, hl, true_and]
    · rw [if_neg hl, if_neg (by omega)]
      rfl

theorem reads {merge? : Nat → α → Bytes → Option α} {step : Nat → α → Field → Option α}
    (hmerge : ∀ depth, merge? depth a = mergeFields? delimited (step depth) depth a)
    (h : ∀ depth, Yields delimited (step depth) depth fs l a b) (hl : l = l' := by rfl) :
    Reads merge? a fs l' b := by
  subst hl
  intro hshort depth
  rw [hmerge, mergeFields?, decodeFields?_encodeFields (h depth).sound hshort]
  exact (h depth).foldlM hshort

/-- A field, whatever it holds. -/
theorem one (hsound : f.Sound delimited)
    (hstep : Short [f] → step a f = if l ≤ depth then some b else none) :
    Yields delimited step depth [f] l a b where
  sound g hg := List.mem_singleton.1 hg ▸ hsound
  foldlM hshort := by
    rw [List.foldlM_cons, hstep hshort]
    split <;> rfl

/-- A field that holds no message. -/
theorem single (hpayload : payload.Sound (delimited tag)) (hstep : step a ⟨tag, payload⟩ = some b)
    (htag : IsTag tag := by decide) :
    Yields delimited step depth [⟨tag, payload⟩] 0 a b :=
  one ⟨htag, hpayload⟩ fun _ => hstep.trans (if_pos (Nat.zero_le depth)).symm

/-- A scalar field, which is left out for its default. -/
theorem scalar [BEq γ] [LawfulBEq γ] {zero : γ} {read? : Payload → Option γ}
    (write : γ → Payload) (hread : ∀ x, read? (write x) = some x) (set : γ → α) (x : γ)
    (hpayload : (write x).Sound (delimited tag))
    (hstep : ∀ p, step (set zero) ⟨tag, p⟩ = (read? p).bind fun x => some (set x))
    (htag : IsTag tag) :
    Yields delimited step depth (omitting zero (fun x => ⟨tag, write x⟩) x) 0 (set zero) (set x) := by
  rw [omitting]
  split
  · next hzero =>
    rw [eq_of_beq hzero]
    exact nil _
  · exact single hpayload (by rw [hstep, hread]; rfl) htag

theorem int32 (set : Int32 → α) (n : Int32) (htag : IsTag tag := by decide)
    (hmap : delimited tag = false := by rfl)
    (hstep : ∀ p, step (set 0) ⟨tag, p⟩ = p.int32?.bind fun x => some (set x) := by intro _; rfl) :
    Yields delimited step depth (omitting 0 (.ofInt32 tag) n) 0 (set 0) (set n) :=
  scalar (fun n => .varint (word n.toInt)) int32?_word set n ⟨hmap, word_lt _⟩ hstep htag

theorem int64 (set : Int64 → α) (n : Int64) (htag : IsTag tag := by decide)
    (hmap : delimited tag = false := by rfl)
    (hstep : ∀ p, step (set 0) ⟨tag, p⟩ = p.int64?.bind fun x => some (set x) := by intro _; rfl) :
    Yields delimited step depth (omitting 0 (.ofInt64 tag) n) 0 (set 0) (set n) :=
  scalar (fun n => .varint (word n.toInt)) int64?_word set n ⟨hmap, word_lt _⟩ hstep htag

theorem string (set : String → α) (s : String) (htag : IsTag tag := by decide)
    (hstep : ∀ p, step (set "") ⟨tag, p⟩ = p.string?.bind fun x => some (set x) := by intro _; rfl) :
    Yields delimited step depth (omitting "" (.ofString tag) s) 0 (set "") (set s) :=
  scalar (fun s => .bytes (utf8 s)) string?_utf8 set s trivial hstep htag

theorem bytes (set : Bytes → α) (bs : Bytes) (htag : IsTag tag := by decide)
    (hstep : ∀ p, step (set []) ⟨tag, p⟩ = p.bytes?.bind fun x => some (set x) := by intro _; rfl) :
    Yields delimited step depth (omitting [] (.ofBytes tag) bs) 0 (set []) (set bs) :=
  scalar .bytes (fun _ => rfl) set bs trivial hstep htag

theorem bool (set : Bool → α) (x : Bool) (htag : IsTag tag := by decide)
    (hmap : delimited tag = false := by rfl)
    (hstep : ∀ p, step (set false) ⟨tag, p⟩ = p.bool?.bind fun x => some (set x) := by intro _; rfl) :
    Yields delimited step depth (omitting false (.ofBool tag) x) 0 (set false) (set x) :=
  scalar (fun x => .varint x.toNat) bool?_toNat set x
    ⟨hmap, Nat.lt_of_le_of_lt x.toNat_le (by decide)⟩ hstep htag

theorem coordinate (set : Binary64 → α) (x : Binary64) (htag : IsTag tag := by decide)
    (hmap : delimited tag = false := by rfl)
    (hstep : ∀ p, step (set (.zero false)) ⟨tag, p⟩ = p.double?.bind fun x => some (set x) := by
      intro _; rfl) :
    Yields delimited step depth (Wire.coordinate tag x) 0 (set (.zero false)) (set (normalCoordinate x)) := by
  rw [Wire.coordinate, normalCoordinate]
  by_cases hzero : x.isZero
  · rw [if_pos hzero]
    obtain rfl | rfl := Binary64.isZero_iff.1 hzero
    · exact nil _
    · exact nil _
  · rw [if_neg hzero, if_neg fun h => hzero (Binary64.isZero_iff.2 (.inr h))]
    exact single ⟨hmap, x.bits.toNat_lt⟩ (by rw [hstep, double?_bits]; rfl) htag

theorem packed (set : List Int32 → α) (ns : List Int32) (htag : IsTag tag := by decide)
    (hstep : ∀ p, step (set []) ⟨tag, p⟩ = p.int32s?.bind fun ns => some (set ([] ++ ns)) := by
      intro _; rfl) :
    Yields delimited step depth (Wire.packed tag ns) 0 (set []) (set ns) := by
  cases ns with
  | nil => exact nil _
  | cons n ns => exact single trivial (by rw [hstep, int32s?_packed]; rfl) htag

/-- A field that holds a message. -/
theorem nested (h : Reads merge? default content l m) (set : β → α)
    (hstep : ∀ bs, step a ⟨tag, .bytes bs⟩ = (deeper merge? depth default bs).bind fun m => some (set m))
    (htag : IsTag tag := by decide) :
    Yields delimited step depth [.ofFields tag content] (l + 1) a (set m) :=
  one ⟨htag, trivial⟩ fun hshort => by
    rw [Field.ofFields, hstep, h.deeper hshort.of_ofFields]
    split <;> rfl

/-- The members of a list, a field each. -/
theorem each {xs : List β} (write : β → Field) (size : β → Nat) (set : List γ → α) (read : β → γ)
    (h : ∀ before x after, before ++ x :: after = xs →
      Yields delimited step depth [write x] (size x) (set (before.map read))
        (set (before.map read ++ [read x]))) :
    Yields delimited step depth (xs.map write) (xs.foldr (fun x l => max (size x) l) 0) (set [])
      (set (xs.map read)) := by
  suffices hrest : ∀ after before, before ++ after = xs →
      Yields delimited step depth (after.map write) (after.foldr (fun x l => max (size x) l) 0)
        (set (before.map read)) (set (xs.map read)) from hrest xs [] rfl
  intro after
  induction after with
  | nil =>
    intro before hxs
    rw [← hxs, List.append_nil]
    exact nil _
  | cons x after ih =>
    intro before hxs
    have hafter := ih (before ++ [x]) (by rw [List.append_assoc]; exact hxs)
    rw [List.map_append] at hafter
    exact (h before x after hxs).append hafter

theorem strings (set : List String → α) (ss : List String)
    (hstep : ∀ ss p, step (set ss) ⟨tag, p⟩ = p.string?.bind fun s => some (set (ss ++ [s])) := by
      intro _ _; rfl)
    (htag : IsTag tag := by decide) :
    Yields delimited step depth (ss.map (.ofString tag)) 0 (set []) (set ss) := by
  have hlevels : ss.foldr (fun _ l => max 0 l) 0 = 0 := by
    induction ss with
    | nil => rfl
    | cons _ _ ih => rw [List.foldr_cons, ih, Nat.max_self]
  have heach : Yields delimited step depth (ss.map (.ofString tag)) (ss.foldr (fun _ l => max 0 l) 0)
      (set []) (set (ss.map id)) :=
    each _ (fun _ => 0) set id fun before s _ _ => single trivial (by rw [hstep, string?_utf8]; rfl) htag
  rwa [hlevels, List.map_id] at heach

/-- Messages in a list. -/
theorem members [Nested β] {ms : List β} (write : β → List Field) (set : List β → α)
    (h : ∀ m ∈ ms, Reads merge? default (write m) (levels m) (normal m))
    (hstep : ∀ as bs, step (set as) ⟨tag, .bytes bs⟩ =
      (deeper merge? depth default bs).bind fun m => some (set (as ++ [m])))
    (htag : IsTag tag := by decide) :
    Yields delimited step depth (ms.map fun m => .ofFields tag (write m)) (levels ms) (set [])
      (set (normal ms)) :=
  each _ (fun m => levels m + 1) set normal fun before m _ hms =>
    nested (h m (hms ▸ List.mem_append_right _ List.mem_cons_self)) (fun m => set (before.map normal ++ [m]))
      (hstep _) htag

/-- Messages that are the entries of a map. Their keys are distinct, so none replaces another. -/
theorem entries [Nested β] {ms : List β} (write : β → List Field) (set : List (String × γ) → α)
    (entry : β → String × γ) (h : ∀ m ∈ ms, Reads merge? default (write m) (levels m) (normal m))
    (hkey : ∀ m, (entry (normal m)).1 = (entry m).1) (hdistinct : DistinctKeys (ms.map entry))
    (hstep : ∀ es bs, step (set es) ⟨tag, .bytes bs⟩ =
      (deeper merge? depth default bs).bind fun m => some (set (setEntry (entry m).1 (entry m).2 es)))
    (htag : IsTag tag := by decide) :
    Yields delimited step depth (ms.map fun m => .ofFields tag (write m))
      (ms.foldr (fun m l => max (levels m + 1) l) 0) (set []) (set (ms.map fun m => entry (normal m))) :=
  each _ (fun m => levels m + 1) set _ fun before m _ hms => by
    have hfresh : (entry (normal m)).1 ∉ (before.map fun m => entry (normal m)).map Prod.fst := by
      have hkeys : (before.map fun m => entry (normal m)).map Prod.fst = (before.map entry).map Prod.fst := by
        simp only [List.map_map, Function.comp_def, hkey]
      rw [DistinctKeys, ← hms, List.map_append, List.map_append, List.map_cons, List.map_cons,
        List.nodup_append] at hdistinct
      rw [hkeys, hkey]
      exact fun hmem => hdistinct.2.2 _ hmem _ List.mem_cons_self rfl
    have hone : Yields delimited step depth [.ofFields tag (write m)] (levels m + 1) _ _ :=
      nested (h m (hms ▸ List.mem_append_right _ List.mem_cons_self)) _
        (hstep (before.map fun m => entry (normal m))) htag
    rwa [setEntry_of_notMem hfresh] at hone

end Yields

/-! Messages within messages -/

/-- A message that may be read where there are so many levels left. -/
def Fits [Nested α] (depth : Nat) (a : α) : Prop := levels a ≤ depth ∧ Distinct a

/-- What is merged into a message that fits makes one that fits. -/
def Keeps [Nested α] (merge? : Nat → α → Bytes → Option α) (depth : Nat) : Prop :=
  ∀ a bs b, Fits depth a → merge? depth a bs = some b → Fits depth b

theorem mergeFields?_induction {P : α → Prop} (hstep : ∀ a f b, P a → step a f = some b → P b)
    (ha : P a) (h : mergeFields? delimited step depth a bs = some b) : P b := by
  obtain ⟨fs, -, hfold⟩ := Option.bind_eq_some_iff.1 h
  clear h
  induction fs generalizing a with
  | nil => exact Option.some.inj hfold ▸ ha
  | cons f fs ih =>
    obtain ⟨a', hf, hfold⟩ := Option.bind_eq_some_iff.1 hfold
    exact ih (hstep a f a' ha hf) hfold

theorem eq_of_skip? (h : skip? depth a = some b) : b = a := by
  rw [skip?] at h
  split at h
  · cases h
  · exact (Option.some.inj h).symm

/-- A field that is read and set. -/
theorem exists_of_bind {x : Option γ} {set : γ → α} (h : (x.bind fun y => some (set y)) = some b) :
    ∃ y, x = some y ∧ b = set y := by
  obtain ⟨y, hx, hb⟩ := Option.bind_eq_some_iff.1 h
  exact ⟨y, hx, (Option.some.inj hb).symm⟩

theorem fits_deeper [Nested β] {m m' : β} (hkeeps : ∀ k < depth, Keeps merge? k) (hm : Fits (depth - 1) m)
    (h : deeper merge? depth m bs = some m') : Fits depth (some m') := by
  rw [deeper] at h
  split at h
  · cases h
  · next hdepth =>
    obtain ⟨hlevels, hdistinct⟩ := hkeeps _ (Nat.sub_one_lt hdepth) _ _ _ hm h
    exact ⟨Nat.add_le_of_le_sub (Nat.one_le_iff_ne_zero.2 hdepth) hlevels, hdistinct⟩

theorem levels_le_iff [Nested β] {ms : List β} :
    ms.foldr (fun m l => max (levels m + 1) l) 0 ≤ depth ↔ ∀ m ∈ ms, levels m + 1 ≤ depth := by
  induction ms with
  | nil => exact ⟨nofun, fun _ => Nat.zero_le _⟩
  | cons m ms ih => rw [List.foldr_cons, Nat.max_le, ih, List.forall_mem_cons]

theorem distinct_of_mem [Nested β] {o : Option β} (ho : Distinct o) : ∀ m ∈ o, Distinct m := by
  intro m hm
  rw [Option.mem_def] at hm
  subst hm
  exact ho

theorem fits_list_iff [Nested β] {ms : List β} : Fits depth ms ↔ ∀ m ∈ ms, Fits depth (some m) :=
  ⟨fun h m hm => ⟨levels_le_iff.1 h.1 m hm, h.2 m hm⟩,
    fun h => ⟨levels_le_iff.2 fun m hm => (h m hm).1, fun m hm => (h m hm).2⟩⟩

theorem Fits.concat [Nested β] {ms : List β} (hms : Fits depth ms) (hm : Fits depth (some m)) :
    Fits depth (ms ++ [m]) := by
  rw [fits_list_iff] at hms ⊢
  intro m' hm'
  rcases List.mem_append.1 hm' with hmem | hmem
  · exact hms m' hmem
  · exact List.mem_singleton.1 hmem ▸ hm

theorem Fits.pred [Nested β] (h : Fits depth (some m)) : Fits (depth - 1) m :=
  ⟨Nat.le_sub_of_add_le h.1, h.2⟩

/-- Messages that come back as they were written, and that fit where they were read. -/
class Faithful (α : Type) [Message α] [Nested α] : Prop where
  reads (a : α) : Distinct a → Reads Message.merge? Message.default (Message.fields a) (levels a) (normal a)
  keeps (depth : Nat) : Keeps (Message.merge? (α := α)) depth := by
    intro _ _ _ _ _ _; exact ⟨Nat.zero_le _, trivial⟩
  fits_default (depth : Nat) : Fits depth (Message.default : α) := by
    intro _; exact ⟨Nat.zero_le _, trivial⟩

section

open Faithful

theorem nested?_bytes [Message β] (depth : Nat) (m : β) (bs : Bytes) :
    nested? depth m (.bytes bs) = deeper Message.merge? depth m bs := by
  cases depth <;> rfl

variable [Message β] [Nested β] [Faithful β] {p : Payload} {o o' : Option β} {ms ms' : List β}

theorem fits_nested? {m m' : β} (hm : Fits (depth - 1) m) (h : nested? depth m p = some m') :
    Fits depth (some m') := by
  cases p with
  | bytes bs => exact fits_deeper (fun k _ => keeps k) hm (nested?_bytes depth m bs ▸ h)
  | varint | fixed64 | group | fixed32 => cases depth <;> cases h

theorem fits_optional? (ho : Fits depth o) (h : optional? depth o p = some o') : Fits depth o' := by
  obtain ⟨m, hm, rfl⟩ := Option.map_eq_some_iff.1 h
  refine fits_nested? ?_ hm
  cases o with
  | none => exact fits_default _
  | some _ => exact ho.pred

theorem levels_optional? (hdistinct : ∀ m : β, Distinct m) (ho : levels o ≤ depth)
    (h : optional? depth o p = some o') : levels o' ≤ depth := by
  refine (fits_optional? ⟨ho, ?_⟩ h).1
  cases o with
  | none => trivial
  | some m => exact hdistinct m

theorem fits_repeated? (hms : Fits depth ms) (h : repeated? depth ms p = some ms') : Fits depth ms' := by
  obtain ⟨m, hm, rfl⟩ := exists_of_bind h
  exact hms.concat (fits_nested? (fits_default _) hm)

namespace Yields

theorem message (set : β → α) (m : β) (hm : Distinct m)
    (hstep : ∀ p, step a ⟨tag, p⟩ = (nested? depth Message.default p).bind fun m => some (set m) := by
      intro _; rfl)
    (htag : IsTag tag := by decide) :
    Yields delimited step depth [ofMessage tag m] (levels m + 1) a (set (normal m)) :=
  nested (Faithful.reads m hm) set (fun bs => by rw [hstep, nested?_bytes]) htag

theorem optional (set : Option β → α) (ho : ∀ m ∈ o, Distinct m) (hnormal : normal o = o')
    (hstep : ∀ p, step (set none) ⟨tag, p⟩ = (optional? depth none p).bind fun o => some (set o) := by
      intro _; rfl)
    (htag : IsTag tag := by decide) :
    Yields delimited step depth (ofOptional tag o) (levels o) (set none) (set o') := by
  subst hnormal
  cases o with
  | none => exact nil _
  | some m =>
    refine nested (Faithful.reads m (ho m rfl)) (fun m => set (some m)) (fun bs => ?_) htag
    rw [hstep, optional?, Option.getD_none, nested?_bytes]
    cases deeper Message.merge? depth (Message.default : β) bs <;> rfl

theorem repeated (set : List β → α) (hms : ∀ m ∈ ms, Distinct m) (hnormal : normal ms = ms')
    (hstep : ∀ ms p, step (set ms) ⟨tag, p⟩ = (repeated? depth ms p).bind fun ms => some (set ms) := by
      intro _ _; rfl)
    (htag : IsTag tag := by decide) :
    Yields delimited step depth (ms.map (ofMessage tag)) (levels ms) (set []) (set ms') := by
  subst hnormal
  refine members Message.fields set (fun m hm => Faithful.reads m (hms m hm)) (fun ms bs => ?_) htag
  rw [hstep, repeated?, nested?_bytes]
  cases deeper Message.merge? depth (Message.default : β) bs <;> rfl

end Yields

end

end LiveQuery.Wire
