import Mathlib.Data.List.Basic
import LiveQuery.Proofs.Wire.Front
import LiveQuery.Proofs.Wire.Schema

namespace LiveQuery.Wire

/-! The form of a field -/

/-- A number in groups of seven bits, the lowest first. The last groups may be zero. -/
inductive IsGroups : Bytes → Nat → Prop
  | last {b : UInt8} : b < 128 → IsGroups [b] b.toNat
  | more {b : UInt8} {bs : Bytes} {n : Nat} : ¬ b < 128 → IsGroups bs n →
      IsGroups (b :: bs) (b.toNat - 128 + 128 * n)

/-- A varint below `2 ^ 64` in at most ten bytes, not always the fewest. -/
structure IsVarint (bs : Bytes) (n : Nat) : Prop where
  groups : IsGroups bs n
  length_le : bs.length ≤ 10
  lt_size : n < UInt64.size

/-- A field with this number: a varint, 64 bits, bytes after their length, or 32 bits. -/
inductive IsField (tag : Nat) : Bytes → Prop
  | varint {k bs : Bytes} {n : Nat} : IsVarint k (8 * tag) → IsVarint bs n → IsField tag (k ++ bs)
  | fixed64 {k bs : Bytes} : IsVarint k (8 * tag + 1) → bs.length = 8 → IsField tag (k ++ bs)
  | bytes {k l bs : Bytes} : IsVarint k (8 * tag + 2) → IsVarint l bs.length → IsField tag (k ++ (l ++ bs))
  | fixed32 {k bs : Bytes} : IsVarint k (8 * tag + 5) → bs.length = 4 → IsField tag (k ++ bs)

/-- The key of a field that holds a message. An entry of a map is taken whatever its key announces. -/
def IsKey (s : Schema) (tag : Nat) (k : Bytes) : Prop :=
  ∃ wireType ≤ 5, IsVarint k (8 * tag + wireType) ∧ (wireType = 2 ∨ s.delimited tag = true)

/-- The second is the first with a field more that is not declared where it stands: between two fields
of a message at a level of at most 99, the lengths around it adjusted. -/
inductive Inserted : (s : Schema) → (level : Nat) → Bytes → Bytes → Prop
  | here {s : Schema} {level tag : Nat} {before after u : Bytes} {fs : List Field} : level ≤ 99 →
      decodeFields? s.delimited (maxDepth - level) before = some fs →
      IsTag tag → tag ∉ s.numbers → IsField tag u →
      Inserted s level (before ++ after) (before ++ (u ++ after))
  | inside {s sub : Schema} {level tag : Nat} {before after k l l' content content' : Bytes}
      {fs : List Field} : decodeFields? s.delimited (maxDepth - level) before = some fs →
      (tag, some sub) ∈ s.fields → IsKey s tag k → IsVarint l content.length → IsVarint l' content'.length →
      Inserted sub (level + 1) content content' →
      Inserted s level (before ++ (k ++ (l ++ content) ++ after)) (before ++ (k ++ (l' ++ content') ++ after))

variable {α : Type} {s : Schema} {bs bs' k l u before rest : Bytes} {n tag wireType limit depth level : Nat}
  {delimited : Nat → Bool} {step : α → Field → Option α} {a : α} {f : Field} {fs : List Field}
  {response : ListenResponse}

theorem IsGroups.takes (h : IsGroups bs n) (hlimit : bs.length ≤ limit) : Takes (readGroups? limit) bs n := by
  induction h generalizing limit with
  | last hb =>
    intro rest
    obtain ⟨limit, rfl⟩ : ∃ j, limit = j + 1 := ⟨limit - 1, (Nat.sub_add_cancel hlimit).symm⟩
    exact if_pos hb
  | more hb _ ih =>
    intro rest
    rw [List.length_cons] at hlimit
    obtain ⟨limit, rfl⟩ : ∃ j, limit = j + 1 := ⟨limit - 1, by omega⟩
    rw [List.cons_append, readGroups?, if_neg hb, ih (Nat.le_of_succ_le_succ hlimit), Option.map_some]

theorem IsVarint.takes (h : IsVarint bs n) : Takes readVarint? bs n := fun rest =>
  Option.filter_eq_some_iff.2 ⟨h.groups.takes h.length_le rest, decide_eq_true h.lt_size⟩

theorem takes_readTag? (htag : IsTag tag) (hwire : wireType ≤ 5) (h : IsVarint k (8 * tag + wireType)) :
    Takes readTag? k (tag, wireType) := by
  obtain ⟨hpos, hlt⟩ := htag
  have hkey : 8 * tag + wireType < UInt32.size ∧ 8 ≤ 8 * tag + wireType ∧ (8 * tag + wireType) % 8 ≤ 5 := by
    rw [UInt32.size]
    omega
  have hvalue : ((8 * tag + wireType) / 8, (8 * tag + wireType) % 8) = (tag, wireType) := by
    rw [Prod.mk.injEq]
    omega
  rw [readTag?_eq, ← hvalue]
  refine Takes.map (fun rest => ?_) fun n => (n / 8, n % 8)
  exact Option.filter_eq_some_iff.2 ⟨h.takes rest, decide_eq_true hkey⟩

theorem takes_take? (bs : Bytes) : Takes (take? bs.length) bs bs := take?_append bs

theorem takes_readDelimited? (h : IsVarint l bs.length) : Takes readDelimited? (l ++ bs) bs :=
  h.takes.bind (takes_take? bs)

theorem takes_readField? (htag : IsTag tag) (hwire : wireType ≤ 5) (hkey : IsVarint k (8 * tag + wireType))
    (h : Takes (readContent? delimited depth (tag, wireType)) bs f) :
    Takes (readField? delimited depth) (k ++ bs) f := by
  rw [readField?_eq]
  exact (takes_readTag? htag hwire hkey).bind h

theorem IsField.takes (h : IsField tag u) (htag : IsTag tag) (hmap : delimited tag = false) (depth : Nat) :
    ∃ p, Takes (readField? delimited depth) u ⟨tag, p⟩ := by
  cases h with
  | @varint k bs n hkey hbs =>
    refine ⟨.varint n, takes_readField? htag (Nat.zero_le 5) hkey ?_⟩
    unfold readContent?
    rw [hmap]
    exact hbs.takes.map _
  | @fixed64 k bs hkey hlength =>
    refine ⟨.fixed64 (ofLittleEndian bs), takes_readField? htag (by decide) hkey ?_⟩
    unfold readContent?
    rw [hmap]
    exact (hlength ▸ takes_take? bs).map _
  | @bytes k l bs hkey hl =>
    refine ⟨.bytes bs, takes_readField? htag (by decide) hkey ?_⟩
    unfold readContent?
    rw [hmap]
    exact (takes_readDelimited? hl).map _
  | @fixed32 k bs hkey hlength =>
    refine ⟨.fixed32 (ofLittleEndian bs), takes_readField? htag (by decide) hkey ?_⟩
    unfold readContent?
    rw [hmap]
    exact (hlength ▸ takes_take? bs).map _

theorem takes_message (htag : IsTag tag) (hkey : IsKey s tag k) (hl : IsVarint l bs.length) (depth : Nat) :
    Takes (readField? s.delimited depth) (k ++ (l ++ bs)) ⟨tag, .bytes bs⟩ := by
  obtain ⟨wireType, hwire, hk, hdelimited⟩ := hkey
  have hbytes : (s.delimited tag || decide (wireType = 2)) = true := by
    rcases hdelimited with rfl | hmap
    · exact Bool.or_true _
    · rw [hmap, Bool.true_or]
  exact takes_readField? htag hwire hk fun rest =>
    (if_pos hbytes).trans ((takes_readDelimited? hl).map (fun content => Field.mk tag (.bytes content)) rest)

/-! Merging around a field -/

theorem mergeFields?_append (h : decodeFields? delimited depth before = some fs) (rest : Bytes) :
    mergeFields? delimited step depth a (before ++ rest) =
      (fs.foldlM step a).bind fun b => mergeFields? delimited step depth b rest := by
  unfold mergeFields?
  rw [decodeFields?_append h]
  cases decodeFields? delimited depth rest with
  | none => exact (Option.bind_fun_none _).symm
  | some gs => exact List.foldlM_append

theorem mergeFields?_of_takes (h : Takes (readField? delimited depth) u f) (rest : Bytes) :
    mergeFields? delimited step depth a (u ++ rest) =
      (step a f).bind fun b => mergeFields? delimited step depth b rest := by
  have hone : decodeFields? delimited depth u = some [f] := by
    have hread := decodeFields?_of_takes h []
    rwa [List.append_nil] at hread
  rw [mergeFields?_append hone, List.foldlM_cons]
  cases step a f <;> rfl

theorem Inserted.tolerates (h : Inserted s level bs bs') : Tolerates s (maxDepth - level) bs bs' := by
  induction h with
  | @here s level tag before after u fs hlevel hbefore htag hnumber hu =>
    obtain ⟨step, hstep⟩ := s.follows
    obtain ⟨p, htakes⟩ := hu.takes htag (Schema.delimited_of_notMem hnumber) (maxDepth - level)
    have hskip (a : s.Carrier) : step (maxDepth - level) a ⟨tag, p⟩ = some a := by
      rw [hstep.undeclared _ _ _ hnumber, skip?, if_neg (by rw [maxDepth]; omega)]
    intro a
    rw [hstep.merge?_eq, mergeFields?_append hbefore, mergeFields?_append hbefore]
    refine .bind (.refl _) fun b => ?_
    rw [mergeFields?_of_takes htakes, hskip]
    exact .refl _
  | @inside s sub level tag before after k l l' content content' fs hbefore hmem hkey hl hl' _ ih =>
    obtain ⟨step, hstep⟩ := s.follows
    have htag : IsTag tag := Schema.isTag_of_mem (List.mem_map_of_mem hmem)
    have hpass := List.forall_iff_forall_mem.1 (hstep.passesOn (maxDepth - level)) _ hmem
    intro a
    rw [hstep.merge?_eq, mergeFields?_append hbefore, mergeFields?_append hbefore]
    refine .bind (.refl _) fun b => ?_
    rw [mergeFields?_of_takes (takes_message htag hkey hl _),
      mergeFields?_of_takes (takes_message htag hkey hl' _)]
    exact .bind (hpass _ _ ih b) fun _ => .refl _

/-- Fields that the trimmed messages do not declare do not show: wherever they stand in a response, it
reads as without them. -/
theorem decode?_of_inserted (h : Inserted .response 0 bs bs') (hread : decode? bs = some response) :
    decode? bs' = some response :=
  h.tolerates (Message.default : ListenResponse) response hread

theorem isVarint_singleton {b : UInt8} (h : b < 128) : IsVarint [b] b.toNat :=
  ⟨.last h, Nat.le_add_left 1 9, Nat.lt_trans b.toNat_lt (by decide)⟩

theorem isKey_singleton {b : UInt8} (h : b < 128) (htag : b.toNat = 8 * tag + 2) : IsKey s tag [b] :=
  ⟨2, by decide, htag ▸ isVarint_singleton h, .inl rfl⟩

/-- An entry of a document's map with 32 bits between its key and its value, behind a length in one byte
more than it takes. -/
theorem decode?_of_inserted_entry :
    decode? [0x1a, 17, 0x0a, 15, 0x12, 0x8c, 0, 0x0a, 1, 97, 0x1d, 1, 2, 3, 4, 0x12, 2, 0x58, 0] =
      some (ListenResponse.documentChange ⟨some ⟨"", [("a", .null 0)], none, none⟩, [], []⟩) := by
  have hentry : Inserted .entry 3 [0x0a, 1, 97, 0x12, 2, 0x58, 0]
      [0x0a, 1, 97, 0x1d, 1, 2, 3, 4, 0x12, 2, 0x58, 0] :=
    @Inserted.here .entry 3 3 [0x0a, 1, 97] _ _ [⟨1, .bytes [97]⟩] (by decide) rfl (by decide) (by decide)
      (@IsField.fixed32 3 [0x1d] [1, 2, 3, 4] (isVarint_singleton (b := 0x1d) (by decide)) rfl)
  have hdocument : Inserted .document 2 [0x12, 7, 0x0a, 1, 97, 0x12, 2, 0x58, 0]
      [0x12, 0x8c, 0, 0x0a, 1, 97, 0x1d, 1, 2, 3, 4, 0x12, 2, 0x58, 0] :=
    @Inserted.inside .document .entry 2 2 [] [] [0x12] [7] [0x8c, 0] _ _ [] rfl (by decide)
      (isKey_singleton (by decide) rfl) (by exact isVarint_singleton (by decide))
      ⟨by exact .more (by decide) (.last (by decide)), by decide, by decide⟩ hentry
  have hchange : Inserted .documentChange 1 [0x0a, 9, 0x12, 7, 0x0a, 1, 97, 0x12, 2, 0x58, 0]
      [0x0a, 15, 0x12, 0x8c, 0, 0x0a, 1, 97, 0x1d, 1, 2, 3, 4, 0x12, 2, 0x58, 0] :=
    @Inserted.inside .documentChange .document 1 1 [] [] [0x0a] [9] [15] _ _ [] rfl (by decide)
      (isKey_singleton (by decide) rfl) (by exact isVarint_singleton (by decide))
      (by exact isVarint_singleton (by decide)) hdocument
  have hresponse : Inserted .response 0 [0x1a, 11, 0x0a, 9, 0x12, 7, 0x0a, 1, 97, 0x12, 2, 0x58, 0]
      [0x1a, 17, 0x0a, 15, 0x12, 0x8c, 0, 0x0a, 1, 97, 0x1d, 1, 2, 3, 4, 0x12, 2, 0x58, 0] :=
    @Inserted.inside .response .documentChange 0 3 [] [] [0x1a] [11] [17] _ _ [] rfl (by decide)
      (isKey_singleton (by decide) rfl) (by exact isVarint_singleton (by decide))
      (by exact isVarint_singleton (by decide)) hchange
  exact decode?_of_inserted hresponse rfl

end LiveQuery.Wire
