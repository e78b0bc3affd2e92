import LiveQuery.Proofs.Wire.Message

namespace LiveQuery

/-- A value, and the same value with the entries of maps in another order. -/
inductive Value.Reorders : Value → Value → Prop
  | refl (v : Value) : Reorders v v
  | trans {v v' v'' : Value} : Reorders v v' → Reorders v' v'' → Reorders v v''
  | map {es es' : List (String × Value)} : es.Perm es' → Reorders (.map es) (.map es')
  | entry {v v' : Value} (before : List (String × Value)) (key : String) (after : List (String × Value)) :
      Reorders v v' → Reorders (.map (before ++ (key, v) :: after)) (.map (before ++ (key, v') :: after))
  | item {v v' : Value} (before after : List Value) :
      Reorders v v' → Reorders (.array (before ++ v :: after)) (.array (before ++ v' :: after))

namespace Wire

/-- Messages with maps that may be written in another order. This changes neither how deep the message nests
nor whether its keys are distinct. What is said by default is right for a message without maps. -/
class Reorderable (α : Type) [Nested α] where
  Reorders : α → α → Prop := Eq
  refl (a : α) : Reorders a a := by intro a; rfl
  levels_eq {a b : α} : Reorders a b → levels b = levels a := by intro a b h; cases h; rfl
  distinct {a b : α} : Reorders a b → Distinct a → Distinct b := by intro a b h; cases h; exact id

export Reorderable (Reorders)

section

variable {α : Type} [Nested α] {ms ms' : List α} {m m' : α}

theorem levels_perm (h : ms.Perm ms') : ms'.foldr (fun m l => max (levels m + 1) l) 0 =
    ms.foldr (fun m l => max (levels m + 1) l) 0 := by
  have hle {ms ms' : List α} (h : ms.Perm ms') : ms'.foldr (fun m l => max (levels m + 1) l) 0 ≤
      ms.foldr (fun m l => max (levels m + 1) l) 0 :=
    levels_le_iff.2 fun m hm => levels_le_iff.1 (Nat.le_refl _) m (h.mem_iff.2 hm)
  exact Nat.le_antisymm (hle h) (hle h.symm)

theorem levels_replace (before after : List α) (h : levels m' = levels m) :
    (before ++ m' :: after).foldr (fun m l => max (levels m + 1) l) 0 =
      (before ++ m :: after).foldr (fun m l => max (levels m + 1) l) 0 := by
  simp only [List.foldr_append, List.foldr_cons, h]

theorem distinct_replace {before after : List α} (h : Distinct m → Distinct m')
    (hms : ∀ a ∈ before ++ m :: after, Distinct a) : ∀ a ∈ before ++ m' :: after, Distinct a := by
  simp only [List.forall_mem_append, List.forall_mem_cons] at hms ⊢
  exact ⟨hms.1, h hms.2.1, hms.2.2⟩

end

theorem distinctKeys_perm {α : Type} {es es' : List (String × α)} (h : es.Perm es') (hes : DistinctKeys es) :
    DistinctKeys es' := (h.map Prod.fst).nodup_iff.1 hes

theorem levels_entry {v : Value} (key : String) (hset : v ≠ .unset) : levels (key, v) = levels v + 1 := by
  cases v with
  | unset => exact absurd rfl hset
  | _ => rfl

/-- Set values of the same depth: as entries they have the same depth too. -/
theorem levels_entry_congr {v v' : Value} (hset : v ≠ .unset) (hset' : v' ≠ .unset) (h : levels v' = levels v) :
    levels v' = levels v ∧ ∀ key : String, levels (key, v') = levels (key, v) := by
  refine ⟨h, fun key => ?_⟩
  rw [levels_entry key hset', levels_entry key hset, h]

/-- An entry has a level more than its value, unless that is unset: no value becomes so. -/
theorem levels_reorders {v v' : Value} (h : v.Reorders v') :
    levels v' = levels v ∧ ∀ key : String, levels (key, v') = levels (key, v) := by
  induction h with
  | refl => exact ⟨rfl, fun _ => rfl⟩
  | trans _ _ ih ih' => exact ⟨ih'.1.trans ih.1, fun key => (ih'.2 key).trans (ih.2 key)⟩
  | map hperm =>
    refine levels_entry_congr nofun nofun ?_
    rw [levels_map, levels_map]
    exact congrArg (· + 1) (levels_perm hperm)
  | entry before key after _ ih =>
    refine levels_entry_congr nofun nofun ?_
    rw [levels_map, levels_map]
    exact congrArg (· + 1) (levels_replace before after (ih.2 key))
  | item before after _ ih =>
    refine levels_entry_congr nofun nofun ?_
    rw [levels_array, levels_array]
    exact congrArg (· + 1) (levels_replace before after ih.1)

theorem distinct_reorders {v v' : Value} (h : v.Reorders v') : Distinct v → Distinct v' := by
  induction h with
  | refl => exact id
  | trans _ _ ih ih' => exact ih' ∘ ih
  | map hperm =>
    rw [distinct_map, distinct_map]
    exact fun hes => ⟨distinctKeys_perm hperm hes.1, fun e he => hes.2 e (hperm.mem_iff.2 he)⟩
  | entry before key after _ ih =>
    rw [distinct_map, distinct_map]
    refine fun hes => ⟨?_, distinct_replace (m := (key, _)) ih hes.2⟩
    have hkeys := hes.1
    rw [DistinctKeys, List.map_append, List.map_cons] at hkeys ⊢
    exact hkeys
  | item before after _ ih =>
    rw [distinct_array, distinct_array]
    exact distinct_replace ih

instance : Reorderable Value where
  Reorders := Value.Reorders
  refl := .refl
  levels_eq h := (levels_reorders h).1
  distinct := distinct_reorders

instance : Reorderable Document where
  Reorders d d' := ∃ fields, Reorders (Value.map d.fields) (.map fields) ∧ d' = { d with fields }
  refl d := ⟨d.fields, .refl _, rfl⟩
  levels_eq := by
    rintro d _ ⟨fields, h, rfl⟩
    have hlevels := Reorderable.levels_eq h
    rw [levels_map, levels_map, Nat.succ_inj] at hlevels
    exact congrArg (fun l => max (max l (levels d.createTime)) (levels d.updateTime)) hlevels
  distinct := by
    rintro d _ ⟨fields, h, rfl⟩ hd
    exact (distinct_map fields).1 (Reorderable.distinct h ((distinct_map d.fields).2 hd))

instance : Reorderable DocumentChange where
  Reorders c c' := c' = c ∨ ∃ d d', c.document = some d ∧ Reorders d d' ∧ c' = { c with document := some d' }
  refl _ := .inl rfl
  levels_eq := by
    rintro c _ (rfl | ⟨d, d', hd, h, rfl⟩)
    · rfl
    · change levels d' + 1 = levels c.document
      rw [hd, Reorderable.levels_eq h]
      rfl
  distinct := by
    rintro c _ (rfl | ⟨d, d', hd, h, rfl⟩) hc
    · exact hc
    · have hc : Distinct c.document := hc
      rw [hd] at hc
      exact Reorderable.distinct (α := Document) h hc

instance : Reorderable ListenResponse where
  Reorders r r' := r' = r ∨ ∃ c c', r = .documentChange c ∧ Reorders c c' ∧ r' = .documentChange c'
  refl _ := .inl rfl
  levels_eq := by
    rintro r _ (rfl | ⟨c, c', rfl, h, rfl⟩)
    · rfl
    · exact congrArg (· + 1) (Reorderable.levels_eq h)
  distinct := by
    rintro r _ (rfl | ⟨c, c', rfl, h, rfl⟩) hr
    · exact hr
    · exact Reorderable.distinct (α := DocumentChange) h hr

instance : Reorderable ListenRequest where
  Reorders r r' := ∃ labels, r.labels.Perm labels ∧ r' = { r with labels }
  refl r := ⟨r.labels, .refl _, rfl⟩
  levels_eq := by
    rintro r _ ⟨labels, h, rfl⟩
    exact congrArg (max (levels r.change)) (levels_perm (h.map _))
  distinct := by
    rintro r _ ⟨labels, h, rfl⟩ hr
    exact distinctKeys_perm h hr

instance : Reorderable Status where

end Wire

end LiveQuery
