namespace LiveQuery

/-- Gives a key its value, in the place of an earlier one. -/
def setEntry {α : Type} (key : String) (value : α) : List (String × α) → List (String × α)
  | [] => [(key, value)]
  | (k, v) :: es => if k = key then (key, value) :: es else (k, v) :: setEntry key value es

theorem lookup_setEntry {α : Type} (key : String) (value : α) (es : List (String × α)) :
    (setEntry key value es).lookup key = some value := by
  induction es with
  | nil => simp [setEntry]
  | cons e es ih =>
    obtain ⟨k, v⟩ := e
    simp only [setEntry]
    split
    · simp
    · next h => simpa [List.lookup_cons, beq_eq_false_iff_ne.2 (Ne.symm h)] using ih

theorem lookup_setEntry_of_ne {α : Type} {key other : String} (h : other ≠ key) (value : α)
    (es : List (String × α)) : (setEntry key value es).lookup other = es.lookup other := by
  induction es with
  | nil => simp [setEntry, List.lookup_cons, beq_eq_false_iff_ne.2 h]
  | cons e es ih =>
    obtain ⟨k, v⟩ := e
    simp only [setEntry]
    split
    · next hk => subst hk; simp [List.lookup_cons, beq_eq_false_iff_ne.2 h]
    · simp [List.lookup_cons, ih]

theorem setEntry_of_notMem {α : Type} {key : String} {es : List (String × α)} (h : key ∉ es.map Prod.fst)
    (value : α) : setEntry key value es = es ++ [(key, value)] := by
  induction es with
  | nil => rfl
  | cons e es ih =>
    rw [List.map_cons, List.mem_cons, not_or] at h
    rw [setEntry, if_neg (Ne.symm h.1), ih h.2, List.cons_append]

theorem mem_setEntry {α : Type} {key : String} {value : α} {es : List (String × α)} {e : String × α}
    (h : e ∈ setEntry key value es) : e = (key, value) ∨ e ∈ es := by
  induction es with
  | nil => exact .inl (List.mem_singleton.1 h)
  | cons first es ih =>
    rw [setEntry] at h
    split at h
    · exact (List.mem_cons.1 h).imp_right (List.mem_cons_of_mem _)
    · rcases List.mem_cons.1 h with rfl | hmem
      · exact .inr List.mem_cons_self
      · exact (ih hmem).imp_right (List.mem_cons_of_mem _)

end LiveQuery
