namespace LiveQuery.Text

/-- The parts of a text between separators, empty ones included. A text without separator is one part. -/
def splitAt (sep : Char) : List Char → List (List Char)
  | [] => [[]]
  | c :: cs =>
    if c = sep then [] :: splitAt sep cs
    else
      match splitAt sep cs with
      | [] => [[c]]
      | part :: parts => (c :: part) :: parts

/-- The non-empty parts of a text between separators. -/
def pieces (sep : Char) (cs : List Char) : List (List Char) :=
  (splitAt sep cs).filter (!·.isEmpty)

def joinWith (sep : Char) : List (List Char) → List Char
  | [] => []
  | [part] => part
  | part :: parts => part ++ sep :: joinWith sep parts

theorem sep_not_mem_of_mem_splitAt {sep : Char} {cs part : List Char}
    (h : part ∈ splitAt sep cs) : sep ∉ part := by
  induction cs generalizing part with
  | nil => simp_all [splitAt]
  | cons c cs ih =>
    simp only [splitAt] at h
    split at h
    · rcases List.mem_cons.1 h with rfl | h
      · simp
      · exact ih h
    · next hc =>
      split at h
      · obtain rfl : part = [c] := by simpa using h
        simpa using Ne.symm hc
      · next p ps hp =>
        rcases List.mem_cons.1 h with rfl | h
        · have : sep ∉ p := ih (by simp [hp])
          simp [this, Ne.symm hc]
        · exact ih (by simp [hp, h])

theorem sep_not_mem_of_mem_pieces {sep : Char} {cs part : List Char}
    (h : part ∈ pieces sep cs) : sep ∉ part :=
  sep_not_mem_of_mem_splitAt (List.mem_filter.1 h).1

theorem ne_nil_of_mem_pieces {sep : Char} {cs part : List Char}
    (h : part ∈ pieces sep cs) : part ≠ [] := by
  simpa using (List.mem_filter.1 h).2

theorem splitAt_eq_splitOn (sep : Char) (cs : List Char) : splitAt sep cs = cs.splitOn sep := by
  induction cs with
  | nil => rw [splitAt, List.splitOn_nil]
  | cons c cs ih =>
    rw [splitAt, ih, List.splitOn_cons_eq_if_modifyHead]
    by_cases hc : c = sep
    · rw [if_pos hc, if_pos (beq_iff_eq.2 hc)]
    · rw [if_neg hc, if_neg (mt beq_iff_eq.1 hc)]
      split
      · next hnil => exact absurd hnil (List.splitOn_ne_nil _ _)
      · next hcons => rw [hcons, List.modifyHead_cons]

theorem joinWith_eq_intercalate (sep : Char) (parts : List (List Char)) :
    joinWith sep parts = [sep].intercalate parts := by
  fun_induction joinWith sep parts with
  | case1 => rw [List.intercalate_nil]
  | case2 part => rw [List.intercalate_singleton]
  | case3 part parts hne ih => rw [ih, List.intercalate_cons_of_ne_nil hne, List.append_cons]

theorem splitAt_of_not_mem {sep : Char} {cs : List Char} (h : sep ∉ cs) : splitAt sep cs = [cs] := by
  rw [splitAt_eq_splitOn, List.splitOn_eq_singleton h]

theorem splitAt_joinWith {sep : Char} {parts : List (List Char)} (hne : parts ≠ [])
    (h : ∀ part ∈ parts, sep ∉ part) : splitAt sep (joinWith sep parts) = parts := by
  rw [splitAt_eq_splitOn, joinWith_eq_intercalate, List.splitOn_intercalate sep h hne]

/-- Non-empty parts that are joined come apart again. -/
theorem pieces_joinWith {sep : Char} {parts : List (List Char)}
    (h : ∀ part ∈ parts, part ≠ [] ∧ sep ∉ part) : pieces sep (joinWith sep parts) = parts := by
  cases parts with
  | nil => rfl
  | cons part parts =>
    rw [pieces, splitAt_joinWith (List.cons_ne_nil _ _) fun part hpart => (h part hpart).2,
      List.filter_eq_self]
    intro part hpart
    simpa using (h part hpart).1

end LiveQuery.Text
