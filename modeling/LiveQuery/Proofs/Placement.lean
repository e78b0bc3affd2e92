import LiveQuery.DocumentSet
import LiveQuery.Proofs.DocumentOrder
import LiveQuery.Proofs.Search

namespace LiveQuery.DocumentSet
open Std DocumentOrder

variable {order : DocumentOrder} {sorted : List QueryDocument} {d : QueryDocument} {i : Nat}

/-- In an increasing sequence, what comes before a document that is not above another is below that one. -/
theorem pairwise_lt_of_ne_gt [order.Lawful]
    (hinc : sorted.Pairwise fun d e => order.compare d e = .lt) (d : QueryDocument) :
    sorted.Pairwise fun x y => order.compare y d ≠ .gt → order.compare x d = .lt :=
  hinc.imp fun hxy hyd => TransCmp.lt_of_lt_of_isLE hxy (Ordering.isLE_iff_ne_gt.2 hyd)

theorem position?_eq_some_iff [order.Lawful]
    (hinc : sorted.Pairwise fun d e => order.compare d e = .lt) (d : QueryDocument) (i : Nat) :
    position? order sorted d = some i ↔ ∃ e, sorted[i]? = some e ∧ order.compare e d = .eq := by
  rw [position?, Slot.index?_eq_some_iff, binarySearch_eq_iff (pairwise_lt_of_ne_gt hinc d)]
  rfl

theorem position?_eq_none_iff [order.Lawful]
    (hinc : sorted.Pairwise fun d e => order.compare d e = .lt) (d : QueryDocument) :
    position? order sorted d = none ↔ ∀ e ∈ sorted, order.compare e d ≠ .eq := by
  rw [Option.eq_none_iff_forall_ne_some]
  constructor
  · intro hnone e he heq
    obtain ⟨i, hi⟩ := List.mem_iff_getElem?.1 he
    exact hnone i ((position?_eq_some_iff hinc d i).2 ⟨e, hi, heq⟩)
  · intro hnone i hi
    obtain ⟨e, he, heq⟩ := (position?_eq_some_iff hinc d i).1 hi
    exact hnone e (List.mem_of_getElem? he) heq

/-- A document goes where a probe finds room that takes equal for below. -/
theorem exists_insertionPoint_eq (order : DocumentOrder) (sorted : List QueryDocument) (d : QueryDocument) :
    ∃ probe : QueryDocument → Ordering,
      insertionPoint order sorted d = (binarySearch probe sorted).index ∧
        (∀ e, probe e = .gt ↔ order.compare e d = .gt) ∧
        ∀ e, probe e = .lt ↔ order.compare e d ≠ .gt := by
  refine ⟨_, rfl, ?_, ?_⟩
  · intro e
    cases h : order.compare e d <;> simp
  · intro e
    cases h : order.compare e d <;> simp

/-- A document goes after all that are not above it and before all that are. -/
theorem insertionPoint_eq_iff [order.Lawful]
    (hinc : sorted.Pairwise fun d e => order.compare d e = .lt) (d : QueryDocument) (i : Nat) :
    insertionPoint order sorted d = i ↔ i ≤ sorted.length ∧
      (∀ e ∈ sorted.take i, order.compare e d ≠ .gt) ∧ ∀ e ∈ sorted.drop i, order.compare e d = .gt := by
  obtain ⟨probe, heq, hgt, hlt⟩ := exists_insertionPoint_eq order sorted d
  have hmono : sorted.Pairwise fun x y => probe y ≠ .gt → probe x = .lt := by
    refine (pairwise_lt_of_ne_gt hinc d).imp ?_
    intro x y hxy hy
    rw [ne_eq, hgt] at hy
    rw [hlt, hxy hy]
    decide
  have hfits : (Slot.vacant i).Fits probe sorted ↔ i ≤ sorted.length ∧
      (∀ e ∈ sorted.take i, order.compare e d ≠ .gt) ∧ ∀ e ∈ sorted.drop i, order.compare e d = .gt := by
    simp only [Slot.Fits, hlt, hgt]
  rw [heq, ← hfits, ← binarySearch_eq_iff hmono]
  cases hs : binarySearch probe sorted with
  | found j =>
    -- the probe calls nothing equal
    obtain ⟨e, -, he⟩ := (binarySearch_eq_iff hmono).1 hs
    have hne : order.compare e d ≠ .gt := by rw [ne_eq, ← hgt, he]; decide
    exact absurd ((hlt e).2 hne) (by rw [he]; decide)
  | vacant j => rw [Slot.index, Slot.vacant.injEq]

theorem insertionPoint_spec [order.Lawful]
    (hinc : sorted.Pairwise fun d e => order.compare d e = .lt) (d : QueryDocument) :
    insertionPoint order sorted d ≤ sorted.length ∧
      (∀ e ∈ sorted.take (insertionPoint order sorted d), order.compare e d ≠ .gt) ∧
      ∀ e ∈ sorted.drop (insertionPoint order sorted d), order.compare e d = .gt :=
  (insertionPoint_eq_iff hinc d _).1 rfl

/-- A document that no other compares equal to goes between those below and those above it. -/
theorem insertionPoint_eq_iff_of_ne_eq [order.Lawful]
    (hinc : sorted.Pairwise fun d e => order.compare d e = .lt)
    (hnew : ∀ e ∈ sorted, order.compare e d ≠ .eq) (i : Nat) :
    insertionPoint order sorted d = i ↔ i ≤ sorted.length ∧
      (∀ e ∈ sorted.take i, order.compare e d = .lt) ∧ ∀ e ∈ sorted.drop i, order.compare e d = .gt := by
  have hbefore : (∀ e ∈ sorted.take i, order.compare e d ≠ .gt) ↔
      ∀ e ∈ sorted.take i, order.compare e d = .lt := by
    refine forall₂_congr fun e he => ?_
    have hne := hnew e (List.mem_of_mem_take he)
    cases h : order.compare e d with
    | lt => decide
    | eq => exact absurd h hne
    | gt => decide
  rw [insertionPoint_eq_iff hinc, hbefore]

/-- After a document that compares equal. -/
theorem insertionPoint_of_compare_eq [order.Lawful]
    (hinc : sorted.Pairwise fun d e => order.compare d e = .lt) {e : QueryDocument}
    (he : sorted[i]? = some e) (heq : order.compare e d = .eq) :
    insertionPoint order sorted d = i + 1 := by
  obtain ⟨hi, rfl⟩ := List.getElem?_eq_some_iff.1 he
  have hpair := List.pairwise_iff_getElem.1 hinc
  refine (insertionPoint_eq_iff hinc d _).2 ⟨hi, ?_, ?_⟩
  · intro f hf
    obtain ⟨j, hj, rfl⟩ := List.mem_take_iff_getElem.1 hf
    by_cases hji : j = i
    · subst hji
      rw [heq]
      decide
    · have hlt := hpair j i (by omega) hi (by omega)
      rw [TransCmp.lt_of_lt_of_eq hlt heq]
      decide
  · intro f hf
    obtain ⟨j, hj, rfl⟩ := List.mem_drop_iff_getElem.1 hf
    have hlt := hpair i (i + 1 + j) hi (by omega) (by omega)
    exact TransCmp.gt_of_gt_of_eq (OrientedCmp.gt_of_lt hlt) heq

theorem insertIdx_eq_take_cons_drop {α : Type} (x : α) (xs : List α) (i : Nat) (h : i ≤ xs.length) :
    xs.insertIdx i x = xs.take i ++ x :: xs.drop i := by
  induction xs generalizing i with
  | nil =>
    have hi : i = 0 := by simpa using h
    subst hi
    rfl
  | cons y ys ih =>
    cases i with
    | zero => rfl
    | succ i =>
      have hi : i ≤ ys.length := by simpa using h
      simp [ih i hi]

theorem increasing_insertIdx [order.Lawful]
    (hinc : sorted.Pairwise fun d e => order.compare d e = .lt)
    (hnew : ∀ e ∈ sorted, order.compare e d ≠ .eq) :
    (sorted.insertIdx (insertionPoint order sorted d) d).Pairwise
      fun d e => order.compare d e = .lt := by
  obtain ⟨hle, hbefore, hafter⟩ := (insertionPoint_eq_iff_of_ne_eq hinc hnew _).1 rfl
  generalize insertionPoint order sorted d = i at hle hbefore hafter ⊢
  rw [insertIdx_eq_take_cons_drop d sorted i hle]
  rw [← List.take_append_drop i sorted, List.pairwise_append] at hinc
  obtain ⟨hpre, hpost, hacross⟩ := hinc
  have habove (e : QueryDocument) (he : e ∈ sorted.drop i) : order.compare d e = .lt :=
    OrientedCmp.lt_of_gt (hafter e he)
  refine List.pairwise_append.2 ⟨hpre, List.pairwise_cons.2 ⟨habove, hpost⟩, ?_⟩
  intro e he f hf
  cases List.mem_cons.1 hf with
  | inl heq => exact heq ▸ hbefore e he
  | inr hf => exact hacross e he f hf

/-- In an increasing sequence a document is found exactly where one compares equal to it. If none does, the
insertion point is the one place with all before it below the document and all after it above, so that it can
go there; if one does, the place just after that. -/
theorem placement_exact (order : DocumentOrder) [order.Lawful] (sorted : List QueryDocument)
    (hinc : sorted.Pairwise fun d e => order.compare d e = .lt) (d : QueryDocument) :
    (∀ i, position? order sorted d = some i ↔ ∃ e, sorted[i]? = some e ∧ order.compare e d = .eq) ∧
      (position? order sorted d = none ↔ ∀ e ∈ sorted, order.compare e d ≠ .eq) ∧
      ((∀ e ∈ sorted, order.compare e d ≠ .eq) →
        (∀ i, insertionPoint order sorted d = i ↔ i ≤ sorted.length ∧
          (∀ e ∈ sorted.take i, order.compare e d = .lt) ∧
            ∀ e ∈ sorted.drop i, order.compare e d = .gt) ∧
        (sorted.insertIdx (insertionPoint order sorted d) d).Pairwise
          fun d e => order.compare d e = .lt) ∧
      ∀ i e, sorted[i]? = some e → order.compare e d = .eq → insertionPoint order sorted d = i + 1 := by
  refine ⟨position?_eq_some_iff hinc d, position?_eq_none_iff hinc d, ?_, ?_⟩
  · intro hnew
    exact ⟨insertionPoint_eq_iff_of_ne_eq hinc hnew, increasing_insertIdx hinc hnew⟩
  · intro i e he heq
    exact insertionPoint_of_compare_eq hinc he heq

/-- The order in which the latest version comes first. -/
def newestFirst : DocumentOrder := .ofKeys [⟨.updateTime, true⟩]

instance : newestFirst.Lawful := DocumentOrder.lawful_ofKeys _

/-- A version of a document without fields. -/
def versionAt (name : String) (seconds : Int64) : QueryDocument :=
  ⟨⟨name, [], none, some ⟨seconds, 0⟩⟩, none⟩

/-- A document that is tied in time goes by its path, and one that is sent again is found. -/
theorem placement_exact_tied :
    let sorted := [versionAt "c/d" 3, versionAt "c/a" 2, versionAt "c/c" 2]
    insertionPoint newestFirst sorted (versionAt "c/b" 2) = 2 ∧
      position? newestFirst sorted (versionAt "/c/a" 2) = some 1 ∧
      insertionPoint newestFirst sorted (versionAt "/c/a" 2) = 2 := by
  intro sorted
  have hinc : sorted.Pairwise fun d e => newestFirst.compare d e = .lt := by decide +kernel
  have hequal : newestFirst.compare (versionAt "c/a" 2) (versionAt "/c/a" 2) = .eq := by decide +kernel
  obtain ⟨-, -, hnew, -⟩ := placement_exact newestFirst sorted hinc (versionAt "c/b" 2)
  obtain ⟨hfound, -, -, hafter⟩ := placement_exact newestFirst sorted hinc (versionAt "/c/a" 2)
  refine ⟨?_, (hfound 1).2 ⟨_, rfl, hequal⟩, hafter 1 _ rfl hequal⟩
  exact ((hnew (by decide +kernel)).1 2).2 (by decide +kernel)

end LiveQuery.DocumentSet
