import LiveQuery.DocumentSet.Search
import Mathlib.Tactic.ByContra

namespace LiveQuery

/-- The bisection ends at the last element of the window that the probe does not put above the target,
or at its first element. -/
theorem bisect_spec (probe : Nat → Ordering) (base size : Nat) (hsize : 0 < size)
    (hdown : ∀ i j, base ≤ i → i < j → j < base + size → probe j ≠ .gt → probe i ≠ .gt) :
    base ≤ bisect probe base size ∧ bisect probe base size < base + size ∧
      (∀ i, bisect probe base size < i → i < base + size → probe i = .gt) ∧
      (bisect probe base size = base ∨ probe (bisect probe base size) ≠ .gt) := by
  fun_induction bisect probe base size with
  | case1 base size hle =>
    refine ⟨Nat.le_refl _, by omega, ?_, Or.inl rfl⟩
    intro i hi hlt
    omega
  | case2 base size hgt ih =>
    by_cases hmid : probe (base + size / 2) = .gt
    · simp only [hmid, ↓reduceDIte, ↓reduceIte] at ih ⊢
      obtain ⟨hlo, hhi, habove, hat⟩ := ih (by omega) (by
        intro i j hi hij hj
        exact hdown i j hi hij (by omega))
      refine ⟨hlo, by omega, ?_, hat⟩
      intro i hi hlt
      -- beyond the smaller window everything is above the target, as the middle is
      by_cases hin : i < base + (size - size / 2)
      · exact habove i hi hin
      · by_cases heq : i = base + size / 2
        · exact heq ▸ hmid
        · by_contra hne
          exact hdown (base + size / 2) i (by omega) (by omega) hlt hne hmid
    · simp only [hmid, ↓reduceDIte, ↓reduceIte] at ih ⊢
      obtain ⟨hlo, hhi, habove, hat⟩ := ih (by omega) (by
        intro i j hi hij hj
        exact hdown i j (by omega) hij (by omega))
      refine ⟨by omega, by omega, ?_, ?_⟩
      · intro i hi hlt
        exact habove i hi (by omega)
      · cases hat with
        | inl heq => exact Or.inr (by rw [heq]; exact hmid)
        | inr hne => exact Or.inr hne

/-- Where each slot of an increasing sequence lies: what comes before is below the target, what comes
after is above it. -/
def Slot.Fits {α : Type} (probe : α → Ordering) (xs : List α) : Slot → Prop
  | .found i => ∃ x, xs[i]? = some x ∧ probe x = .eq
  | .vacant i => i ≤ xs.length ∧ (∀ x ∈ xs.take i, probe x = .lt) ∧ ∀ x ∈ xs.drop i, probe x = .gt

namespace Slot

variable {α : Type} {probe : α → Ordering} {xs : List α} {s t : Slot}

theorem index?_eq_some_iff {i : Nat} : s.index? = some i ↔ s = .found i := by
  cases s <;> simp [index?]

/-- Where there is room, the target is nowhere. -/
theorem Fits.probe_ne_eq {i : Nat} (h : (vacant i).Fits probe xs) : ∀ x ∈ xs, probe x ≠ .eq := by
  obtain ⟨-, hbelow, habove⟩ := h
  intro x hx heq
  rw [← List.take_append_drop i xs, List.mem_append] at hx
  cases hx with
  | inl hx => exact absurd (heq.symm.trans (hbelow x hx)) (by decide)
  | inr hx => exact absurd (heq.symm.trans (habove x hx)) (by decide)

theorem Fits.vacant_le {i j : Nat} (hi : (vacant i).Fits probe xs) (hj : (vacant j).Fits probe xs) :
    i ≤ j := by
  by_contra hlt
  have hlen : j < xs.length := by have := hi.1; omega
  have hbelow := hi.2.1 xs[j] (List.mem_take_iff_getElem.2 ⟨j, by omega, rfl⟩)
  have habove := hj.2.2 xs[j] (List.mem_drop_iff_getElem.2 ⟨0, by omega, rfl⟩)
  exact absurd (hbelow.symm.trans habove) (by decide)

theorem Fits.found_le (hmono : xs.Pairwise fun x y => probe y ≠ .gt → probe x = .lt) {i j : Nat}
    (hi : (found i).Fits probe xs) (hj : (found j).Fits probe xs) : i ≤ j := by
  obtain ⟨x, hx, hxeq⟩ := hi
  obtain ⟨y, hy, hyeq⟩ := hj
  obtain ⟨hilt, rfl⟩ := List.getElem?_eq_some_iff.1 hx
  obtain ⟨hjlt, rfl⟩ := List.getElem?_eq_some_iff.1 hy
  by_contra hlt
  have hbelow := List.pairwise_iff_getElem.1 hmono j i hjlt hilt (by omega) (by rw [hxeq]; decide)
  exact absurd (hyeq.symm.trans hbelow) (by decide)

/-- A sequence in which the probe never points up at a later element than one at which it does not has one
slot for the target. -/
theorem Fits.unique (hmono : xs.Pairwise fun x y => probe y ≠ .gt → probe x = .lt)
    (hs : s.Fits probe xs) (ht : t.Fits probe xs) : s = t := by
  have hapart {i j : Nat} (hi : (found i).Fits probe xs) (hj : (vacant j).Fits probe xs) : False := by
    obtain ⟨x, hx, heq⟩ := hi
    exact hj.probe_ne_eq x (List.mem_of_getElem? hx) heq
  cases s with
  | found i =>
    cases t with
    | found j => exact congrArg found (Nat.le_antisymm (hs.found_le hmono ht) (ht.found_le hmono hs))
    | vacant j => exact (hapart hs ht).elim
  | vacant i =>
    cases t with
    | found j => exact (hapart ht hs).elim
    | vacant j => exact congrArg vacant (Nat.le_antisymm (hs.vacant_le ht) (ht.vacant_le hs))

end Slot

/-- Binary search finds where the target is, or where it would go, if the probe never points up at a
later element than one at which it does not. -/
theorem binarySearch_fits {α : Type} {probe : α → Ordering} {xs : List α}
    (hmono : xs.Pairwise fun x y => probe y ≠ .gt → probe x = .lt) :
    (binarySearch probe xs).Fits probe xs := by
  have hpair := List.pairwise_iff_getElem.1 hmono
  by_cases hempty : xs.length = 0
  · have hnil : xs = [] := List.length_eq_zero_iff.1 hempty
    subst hnil
    have hzero (at? : Nat → Ordering) : bisect at? 0 0 = 0 := by rw [bisect]; rfl
    simp [binarySearch, hzero, Slot.Fits]
  · have hat (i : Nat) (hi : i < xs.length) : (xs[i]?.map probe).getD .gt = probe xs[i] := by
      simp [hi]
    have hspec := bisect_spec (fun i => (xs[i]?.map probe).getD .gt) 0 xs.length (by omega) (by
      intro i j _ hij hj hne
      rw [hat j (by omega)] at hne
      rw [hat i (by omega), hpair i j (by omega) (by omega) hij hne]
      decide)
    simp only [binarySearch]
    generalize bisect (fun i => (xs[i]?.map probe).getD .gt) 0 xs.length = r at hspec ⊢
    obtain ⟨-, hlt, habove, hend⟩ := hspec
    have hr : r < xs.length := by omega
    have hlater : ∀ x ∈ xs.drop (r + 1), probe x = .gt := by
      intro x hx
      obtain ⟨j, hj, rfl⟩ := List.mem_drop_iff_getElem.1 hx
      rw [← hat _ (by omega)]
      exact habove _ (by omega) (by omega)
    rw [List.getElem?_eq_getElem hr, Option.map_some]
    cases hp : probe xs[r] with
    | eq => exact ⟨xs[r], List.getElem?_eq_getElem hr, hp⟩
    | gt =>
      -- an element above the target ends the bisection only at the front
      have hzero : r = 0 := by
        cases hend with
        | inl h => exact h
        | inr h => exact absurd hp (hat r hr ▸ h)
      subst hzero
      refine ⟨by omega, by simp, ?_⟩
      rw [← List.getElem_cons_drop hr]
      intro x hx
      cases List.mem_cons.1 hx with
      | inl h => exact h ▸ hp
      | inr h => exact hlater x h
    | lt =>
      refine ⟨by omega, ?_, hlater⟩
      intro x hx
      obtain ⟨j, hj, rfl⟩ := List.mem_take_iff_getElem.1 hx
      by_cases hjr : j = r
      · subst hjr; exact hp
      · exact hpair j r (by omega) hr (by omega) (by rw [hp]; decide)

/-- The slot that binary search finds is the one that fits. -/
theorem binarySearch_eq_iff {α : Type} {probe : α → Ordering} {xs : List α} {s : Slot}
    (hmono : xs.Pairwise fun x y => probe y ≠ .gt → probe x = .lt) :
    binarySearch probe xs = s ↔ s.Fits probe xs := by
  constructor
  · intro h
    exact h ▸ binarySearch_fits hmono
  · intro h
    exact (binarySearch_fits hmono).unique hmono h

end LiveQuery
