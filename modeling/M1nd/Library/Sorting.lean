import Mathlib.Data.Finset.Dedup
import Mathlib.Data.List.Destutter
import Mathlib.Data.List.Sort

namespace M1nd.Library.Sorting

section Keys

variable {α β : Type} [LinearOrder β] {key : α → β} {items items' : List α}

theorem pairwise_mergeSort (key : α → β) (items : List α) :
    (items.mergeSort fun a b => decide (key a ≤ key b)).Pairwise fun a b => key a ≤ key b := by
  have htrans : ∀ a b c : α, decide (key a ≤ key b) = true → decide (key b ≤ key c) = true →
      decide (key a ≤ key c) = true := by
    intro a b c hab hbc
    simp only [decide_eq_true_eq] at hab hbc ⊢
    exact hab.trans hbc
  have htotal : ∀ a b : α, (decide (key a ≤ key b) || decide (key b ≤ key a)) = true := by
    intro a b
    simp only [Bool.or_eq_true, decide_eq_true_eq]
    exact le_total _ _
  exact (List.pairwise_mergeSort htrans htotal items).imp fun h => of_decide_eq_true h

-- A sort by a key that tells the items apart forgets their order and nothing else.
theorem mergeSort_eq_iff (hkey : ∀ a ∈ items, ∀ b ∈ items, key a = key b → a = b) :
    items.mergeSort (fun a b => decide (key a ≤ key b)) =
        items'.mergeSort (fun a b => decide (key a ≤ key b)) ↔ items.Perm items' := by
  have hperm := List.mergeSort_perm items fun a b => decide (key a ≤ key b)
  have hperm' := List.mergeSort_perm items' fun a b => decide (key a ≤ key b)
  constructor
  · intro h
    exact hperm.symm.trans (h ▸ hperm')
  · intro h
    refine List.Perm.eq_of_pairwise (fun a b ha hb hab hba => ?_) (pairwise_mergeSort key items)
      (pairwise_mergeSort key items') (hperm.trans (h.trans hperm'.symm))
    exact hkey a (hperm.mem_iff.mp ha) b (h.mem_iff.mpr (hperm'.mem_iff.mp hb)) (le_antisymm hab hba)

end Keys

section Distinct

variable {α : Type} [LinearOrder α] {items items' : List α} {a b : α}

theorem mem_destutter' : a ∈ items.destutter' (· ≠ ·) b ↔ a = b ∨ a ∈ items := by
  induction items generalizing b with
  | nil => simp
  | cons c items ih =>
      rw [List.destutter'_cons]
      by_cases hc : b ≠ c
      · rw [if_pos hc, List.mem_cons, ih, List.mem_cons]
      · obtain rfl := not_not.mp hc
        rw [if_neg hc, ih, List.mem_cons, or_self_left]

theorem mem_destutter : a ∈ items.destutter (· ≠ ·) ↔ a ∈ items := by
  cases items with
  | nil => rfl
  | cons b items => rw [List.destutter_cons', mem_destutter', List.mem_cons]

-- The items in their order, each one once.
def sortDedup (items : List α) : List α :=
  (items.mergeSort (· ≤ ·)).destutter (· ≠ ·)

theorem mem_sortDedup : a ∈ sortDedup items ↔ a ∈ items := by
  rw [sortDedup, mem_destutter, List.mem_mergeSort]

theorem pairwise_sortDedup (items : List α) : (sortDedup items).Pairwise (· < ·) := by
  have hsorted := (pairwise_mergeSort id items).sublist (List.destutter_sublist (· ≠ ·) _)
  have hchain := List.isChain_destutter (· ≠ ·) (items.mergeSort (· ≤ ·))
  rw [← List.isChain_iff_pairwise, List.isChain_iff_getElem]
  intro i hi
  have hle := List.isChain_iff_getElem.mp hsorted.isChain i hi
  exact lt_of_le_of_ne hle (List.isChain_iff_getElem.mp hchain i hi)

-- Two lists with the same items give the same.
theorem sortDedup_eq_iff : sortDedup items = sortDedup items' ↔ items.toFinset = items'.toFinset := by
  constructor
  · intro h
    ext a
    rw [List.mem_toFinset, List.mem_toFinset, ← mem_sortDedup, h, mem_sortDedup]
  · intro h
    refine (pairwise_sortDedup items).eq_of_mem_iff (pairwise_sortDedup items') fun a => ?_
    rw [mem_sortDedup, mem_sortDedup, ← List.mem_toFinset, h, List.mem_toFinset]

end Distinct

end M1nd.Library.Sorting
