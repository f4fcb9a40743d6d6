import Mathlib.Data.List.Sort
import Mathlib.Order.Basic

namespace M1nd.Library.Ranks

variable {α : Type} [LinearOrder α]

-- The item of a rank in the order of the values. Ranks count from one.
structure Ranked (items : List α) (rank : Nat) (item : α) : Prop where
  mem : item ∈ items
  below : items.countP (· < item) < rank
  upTo : rank ≤ items.countP (· ≤ item)

variable {items others : List α} {item other : α} {rank above i : Nat}

theorem Ranked.perm (h : Ranked items rank item) (hperm : items.Perm others) :
    Ranked others rank item where
  mem := hperm.mem_iff.mp h.mem
  below := hperm.countP_eq _ ▸ h.below
  upTo := hperm.countP_eq _ ▸ h.upTo

-- An item of a higher rank is no smaller.
theorem Ranked.le (h : Ranked items rank item) (h' : Ranked items above other)
    (hle : rank ≤ above) : item ≤ other := by
  by_contra hlt
  have hsub : items.countP (· ≤ other) ≤ items.countP (· < item) := by
    refine List.countP_mono_left fun x _ hx => ?_
    rw [decide_eq_true_eq] at hx ⊢
    exact hx.trans_lt (not_le.mp hlt)
  have hbelow := h.below
  have hupTo := h'.upTo
  omega

theorem Ranked.unique (h : Ranked items rank item) (h' : Ranked items rank other) : item = other :=
  le_antisymm (h.le h' le_rfl) (h'.le h le_rfl)

theorem getElem_le_getElem {j : Nat} (hsorted : items.Pairwise (· ≤ ·)) (hle : i ≤ j)
    (hj : j < items.length) : items[i] ≤ items[j] := by
  obtain hlt | rfl := Nat.lt_or_eq_of_le hle
  · exact List.pairwise_iff_getElem.mp hsorted i j (hlt.trans hj) hj hlt
  · exact le_rfl

-- A sorted list has its items in the order of their ranks.
theorem ranked_getElem (hsorted : items.Pairwise (· ≤ ·)) (hi : i < items.length) :
    Ranked items (i + 1) items[i] where
  mem := List.getElem_mem hi
  below := by
    have hrest : (items.drop i).countP (· < items[i]) = 0 := by
      refine List.countP_eq_zero.mpr fun x hx => ?_
      rw [decide_eq_true_eq, not_lt]
      obtain ⟨j, hj, rfl⟩ := List.getElem_of_mem hx
      rw [List.length_drop] at hj
      rw [List.getElem_drop]
      exact getElem_le_getElem hsorted (Nat.le_add_right i j) (by omega)
    have hfirst : (items.take i).countP (· < items[i]) ≤ (items.take i).length :=
      List.countP_le_length
    rw [List.length_take] at hfirst
    have hsplit : items.countP (· < items[i]) =
        (items.take i).countP (· < items[i]) + (items.drop i).countP (· < items[i]) := by
      rw [← List.countP_append, List.take_append_drop]
    omega
  upTo := by
    have hfirst : (items.take (i + 1)).countP (· ≤ items[i]) = (items.take (i + 1)).length := by
      refine List.countP_eq_length.mpr fun x hx => ?_
      rw [decide_eq_true_eq]
      obtain ⟨j, hj, rfl⟩ := List.getElem_of_mem hx
      rw [List.length_take] at hj
      rw [List.getElem_take]
      exact getElem_le_getElem hsorted (by omega) hi
    have hsub : (items.take (i + 1)).countP (· ≤ items[i]) ≤ items.countP (· ≤ items[i]) :=
      (List.take_sublist (i + 1) items).countP_le
    rw [hfirst, List.length_take] at hsub
    omega

end M1nd.Library.Ranks
