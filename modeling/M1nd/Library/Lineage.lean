import Mathlib.Data.List.Nodup
import Mathlib.Data.List.Perm.Subperm
import Mathlib.Data.List.Range

namespace M1nd.Library.Lineage

-- The nodes from one up to its first ancestor that has no other parent, as far as the steps go.
def climb (parent : List (Option Nat)) : Nat → Nat → List Nat
  | 0, _ => []
  | steps + 1, cur =>
      match parent.getD cur none with
      | none => [cur]
      | some next => if next = cur then [cur] else cur :: climb parent steps next

-- The parents of some nodes lead down the ranks to a root.
structure Descends (parent : List (Option Nat)) (rank : Nat → Option Nat)
    (edge : Nat → Nat → Prop) (root inside : Nat → Prop) : Prop where
  zero : ∀ i, inside i → rank i = some 0 → parent.getD i none = some i ∧ root i
  succ : ∀ i g, inside i → rank i = some (g + 1) →
    ∃ p, parent.getD i none = some p ∧ inside p ∧ rank p = some g ∧ edge p i

-- A way from a root to a node, with a node for each rank.
structure Line (rank : Nat → Option Nat) (edge : Nat → Nat → Prop) (root inside : Nat → Prop)
    (i g : Nat) (line : List Nat) : Prop where
  length : line.length = g + 1
  nodup : line.Nodup
  head : ∃ first, line.head? = some first ∧ root first ∧ inside first
  last : line.getLast? = some i
  chain : line.IsChain edge
  ranked : ∀ v ∈ line, ∃ k ≤ g, rank v = some k

variable {parent : List (Option Nat)} {rank : Nat → Option Nat} {edge : Nat → Nat → Prop}
  {root inside : Nat → Prop} {i g n : Nat} {line : List Nat}

theorem Line.concat {p : Nat} (h : Line rank edge root inside p g line)
    (hrank : rank i = some (g + 1)) (hedge : edge p i) :
    Line rank edge root inside i (g + 1) (line ++ [i]) where
  length := by rw [List.length_append, h.length, List.length_singleton]
  nodup := by
    refine List.nodup_append.mpr ⟨h.nodup, List.nodup_singleton i, fun v hv w hw hsame => ?_⟩
    obtain rfl := List.mem_singleton.mp hw
    subst hsame
    obtain ⟨k, hk, hranked⟩ := h.ranked v hv
    have := Option.some.inj (hrank.symm.trans hranked)
    omega
  head := by
    obtain ⟨first, hfirst, hroot⟩ := h.head
    exact ⟨first, by rw [List.head?_append, hfirst]; rfl, hroot⟩
  last := List.getLast?_concat
  chain := by
    refine List.isChain_append.mpr ⟨h.chain, List.isChain_singleton i, fun u hu v hv => ?_⟩
    obtain rfl := Option.some.inj (h.last.symm.trans hu)
    obtain rfl := Option.some.inj hv
    exact hedge
  ranked v hv := by
    obtain hv | hv := List.mem_append.mp hv
    · obtain ⟨k, hk, hranked⟩ := h.ranked v hv
      exact ⟨k, by omega, hranked⟩
    · obtain rfl := List.mem_singleton.mp hv
      exact ⟨g + 1, le_rfl, hrank⟩

-- With more steps than ranks the climb comes to a root.
theorem Descends.exists_line (h : Descends parent rank edge root inside) (hinside : inside i)
    (hrank : rank i = some g) : ∃ line, Line rank edge root inside i g line ∧
      ∀ steps, g < steps → climb parent steps i = line.reverse := by
  induction g generalizing i with
  | zero =>
      obtain ⟨hparent, hroot⟩ := h.zero i hinside hrank
      refine ⟨[i], ⟨rfl, List.nodup_singleton i, ⟨i, rfl, hroot, hinside⟩, rfl,
        List.isChain_singleton i, fun v hv => ?_⟩, fun steps hsteps => ?_⟩
      · obtain rfl := List.mem_singleton.mp hv
        exact ⟨0, le_rfl, hrank⟩
      · obtain ⟨steps, rfl⟩ := Nat.exists_eq_add_of_lt hsteps
        rw [Nat.zero_add, climb, hparent]
        simp only [if_pos, List.reverse_singleton]
  | succ g ih =>
      obtain ⟨p, hparent, hinside, hranked, hedge⟩ := h.succ i g hinside hrank
      obtain ⟨line, hline, hclimb⟩ := ih hinside hranked
      have hne : p ≠ i := by
        rintro rfl
        have := Option.some.inj (hranked.symm.trans hrank)
        omega
      refine ⟨line ++ [i], hline.concat hrank hedge, fun steps hsteps => ?_⟩
      obtain ⟨steps, rfl⟩ := Nat.exists_eq_add_of_lt hsteps
      rw [climb, hparent]
      simp only [if_neg hne]
      rw [hclimb _ (by omega), List.reverse_append, List.reverse_singleton, List.singleton_append]

theorem Line.lt (h : Line rank edge root inside i g line) (hlt : ∀ v k, rank v = some k → v < n) :
    g < n := by
  have hsub : line ⊆ List.range n := by
    intro v hv
    obtain ⟨k, -, hranked⟩ := h.ranked v hv
    exact List.mem_range.mpr (hlt v k hranked)
  have hle := (List.subperm_of_subset h.nodup hsub).length_le
  rw [h.length, List.length_range] at hle
  omega

-- As many steps as nodes are enough.
theorem Descends.exists_climb (h : Descends parent rank edge root inside)
    (hlt : ∀ v k, rank v = some k → v < n) (hinside : inside i) (hrank : rank i = some g) :
    ∃ line, Line rank edge root inside i g line ∧ climb parent n i = line.reverse := by
  obtain ⟨line, hline, hclimb⟩ := h.exists_line hinside hrank
  exact ⟨line, hline, hclimb n (hline.lt hlt)⟩

end M1nd.Library.Lineage
