import M1nd.Core.Community
import M1nd.Core.SpectralGap.Analysis
import Mathlib.Tactic.Linarith

namespace M1nd.Core

open M1nd.Library.Loops
open M1nd.Library.Modularity
open M1nd.Library.WeightMap

variable {T : Type} {graph : Graph Rat T} {adj next : List (List (Nat × Rat))} {n : Nat}

-- The weight between two nodes.
def link (adj : List (List (Nat × Rat))) (i j : Nat) : Rat :=
  weightOf (adj.getD i []) j

section Enter

theorem exists_enter {node : Nat} (hnode : node < adj.length) (neighbor : Nat) (w : Rat) :
    ∃ next, enter adj node neighbor w = some next ∧ next.length = adj.length ∧
      ∀ i, next.getD i [] =
        if node = i then addTo (adj.getD node []) neighbor w else adj.getD i [] := by
  refine ⟨adj.set node (addTo (adj.getD node []) neighbor w), ?_, List.length_set, fun i => ?_⟩
  · rw [enter, List.getD_eq_getElem?_getD, List.getElem?_eq_getElem hnode]
    rfl
  · by_cases hi : node = i
    · subst hi
      rw [if_pos rfl, List.getD_eq_getElem?_getD, List.getElem?_set_self hnode, Option.getD_some]
    · rw [if_neg hi, List.getD_eq_getElem?_getD, List.getElem?_set_ne hi, ← List.getD_eq_getElem?_getD]

-- The rows of a table of weights between the nodes.
structure Tabular (n : Nat) (adj : List (List (Nat × Rat))) : Prop where
  length : adj.length = n
  keys : ∀ i, ∀ entry ∈ adj.getD i [], entry.1 < n
  nodup : ∀ i, ((adj.getD i []).map Prod.fst).Nodup

theorem Tabular.exists_enter (h : Tabular n adj) {node neighbor : Nat} (hnode : node < n)
    (hneighbor : neighbor < n) (w : Rat) : ∃ next, enter adj node neighbor w = some next ∧
      Tabular n next ∧
      ∀ i j, link next i j = link adj i j + if node = i ∧ neighbor = j then w else 0 := by
  obtain ⟨next, hnext, hlength, hrows⟩ := M1nd.Core.exists_enter (h.length ▸ hnode) neighbor w
  refine ⟨next, hnext, ⟨hlength.trans h.length, fun i entry hentry => ?_, fun i => ?_⟩,
    fun i j => ?_⟩
  · rw [hrows] at hentry
    split at hentry
    · have hkey := List.mem_map_of_mem (f := Prod.fst) hentry
      obtain hkey | hkey := mem_keys_addTo.mp hkey
      · exact hkey ▸ hneighbor
      · obtain ⟨old, hold, hsame⟩ := List.mem_map.mp hkey
        exact hsame ▸ h.keys node old hold
    · exact h.keys i entry hentry
  · rw [hrows]
    split
    · exact nodup_addTo (h.nodup node)
    · exact h.nodup i
  · rw [link, hrows]
    by_cases hi : node = i
    · subst hi
      rw [if_pos rfl, weightOf_addTo]
      simp only [true_and]
      rfl
    · rw [if_neg hi, if_neg (fun hboth => hi hboth.1), add_zero]
      rfl

-- The same weight both ways, and none below zero.
structure Symmetric (n : Nat) (adj : List (List (Nat × Rat))) : Prop extends Tabular n adj where
  symm : ∀ i j, link adj i j = link adj j i
  nonneg : ∀ i j, 0 ≤ link adj i j

theorem symmetric_empty (n : Nat) : Symmetric n (List.replicate n []) := by
  have hrow : ∀ i, (List.replicate n ([] : List (Nat × Rat))).getD i [] = [] := by
    intro i
    rw [List.getD_eq_getElem?_getD, List.getElem?_replicate]
    split <;> rfl
  have hlink : ∀ i j, link (List.replicate n []) i j = 0 := by
    intro i j
    rw [link, hrow]
    rfl
  refine ⟨⟨List.length_replicate, fun i entry hentry => ?_, fun i => ?_⟩, fun i j => ?_,
    fun i j => (hlink i j).ge⟩
  · rw [hrow] at hentry
    exact absurd hentry List.not_mem_nil
  · rw [hrow]
    exact List.nodup_nil
  · rw [hlink, hlink]

theorem Symmetric.exists_enterBoth (h : Symmetric n adj) {i target : Nat} (hi : i < n)
    (htarget : target < n) {w : Rat} (hw : 0 ≤ w) :
    ∃ next, enterBoth adj i target w = some next ∧ Symmetric n next := by
  have hback : ∀ adj : List (List (Nat × Rat)),
      (if i ≠ target then enter adj target i w else enter adj i i w) = enter adj target i w := by
    intro adj
    split
    case isTrue => rfl
    case isFalse hsame => rw [not_not.mp hsame]
  obtain ⟨mid, hmid, htable, hlink⟩ := h.toTabular.exists_enter hi htarget w
  obtain ⟨next, hnext, htable', hlink'⟩ := htable.exists_enter htarget hi w
  refine ⟨next, ?_, htable', fun a b => ?_, fun a b => ?_⟩
  · rw [enterBoth, hmid, Option.bind_eq_bind, Option.bind_some, hback, hnext]
  · rw [hlink', hlink', hlink, hlink, h.symm a b, add_assoc, add_assoc, add_comm (ite _ _ _)]
    simp only [and_comm]
  · rw [hlink', hlink]
    have hold := h.nonneg a b
    split_ifs <;> linarith

end Enter

section Build

variable {build : AdjacencyBuild}

theorem Symmetric.exists_addSlots (hclosed : graph.Closed) (hweighted : graph.Weighted)
    (hnonneg : ∀ w ∈ graph.csr.weights, 0 ≤ w) (h : Symmetric graph.numNodes build.adj) {i : Nat}
    (hi : i < graph.numNodes) :
    ∃ next, addSlots graph build i = some next ∧ Symmetric graph.numNodes next.adj := by
  refine exists_foldlM (fun build : AdjacencyBuild => Symmetric graph.numNodes build.adj) h ?_
  intro build h j hj
  obtain ⟨target, htarget, hend⟩ := hclosed i j hj
  obtain ⟨w, hw⟩ := hweighted i j hj
  rw [addSlot, hend, hw]
  simp only [Option.bind_eq_bind, Option.bind_some]
  split
  · exact ⟨build, rfl, h⟩
  · obtain ⟨next, hnext, hsymm⟩ :=
      h.exists_enterBoth hi htarget (hnonneg w (List.mem_of_getElem? hw))
    exact ⟨_, by rw [hnext, Option.map_some], hsymm⟩

-- The adjacency that the edges of a graph give.
structure Neighborhood.Sums (n : Nat) (net : Neighborhood) : Prop extends
    Symmetric n net.adj where
  degree : net.degree = net.adj.map fun row => (row.map Prod.snd).sum
  twoM : net.twoM = net.degree.sum

theorem exists_neighborhood (hclosed : graph.Closed) (hweighted : graph.Weighted)
    (hnonneg : ∀ w ∈ graph.csr.weights, 0 ≤ w) :
    ∃ net, neighborhood graph = some net ∧ net.Sums graph.numNodes := by
  have hstart : Symmetric graph.numNodes
      (AdjacencyBuild.mk (List.replicate graph.numNodes []) []).adj :=
    symmetric_empty graph.numNodes
  obtain ⟨build, hbuild, hsymm⟩ := exists_foldlM
    (fun build : AdjacencyBuild => Symmetric graph.numNodes build.adj) hstart fun build h i hi =>
      h.exists_addSlots hclosed hweighted hnonneg (List.mem_range.mp hi)
  exact ⟨_, by rw [neighborhood, hbuild, Option.map_some], hsymm, rfl, rfl⟩

end Build

namespace Neighborhood

variable {net : Neighborhood}

def weight (net : Neighborhood) : Nat → Nat → Rat :=
  link net.adj

theorem Sums.weigh_row (h : net.Sums n) (i : Nat) (f : Nat → Rat) :
    weigh (net.adj.getD i []) f = ∑ j ∈ Finset.range n, f j * net.weight i j :=
  weigh_eq_sum (fun entry hentry => Finset.mem_range.mpr (h.keys i entry hentry)) f

theorem Sums.row (h : net.Sums n) {i : Nat} (hi : i < n) :
    net.adj[i]? = some (net.adj.getD i []) := by
  have hlt : i < net.adj.length := h.length.symm ▸ hi
  rw [List.getD_eq_getElem?_getD, List.getElem?_eq_getElem hlt]
  rfl

-- The degrees and their sum are those of the weights between the nodes.
theorem Sums.degree_eq (h : net.Sums n) :
    net.degree = (List.range n).map (Library.Modularity.degree (Finset.range n) net.weight) := by
  have hsum : ∀ row : List (Nat × Rat), (row.map Prod.snd).sum = weigh row fun _ => 1 := by
    intro row
    simp only [weigh, one_mul]
  refine List.ext_getElem? fun i => ?_
  rw [h.degree, List.getElem?_map, List.getElem?_map]
  by_cases hi : i < n
  · rw [h.row hi, List.getElem?_range hi, Option.map_some, Option.map_some, hsum, h.weigh_row]
    simp only [one_mul, Library.Modularity.degree]
  · rw [List.getElem?_eq_none (h.length.le.trans (not_lt.mp hi)),
      List.getElem?_eq_none (List.length_range.le.trans (not_lt.mp hi))]
    rfl

theorem Sums.degree_getElem? (h : net.Sums n) {i : Nat} (hi : i < n) :
    net.degree[i]? = some (Library.Modularity.degree (Finset.range n) net.weight i) := by
  rw [h.degree_eq, List.getElem?_map, List.getElem?_range hi, Option.map_some]

theorem Sums.twoM_eq (h : net.Sums n) :
    net.twoM = total (Finset.range n) net.weight := by
  rw [h.twoM, h.degree_eq]
  rfl

end Neighborhood

end M1nd.Core
