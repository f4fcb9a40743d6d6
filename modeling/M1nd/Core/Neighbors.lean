import M1nd.Core.SpectralGap.Analysis
import M1nd.Library.Flooding

namespace M1nd.Core

open M1nd.Library.Buckets
open M1nd.Library.Flooding
open M1nd.Library.Loops
open M1nd.Library.WeakComponents
open Relation

variable {W T : Type}

namespace Graph

-- The ends of the edges of a node, then the nodes with an edge to it.
def neighborsOf (graph : Graph W T) (node : Nat) : Option (List Nat) := do
  let ends ← (graph.csr.outRange node).mapM fun j => graph.csr.targets[j]?
  let starts ← (graph.csr.inRange node).mapM fun r => graph.csr.revSources[r]?
  some (ends ++ starts)

-- The reverse ranges list the edges of the forward ones.
def Reflected (graph : Graph W T) : Prop :=
  ∀ source target, (∃ r ∈ graph.csr.inRange target, graph.csr.revSources[r]? = some source) ↔
    graph.Edge source target

variable {graph next : Graph W T}

theorem reflected_new : (Graph.new : Graph W T).Reflected :=
  fun _ _ => ⟨fun ⟨_, hr, _⟩ => absurd hr List.not_mem_nil,
    fun ⟨_, hj, _⟩ => absurd hj List.not_mem_nil⟩

theorem Reflected.same (h : graph.Reflected) (hreverse : graph.SameReverse next)
    (hoffsets : next.csr.offsets = graph.csr.offsets)
    (htargets : next.csr.targets = graph.csr.targets) : next.Reflected := by
  unfold Reflected Edge CsrGraph.inRange CsrGraph.outRange
  rw [hreverse.revOffsets, hreverse.revSources, hoffsets, htargets]
  exact h

section Rebuild

variable [Zero W]

theorem Rebuilt.reflected (h : graph.Staged) (hnext : graph.Rebuilt next) : next.Reflected := by
  have hparallel := hnext.parallel h
  -- Both sides name a slot of the rebuilt arrays.
  have hedge (source target : Nat) : next.Edge source target ↔
      ∃ slot ∈ graph.placed.zipIdx, slot.1.source = source ∧ slot.1.target = target := by
    unfold Edge
    simp only [CsrGraph.mem_outRange hparallel.offsets.length, hnext.edgeSlots_eq, List.mem_map,
      Prod.mk.injEq, hnext.targets, List.getElem?_map, Option.map_eq_some_iff]
    constructor
    · rintro ⟨j, ⟨⟨slot, i⟩, hslot, hsource, rfl⟩, other, hother, htarget⟩
      obtain rfl := Option.some.inj (hother.symm.trans (List.mk_mem_zipIdx_iff_getElem?.mp hslot))
      exact ⟨(other, i), hslot, hsource, htarget⟩
    · rintro ⟨⟨slot, i⟩, hslot, hsource, htarget⟩
      exact ⟨i, ⟨(slot, i), hslot, hsource, rfl⟩, slot, List.mk_mem_zipIdx_iff_getElem?.mp hslot,
        htarget⟩
  intro source target
  rw [hedge]
  simp only [CsrGraph.mem_inRange hparallel.revOffsets.length, hnext.nodes, hnext.revOffsets,
    edgeSlots_offsets, List.mem_map, Prod.mk.injEq, hnext.revSources, List.getElem?_map,
    Option.map_eq_some_iff]
  constructor
  · rintro ⟨r, ⟨⟨slot, i⟩, hslot, htarget, rfl⟩, other, hother, hsource⟩
    obtain rfl := Option.some.inj (hother.symm.trans (List.mk_mem_zipIdx_iff_getElem?.mp hslot))
    exact ⟨other, h.reversed_perm.mem_iff.mp (List.mem_of_getElem? hother), hsource, htarget⟩
  · rintro ⟨slot, hslot, hsource, htarget⟩
    obtain ⟨r, hr⟩ := List.mem_iff_getElem?.mp (h.reversed_perm.mem_iff.mpr hslot)
    exact ⟨r, ⟨(slot, r), List.mk_mem_zipIdx_iff_getElem?.mpr hr, htarget, rfl⟩, slot, hr, hsource⟩

theorem Reflected.apply (hsound : graph.Sound) (h : graph.Reflected) (op : GraphOp W T) :
    (GraphOp.apply graph op).Reflected := by
  by_cases hop : op = .finalize
  · subst hop
    rw [GraphOp.apply, finalize]
    split
    · exact h
    · split
      · exact hsound.rehydrated.rebuilt.reflected hsound.rehydrated
      · exact hsound.staged.rebuilt.reflected hsound.staged
  · have hforward : (op.apply graph).csr.offsets = graph.csr.offsets ∧
        (op.apply graph).csr.targets = graph.csr.targets := by
      cases op with
      | addNode externalId label nodeType tags lastModified changeFrequency =>
          obtain ⟨strings, he⟩ | ⟨nodes, strings, idToNode, -, he⟩ :=
            graph.addNode_cases externalId label nodeType tags lastModified changeFrequency
          all_goals
            rw [GraphOp.apply, he]
            exact ⟨rfl, rfl⟩
      | addEdge source target relation weight direction inhibitory causalStrength =>
          rw [GraphOp.apply, Graph.addEdge]
          dsimp only
          split
          · exact ⟨rfl, rfl⟩
          · split <;> exact ⟨rfl, rfl⟩
      | storeWeight slot weight =>
          rw [GraphOp.apply]
          split <;> exact ⟨rfl, rfl⟩
      | storeSynapse slot synapse =>
          rw [GraphOp.apply]
          split <;> exact ⟨rfl, rfl⟩
      | finalize => exact absurd rfl hop
    exact h.same (sameReverse_apply graph hop) hforward.1 hforward.2

end Rebuild

section Reads

theorem Sound.edge_lt (h : graph.Sound) {source target : Nat} (hedge : graph.Edge source target) :
    source < graph.nodes.count ∧ target < graph.nodes.count := by
  obtain ⟨j, hj, htarget⟩ := hedge
  refine ⟨?_, h.targets target (List.mem_of_getElem? htarget)⟩
  by_contra hsource
  have hnone : graph.csr.outRange source = [] := by
    have hcovered := h.covered
    rw [CsrGraph.outRange, if_pos (by omega)]
  rw [hnone] at hj
  exact List.not_mem_nil hj

theorem exists_neighborsOf (hclosed : graph.Closed) (hsourced : graph.Sourced)
    (hreflected : graph.Reflected) (node : Nat) : ∃ nodes, graph.neighborsOf node = some nodes ∧
      ∀ v, v ∈ nodes ↔ graph.Edge node v ∨ graph.Edge v node := by
  have hends : ∀ j ∈ graph.csr.outRange node, ∃ target, graph.csr.targets[j]? = some target := by
    intro j hj
    obtain ⟨target, -, htarget⟩ := hclosed node j hj
    exact ⟨target, htarget⟩
  have hstarts : ∀ r ∈ graph.csr.inRange node, ∃ source, graph.csr.revSources[r]? = some source :=
    fun r hr => ⟨_, List.getElem?_eq_getElem (hsourced node r hr)⟩
  obtain ⟨ends, hends, hmem⟩ := exists_mapM hends
  obtain ⟨starts, hstarts, hmem'⟩ := exists_mapM hstarts
  refine ⟨ends ++ starts, ?_, fun v => ?_⟩
  · rw [neighborsOf, hends, hstarts]
    rfl
  · rw [List.mem_append, hmem, hmem', ← hreflected v node, Edge]

end Reads

-- The edges between nodes of a kind, without their directions.
def weak (graph : Graph W T) (inside : Nat → Prop) : SimpleGraph Nat :=
  undirected fun a b => inside a ∧ inside b ∧ graph.Edge a b

theorem weak_adj {inside : Nat → Prop} {a b : Nat} : (graph.weak inside).Adj a b ↔
    a ≠ b ∧ inside a ∧ inside b ∧ (graph.Edge a b ∨ graph.Edge b a) := by
  rw [weak, undirected, SimpleGraph.fromRel_adj]
  tauto

-- A search that leaves out some nodes goes through the weak component of its origin.
theorem reflTransGen_passes_iff {barred : List Bool} {origin v : Nat}
    (hread : ∀ node, ∃ nodes, graph.neighborsOf node = some nodes ∧
      ∀ v, v ∈ nodes ↔ graph.Edge node v ∨ graph.Edge v node)
    (horigin : barred[origin]? = some false) :
    ReflTransGen (Passes graph.neighborsOf barred) origin v ↔
      (graph.weak fun node => barred[node]? = some false).Reachable origin v := by
  have hpasses (a b : Nat) : Passes graph.neighborsOf barred a b ↔
      barred[b]? = some false ∧ (graph.Edge a b ∨ graph.Edge b a) := by
    obtain ⟨nodes, hnodes, hmem⟩ := hread a
    constructor
    · rintro ⟨nodes', hnodes', hb, hfree⟩
      obtain rfl := Option.some.inj (hnodes.symm.trans hnodes')
      exact ⟨hfree, (hmem b).mp hb⟩
    · rintro ⟨hfree, hedge⟩
      exact ⟨nodes, hnodes, (hmem b).mpr hedge, hfree⟩
  rw [SimpleGraph.reachable_iff_reflTransGen]
  constructor
  · intro hreach
    have hboth : ReflTransGen (graph.weak fun node => barred[node]? = some false).Adj origin v ∧
        barred[v]? = some false := by
      induction hreach with
      | refl => exact ⟨.refl, horigin⟩
      | @tail a b _ hpass ih =>
          obtain ⟨hfree, hedge⟩ := (hpasses a b).mp hpass
          refine ⟨?_, hfree⟩
          by_cases hsame : a = b
          · exact hsame ▸ ih.1
          · exact ih.1.tail (weak_adj.mpr ⟨hsame, ih.2, hfree, hedge⟩)
    exact hboth.1
  · intro hreach
    induction hreach with
    | refl => exact .refl
    | @tail a b _ hadj ih =>
        obtain ⟨-, -, hfree, hedge⟩ := weak_adj.mp hadj
        exact ih.tail ((hpasses a b).mpr ⟨hfree, hedge⟩)

end Graph

section Runs

variable [Zero W]

theorem GraphEdit.reflected_run (F : Type) [FiniteF32 W F] (edits : List (GraphEdit W T)) :
    (GraphEdit.run edits).Reflected := by
  induction edits using List.reverseRecOn with
  | nil => exact Graph.reflected_new
  | append_singleton edits edit ih =>
      rw [GraphEdit.run, List.foldl_append]
      cases edit with
      | operate op => exact ih.apply (GraphEdit.coherent_run F edits).sound op
      | setNodeProvenance node provenance =>
          refine ih.same (Graph.sameReverse_setNodeProvenance _ node provenance) ?_ ?_
          all_goals
            simp only [List.foldl_cons, List.foldl_nil, GraphEdit.apply, Graph.setNodeProvenance]
            split <;> rfl

theorem GraphEdit.exists_neighborsOf (F : Type) [FiniteF32 W F] (edits : List (GraphEdit W T))
    (node : Nat) : ∃ nodes, (GraphEdit.run edits).neighborsOf node = some nodes ∧
      ∀ v, v ∈ nodes ↔ (GraphEdit.run edits).Edge node v ∨ (GraphEdit.run edits).Edge v node :=
  Graph.exists_neighborsOf (GraphEdit.coherent_run F edits).closed (GraphEdit.sourced_run F edits)
    (GraphEdit.reflected_run F edits) node

end Runs

end M1nd.Core
