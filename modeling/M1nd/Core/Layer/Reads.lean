import M1nd.Core.Layer.Detect
import M1nd.Core.Layer.Merging
import M1nd.Core.Layer.Theorems
import M1nd.Core.Snapshot.Coherent

namespace M1nd.Core

open M1nd.Library.Components
open M1nd.Library.Loops

variable {W F T : Type} {graph : Graph W T} {candidates : List Nat}

-- Whatever a detection reads of a graph is there.
structure Graph.Browsable (graph : Graph W T) : Prop where
  readable : graph.Readable
  weights : ∀ node, ∀ j ∈ graph.csr.outRange node,
    ∃ weight, graph.csr.weights[EdgeIdx.new j]? = some weight
  sources : ∀ node, ∀ r ∈ graph.csr.inRange node, ∃ source, graph.csr.revSources[r]? = some source
  labels : ∀ node < graph.nodes.count, ∃ label, nodeLabel graph node = some label
  nodeTypes : ∀ node < graph.nodes.count, ∃ nodeType, graph.nodes.nodeType[node]? = some nodeType
  names : ∀ entry ∈ graph.idToNode.toList, ∃ extId, graph.strings.tryResolve entry.1 = some extId

section Reachable

variable [Zero W] [FiniteF32 W F]

theorem Graph.Coherent.browsable (h : graph.Coherent F) (hsourced : graph.Sourced) :
    graph.Browsable where
  readable node j hj := by
    have hlt := h.tabled.listed.mem_outRange_lt hj
    have hlt' : j < graph.csr.relations.length := h.named.length ▸ hlt
    have hname := h.named.relations _ (List.getElem_mem hlt')
    exact ⟨_, _, _, List.getElem?_eq_getElem hlt', List.getElem?_eq_getElem hname,
      List.getElem?_eq_getElem hlt⟩
  weights node j hj := by
    have hlt := h.tabled.listed.mem_outRange_lt hj
    rw [← h.tabled.listed.weights] at hlt
    exact ⟨_, List.getElem?_eq_getElem ((Nat.mod_le j (2 ^ 32)).trans_lt hlt)⟩
  sources node r hr := ⟨_, List.getElem?_eq_getElem (hsourced node r hr)⟩
  labels _ hnode := h.registered.exists_label hnode
  nodeTypes node hnode := by
    have hlt : node < graph.nodes.nodeType.length := by rwa [h.registered.nodeType]
    exact ⟨_, List.getElem?_eq_getElem hlt⟩
  names _ hentry := h.registered.exists_name hentry

theorem GraphEdit.browsable_run (F : Type) [FiniteF32 W F] (edits : List (GraphEdit W T)) :
    (GraphEdit.run edits).Browsable :=
  (GraphEdit.coherent_run F edits).browsable (GraphEdit.sourced_run F edits)

end Reachable

namespace Graph.Browsable

section Candidates

theorem exists_matchesType (h : graph.Browsable) (nodeTypeFilter : List NodeType) {i : Nat}
    (hi : i < graph.nodes.count) : ∃ b, matchesType graph nodeTypeFilter i = some b := by
  unfold matchesType
  split
  · exact ⟨_, rfl⟩
  · obtain ⟨nodeType, hnodeType⟩ := h.nodeTypes i hi
    exact ⟨_, by rw [hnodeType, Option.map_some]⟩

theorem exists_matchesScope (h : graph.Browsable) (scope : Option String) (i : Nat) :
    ∃ b, matchesScope graph scope i = some b := by
  cases scope with
  | none => exact ⟨_, rfl⟩
  | some scopePrefix =>
      unfold matchesScope
      cases hfind : graph.idToNode.toList.find? fun entry => entry.2 = i with
      | none => exact ⟨_, rfl⟩
      | some entry =>
          obtain ⟨extId, hextId⟩ := h.names entry (List.mem_of_find?_eq_some hfind)
          exact ⟨extId.startsWith scopePrefix, by simp only [hextId, Option.map_some]⟩

theorem exists_isNoTest (h : graph.Browsable) (node : Nat) :
    ∃ b, isNoTest graph node = some b := by
  unfold isNoTest
  split
  · exact ⟨_, rfl⟩
  · rename_i hnode
    obtain ⟨label, hlabel⟩ := h.labels node (Nat.not_le.mp hnode)
    exact ⟨_, by rw [hlabel, Option.map_some]⟩

theorem exists_layerCandidates (h : graph.Browsable) (scope : Option String)
    (nodeTypeFilter : List NodeType) (excludeTests : Bool) : ∃ candidates,
      layerCandidates graph scope nodeTypeFilter excludeTests = some candidates ∧
      candidates.Sublist (List.range graph.nodes.count) := by
  obtain ⟨collected, hcollected, hsub⟩ :
      ∃ collected, layerCollectCandidates graph scope nodeTypeFilter = some collected ∧
        collected.Sublist (List.range graph.nodes.count) := by
    refine exists_keepM fun i hi => ?_
    obtain ⟨b, hb⟩ := h.exists_matchesType nodeTypeFilter (List.mem_range.mp hi)
    rw [hb, Option.bind_eq_bind, Option.bind_some]
    split
    · exact ⟨_, rfl⟩
    · exact h.exists_matchesScope scope i
  unfold layerCandidates
  rw [hcollected, Option.bind_eq_bind, Option.bind_some]
  cases excludeTests with
  | false => exact ⟨collected, rfl, hsub⟩
  | true =>
      obtain ⟨kept, hkept, hsub'⟩ := exists_keepM fun node _ => h.exists_isNoTest node
      exact ⟨kept, hkept, hsub'.trans hsub⟩

end Candidates

section Edges

-- The targets of a node's slots, and the sources of the edges that enter it.
theorem exists_targets (h : graph.Browsable) (node : Nat) : ∃ targets,
    ((graph.csr.outRange node).mapM fun j => graph.csr.targets[j]?) = some targets := by
  obtain ⟨targets, htargets, -⟩ := exists_mapM fun j hj => by
    obtain ⟨-, -, target, -, -, htarget⟩ := h.readable node j hj
    exact ⟨target, htarget⟩
  exact ⟨targets, htargets⟩

theorem exists_sources (h : graph.Browsable) (node : Nat) : ∃ sources,
    ((graph.csr.inRange node).mapM fun r => graph.csr.revSources[r]?) = some sources := by
  obtain ⟨sources, hsources, -⟩ := exists_mapM fun r hr => h.sources node r hr
  exact ⟨sources, hsources⟩

theorem exists_relationName (h : graph.Browsable) {node j : Nat}
    (hj : j ∈ graph.csr.outRange node) : ∃ relation, relationName graph j = some relation := by
  obtain ⟨handle, relation, -, hhandle, hrelation, -⟩ := h.readable node j hj
  exact ⟨relation, by rw [relationName, hhandle, Option.bind_some, hrelation]⟩

theorem exists_dagEdges (h : graph.Browsable) (candidates : List Nat) (sccs : List (List Nat)) :
    ∃ edges, dagEdges graph candidates sccs = some edges := by
  have hedge : ∀ node, ∀ j ∈ graph.csr.outRange node,
      ∃ edge, dagEdge graph candidates sccs node j = some edge := by
    intro node j hj
    obtain ⟨-, -, target, -, -, htarget⟩ := h.readable node j hj
    unfold dagEdge
    rw [htarget, Option.bind_eq_bind, Option.bind_some]
    split <;> exact ⟨_, rfl⟩
  have hnode : ∀ node ∈ candidates, ∃ edges,
      (graph.csr.outRange node).mapM (dagEdge graph candidates sccs node) = some edges := by
    intro node _
    obtain ⟨edges, hedges, -⟩ := exists_mapM (hedge node)
    exact ⟨edges, hedges⟩
  obtain ⟨edges, hedges, -⟩ := exists_mapM hnode
  exact ⟨_, by rw [dagEdges, hedges]; rfl⟩

end Edges

end Graph.Browsable

end M1nd.Core

namespace M1nd.Core

open M1nd.Library.Components
open M1nd.Library.Loops

variable {W F T : Type} {graph : Graph W T} {layers : List (ArchLayer F)} {candidates : List Nat}

namespace Graph.Browsable

theorem exists_firstCycleSlot (h : graph.Browsable) {node : Nat} (other : Nat) {slots : List Nat}
    (hslots : slots ⊆ graph.csr.outRange node) : ∃ found,
      firstCycleSlot graph other slots = some found ∧
      ∀ j relation, found = some (j, relation) → j ∈ slots := by
  induction slots with
  | nil => exact ⟨none, rfl, nofun⟩
  | cons j slots ih =>
      obtain ⟨hj, hrest⟩ := List.cons_subset.mp hslots
      obtain ⟨found, hfound, hmem⟩ := ih hrest
      have hlater : ∀ k relation, found = some (k, relation) → k ∈ j :: slots :=
        fun k relation hk => List.mem_cons_of_mem _ (hmem k relation hk)
      obtain ⟨-, -, target, -, -, htarget⟩ := h.readable node j hj
      obtain ⟨relation, hrelation⟩ := h.exists_relationName hj
      unfold firstCycleSlot
      rw [htarget, Option.bind_eq_bind, Option.bind_some, hrelation]
      split
      · exact ⟨found, hfound, hlater⟩
      · rw [Option.bind_eq_bind, Option.bind_some]
        split
        · refine ⟨some (j, relation), rfl, fun k name hk => ?_⟩
          obtain ⟨rfl, -⟩ := Prod.mk.inj (Option.some.inj hk)
          exact List.mem_cons_self
        · exact ⟨found, hfound, hlater⟩

variable [FiniteF32 W F]

theorem exists_circularViolation (h : graph.Browsable) (layers : List (ArchLayer F))
    {pair : Nat × Nat} (hnode : pair.1 < graph.nodes.count) (hother : pair.2 < graph.nodes.count) :
    ∃ violation, circularViolation graph layers pair = some violation := by
  obtain ⟨found, hfound, hmem⟩ :=
    h.exists_firstCycleSlot pair.2 (List.Subset.refl (graph.csr.outRange pair.1))
  unfold circularViolation
  rw [hfound, Option.bind_eq_bind, Option.bind_some]
  cases found with
  | none => exact ⟨none, rfl⟩
  | some slot =>
      obtain ⟨weight, hweight⟩ := h.weights pair.1 slot.1 (hmem slot.1 slot.2 rfl)
      obtain ⟨srcLabel, hsrc⟩ := h.labels pair.1 hnode
      obtain ⟨tgtLabel, htgt⟩ := h.labels pair.2 hother
      exact ⟨_, by simp only [hweight, hsrc, htgt, Option.bind_eq_bind, Option.bind_some]; rfl⟩

-- The nodes of the components are candidates, so that they have labels.
theorem exists_circularViolations (h : graph.Browsable) (layers : List (ArchLayer F))
    {sccs : List (List Nat)} (hsccs : ListsComponents (graph.CycleEdge candidates) sccs)
    (hcandidates : ∀ node ∈ candidates, node < graph.nodes.count) :
    ∃ violations, circularViolations graph layers sccs = some violations := by
  have hnode : ∀ scc ∈ sccs, ∀ node ∈ scc, node < graph.nodes.count := by
    intro scc hscc node hnode
    obtain ⟨_, hedge⟩ := hsccs.exists_edge hscc hnode
    exact hcandidates node hedge.1
  have hread : ∀ pair ∈ sccs.flatMap fun scc =>
      (scc.flatMap fun node => scc.map fun other => (node, other)).filter fun pair =>
        pair.1 ≠ pair.2, ∃ violation, circularViolation graph layers pair = some violation := by
    intro pair hpair
    obtain ⟨scc, hscc, hpair⟩ := List.mem_flatMap.mp hpair
    obtain ⟨node, hnode', hpair⟩ := List.mem_flatMap.mp (List.mem_filter.mp hpair).1
    obtain ⟨other, hother, rfl⟩ := List.mem_map.mp hpair
    exact h.exists_circularViolation layers (hnode scc hscc node hnode')
      (hnode scc hscc other hother)
  obtain ⟨violations, hviolations, -⟩ := exists_mapM hread
  exact ⟨_, by rw [circularViolations, hviolations]; rfl⟩

end Graph.Browsable

section Edges

-- A layered edge is a slot of its source, between two candidates with a layer.
structure LayeredEdge.Between (graph : Graph W T) (layers : List (ArchLayer F))
    (candidates : List Nat) (edge : LayeredEdge) : Prop where
  target : edge.target ∈ candidates
  slot : edge.slot ∈ graph.csr.outRange edge.source
  leads : graph.csr.targets[edge.slot]? = some edge.target
  sourceLayer : finalLayer layers edge.source = some edge.sourceLayer
  targetLayer : finalLayer layers edge.target = some edge.targetLayer

theorem Graph.Browsable.exists_layeredEdge (h : graph.Browsable) (candidates removed : List Nat)
    {source sourceLayer j : Nat} (hj : j ∈ graph.csr.outRange source)
    (hlayer : finalLayer layers source = some sourceLayer) : ∃ found,
      layeredEdge graph layers candidates removed source sourceLayer j = some found ∧
      ∀ edge, found = some edge → edge.source = source ∧ edge.Between graph layers candidates := by
  obtain ⟨relation, hrelation⟩ := h.exists_relationName hj
  obtain ⟨-, -, target, -, -, htarget⟩ := h.readable source j hj
  unfold layeredEdge
  simp only [hrelation, htarget, Option.bind_eq_bind, Option.bind_some]
  split
  · exact ⟨none, rfl, nofun⟩
  · split
    · exact ⟨none, rfl, nofun⟩
    · split
      · exact ⟨none, rfl, nofun⟩
      · rename_i hinside
        refine ⟨_, rfl, fun edge hedge => ?_⟩
        obtain ⟨targetLayer, htargetLayer, rfl⟩ := Option.map_eq_some_iff.mp hedge
        exact ⟨rfl, not_not.mp hinside, hj, htarget, hlayer, htargetLayer⟩

theorem Graph.Browsable.exists_layeredEdgesOf (h : graph.Browsable) (layers : List (ArchLayer F))
    (candidates removed : List Nat) (node : Nat) : ∃ edges,
      layeredEdgesOf graph layers candidates removed node = some edges ∧
      ∀ edge ∈ edges, edge.source = node ∧ edge.Between graph layers candidates := by
  unfold layeredEdgesOf
  split
  · exact ⟨[], rfl, nofun⟩
  · cases hlayer : finalLayer layers node with
    | none => exact ⟨[], rfl, nofun⟩
    | some layer =>
        have hread := fun j (hj : j ∈ graph.csr.outRange node) =>
          h.exists_layeredEdge candidates removed hj hlayer
        obtain ⟨edges, hedges, hmem⟩ := exists_mapM fun j hj => by
          obtain ⟨found, hfound, -⟩ := hread j hj
          exact ⟨found, hfound⟩
        refine ⟨edges.filterMap id, Option.bind_eq_some_iff.mpr ⟨edges, hedges, rfl⟩, ?_⟩
        intro edge hedge
        obtain ⟨found, hfound, rfl⟩ := List.mem_filterMap.mp hedge
        obtain ⟨j, hj, hslot⟩ := (hmem (some edge)).mp hfound
        obtain ⟨found, hfound, hbetween⟩ := hread j hj
        exact hbetween edge (Option.some.inj (hfound.symm.trans hslot))

-- The layered edges of all candidates.
theorem Graph.Browsable.exists_layered (h : graph.Browsable) (layers : List (ArchLayer F))
    (candidates removed : List Nat) : ∃ layered,
      candidates.mapM (layeredEdgesOf graph layers candidates removed) = some layered ∧
      ∀ edge ∈ layered.flatten, edge.source ∈ candidates ∧ edge.Between graph layers candidates := by
  have hread := h.exists_layeredEdgesOf layers candidates removed
  obtain ⟨layered, hlayered, hmem⟩ := exists_mapM fun node (_ : node ∈ candidates) => by
    obtain ⟨edges, hedges, -⟩ := hread node
    exact ⟨edges, hedges⟩
  refine ⟨layered, hlayered, fun edge hedge => ?_⟩
  obtain ⟨edges, hedges, hedge⟩ := List.mem_flatten.mp hedge
  obtain ⟨node, hnode, hof⟩ := (hmem edges).mp hedges
  obtain ⟨edges', hedges', hbetween⟩ := hread node
  obtain rfl := Option.some.inj (hof.symm.trans hedges')
  obtain ⟨rfl, hedge⟩ := hbetween edge hedge
  exact ⟨hnode, hedge⟩

theorem Graph.Browsable.exists_upwardViolation [LayerF32 F] [FiniteF32 W F] (h : graph.Browsable)
    (layers : List (ArchLayer F)) {edge : LayeredEdge}
    (hsource : edge.source < graph.nodes.count) (htarget : edge.target < graph.nodes.count)
    (hslot : edge.slot ∈ graph.csr.outRange edge.source) :
    ∃ violation, upwardViolation graph layers edge = some violation := by
  obtain ⟨weight, hweight⟩ := h.weights edge.source edge.slot hslot
  obtain ⟨srcLabel, hsrc⟩ := h.labels edge.source hsource
  obtain ⟨tgtLabel, htgt⟩ := h.labels edge.target htarget
  exact ⟨_, by rw [upwardViolation, hweight, hsrc, htgt]; rfl⟩

end Edges

end M1nd.Core
