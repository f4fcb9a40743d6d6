import M1nd.Core.Layer.Reads

namespace M1nd.Core

open M1nd.Library.Groups
open M1nd.Library.Loops

variable {W F T : Type} {graph : Graph W T} {layering : Layering} {utilities : List UtilityNode}

section Utilities

theorem Layering.classify_ne_orphan (usedBy : List Nat) :
    layering.classify usedBy ≠ some .Orphan := by
  unfold Layering.classify
  split
  · nofun
  · split <;> nofun

theorem utilitySet_eq_crossCutting
    (hfound : ∀ utility ∈ utilities, utility.classification ≠ .Orphan) :
    utilitySet utilities = Layering.crossCutting utilities := by
  unfold utilitySet Layering.crossCutting
  refine congrArg (List.map UtilityNode.node) (List.filter_congr fun utility hutility => ?_)
  have hne := hfound utility hutility
  cases hclass : utility.classification with
  | CrossCutting => rfl
  | Bridge => rfl
  | Orphan => exact absurd hclass hne

theorem utilitySet_orphans (orphans : List Nat) :
    utilitySet (orphans.map fun node => ⟨node, [], .Orphan⟩) = orphans := by
  induction orphans with
  | nil => rfl
  | cons node orphans ih => exact congrArg (node :: ·) ih

namespace Graph.Browsable

theorem exists_usedByLayers (h : graph.Browsable) (layering : Layering) (node : Nat) :
    ∃ usedBy, layering.usedByLayers graph node = some usedBy := by
  have hread : ∀ r ∈ graph.csr.inRange node,
      ∃ layer, layering.referencingLayer graph node r = some layer := by
    intro r hr
    obtain ⟨source, hsource⟩ := h.sources node r hr
    exact ⟨_, by rw [Layering.referencingLayer, hsource]; rfl⟩
  obtain ⟨layers, hlayers, -⟩ := exists_mapM hread
  exact ⟨_, by rw [Layering.usedByLayers, hlayers]; rfl⟩

theorem exists_isOrphan (h : graph.Browsable) (layering : Layering) (node : Nat) :
    ∃ b, layering.isOrphan graph node = some b := by
  obtain ⟨sources, hsources⟩ := h.exists_sources node
  obtain ⟨targets, htargets⟩ := h.exists_targets node
  exact ⟨_, by rw [Layering.isOrphan, hsources, htargets]; rfl⟩

-- A node is removed from the layers once at most: an orphan is looked for among those that are
-- not cross-cutting.
theorem exists_detectUtilities (h : graph.Browsable) (layering : Layering)
    (hnodup : layering.candidates.Nodup) : ∃ utilities, layering.detectUtilities graph = some utilities ∧
      (utilitySet utilities).Nodup ∧ utilitySet utilities ⊆ layering.candidates := by
  have hread : ∀ node ∈ layering.candidates,
      ∃ utility, layering.utilityOf graph node = some utility := by
    intro node _
    obtain ⟨usedBy, husedBy⟩ := h.exists_usedByLayers layering node
    exact ⟨_, by rw [Layering.utilityOf, husedBy]; rfl⟩
  obtain ⟨found, hfound, hmem⟩ := exists_mapM hread
  have hutilityOf : ∀ node utility, layering.utilityOf graph node = some (some utility) →
      utility.node = node ∧ utility.classification ≠ .Orphan := by
    intro node utility hutility
    obtain ⟨usedBy, -, hrest⟩ := Option.bind_eq_some_iff.mp hutility
    obtain ⟨classification, hclass, rfl⟩ := Option.map_eq_some_iff.mp (Option.some.inj hrest)
    refine ⟨rfl, ?_⟩
    rintro rfl
    exact layering.classify_ne_orphan usedBy hclass
  have hsub := filterMap_mapM_sublist (fun node utility hu => (hutilityOf node utility hu).1) hfound
  have hcross : utilitySet (found.filterMap id) = Layering.crossCutting (found.filterMap id) := by
    refine utilitySet_eq_crossCutting fun utility hutility => ?_
    obtain ⟨value, hvalue, rfl⟩ := List.mem_filterMap.mp hutility
    obtain ⟨node, -, hnode⟩ := (hmem (some utility)).mp hvalue
    exact (hutilityOf node utility hnode).2
  have horphan : ∀ node ∈ layering.candidates.filter fun node =>
      node ∉ Layering.crossCutting (found.filterMap id),
      ∃ b, layering.isOrphan graph node = some b := fun node _ => h.exists_isOrphan layering node
  obtain ⟨orphans, horphans, hsub'⟩ := exists_keepM horphan
  have hremoved : utilitySet (found.filterMap id ++ orphans.map fun node => ⟨node, [], .Orphan⟩) =
      Layering.crossCutting (found.filterMap id) ++ orphans := by
    rw [← hcross, utilitySet, List.filter_append, List.map_append]
    exact congrArg (utilitySet (found.filterMap id) ++ ·) (utilitySet_orphans orphans)
  have hcross' : (Layering.crossCutting (found.filterMap id)).Sublist layering.candidates :=
    (List.filter_sublist.map UtilityNode.node).trans hsub
  refine ⟨_, Option.bind_eq_some_iff.mpr ⟨found, hfound, Option.bind_eq_some_iff.mpr
    ⟨orphans, horphans, rfl⟩⟩, ?_⟩
  rw [hremoved]
  refine ⟨(hnodup.sublist hcross').append ((hnodup.filter _).sublist hsub') ?_, ?_⟩
  · intro node hnode horphan
    exact of_decide_eq_true (List.mem_filter.mp (hsub'.subset horphan)).2 hnode
  · refine List.append_subset.mpr ⟨hcross'.subset, fun node hnode => ?_⟩
    exact (List.mem_filter.mp (hsub'.subset hnode)).1

end Graph.Browsable

end Utilities

section Layers

variable [LayerF32 F] {inputs : LayerInputs F} {layers : List (ArchLayer F)}

theorem Graph.Browsable.exists_layerNodeConfidence (h : graph.Browsable) (layering : Layering)
    (node : Nat) : ∃ confidence : F, layerNodeConfidence graph layering node = some confidence := by
  unfold layerNodeConfidence
  cases layering.nodeLayer node with
  | none => exact ⟨_, rfl⟩
  | some myLayer =>
      obtain ⟨targets, htargets⟩ := h.exists_targets node
      obtain ⟨sources, hsources⟩ := h.exists_sources node
      exact ⟨_, by simp only [htargets, hsources, Option.bind_eq_bind, Option.bind_some]; rfl⟩

-- The groups that have nodes left are the layers, numbered one after the other.
theorem Graph.Browsable.exists_buildLayers (h : graph.Browsable) (inputs : LayerInputs F)
    (layering : Layering) (utilities : List UtilityNode) : ∃ layers,
      buildLayers graph inputs layering utilities = some layers ∧
      layers.map ArchLayer.nodes = (layering.groups.map fun group =>
        group.filter fun node => node ∉ utilitySet utilities).filter (fun group => !group.isEmpty) ∧
      layers.map ArchLayer.level = List.range layers.length := by
  let groups := layering.groups.map fun group =>
    group.filter fun node => node ∉ utilitySet utilities
  have hread : ∀ group ∈ groups.zipIdx.filter fun group => !group.1.isEmpty,
      ∃ layer, archLayer graph inputs layering group = some layer := by
    intro group _
    have hconfidence : ∀ node ∈ group.1,
        ∃ confidence : F, layerNodeConfidence graph layering node = some confidence :=
      fun node _ => h.exists_layerNodeConfidence layering node
    obtain ⟨confidences, hconfidences, -⟩ := exists_mapM hconfidence
    exact ⟨_, by rw [archLayer, hconfidences]; rfl⟩
  have hnodes : ∀ group layer, archLayer graph inputs layering group = some layer →
      layer.nodes = group.1 := by
    intro group layer hlayer
    obtain ⟨confidences, -, hrest⟩ := Option.bind_eq_some_iff.mp hlayer
    obtain rfl := Option.some.inj hrest
    rfl
  obtain ⟨built, hbuilt, -⟩ := exists_mapM hread
  refine ⟨_, Option.bind_eq_some_iff.mpr ⟨built, hbuilt, rfl⟩, ?_, ?_⟩
  · calc (built.zipIdx.map fun layer => { layer.1 with level := layer.2 }).map ArchLayer.nodes
        = (built.zipIdx.map Prod.fst).map ArchLayer.nodes := by
          rw [List.map_map, List.map_map]
          rfl
      _ = (groups.zipIdx.filter fun group => !group.1.isEmpty).map Prod.fst := by
          rw [List.zipIdx_map_fst]
          exact map_mapM hnodes hbuilt
      _ = (groups.zipIdx.map Prod.fst).filter fun group => !group.isEmpty := by
          rw [List.filter_map]
          rfl
      _ = groups.filter fun group => !group.isEmpty := by
          rw [List.zipIdx_map_fst]
  · rw [List.length_map, List.length_zipIdx, List.map_map, List.range_eq_range',
      ← List.zipIdx_map_snd]
    rfl

-- The nodes of the layers are those of the groups that are not removed.
omit [LayerF32 F] in
theorem nodes_eq_filter {removed : List Nat} {groups : List (List Nat)}
    (hlayers : layers.map ArchLayer.nodes =
      (groups.map fun group => group.filter fun node => node ∉ removed).filter
        fun group => !group.isEmpty) :
    layers.flatMap ArchLayer.nodes = groups.flatten.filter fun node => node ∉ removed := by
  rw [List.flatMap_def, hlayers, List.flatten_filter_not_isEmpty, List.filter_flatten]

end Layers

section Detection

variable [LayerF32 F] [FiniteF32 W F]

-- Each candidate is in one layer or removed as a utility node.
structure LayerDetectionResult.Partitions (result : LayerDetectionResult F)
    (candidates : List Nat) (maxLayers : UInt8) : Prop where
  nodes : (result.layers.flatMap ArchLayer.nodes ++ utilitySet result.utilityNodes).Perm candidates
  levels : result.layers.map ArchLayer.level = List.range result.layers.length
  bound : result.layers.length ≤ max 1 maxLayers.toNat

theorem LayerDetector.detectCandidates_eq {detector : LayerDetector} {inputs : LayerInputs F}
    {candidates : List Nat} {sccs : List (List Nat)} {edges : List (Nat × Nat)} {depth : Nat → Nat}
    {layers : List (ArchLayer F)} {circular upward : List (LayerViolation F)}
    {layered : List (List LayeredEdge)} (hsccs : graph.tarjanScc candidates = some sccs)
    (hedges : dagEdges graph candidates sccs = some edges)
    (hdepth : layerDepths inputs.hashOrder edges candidates sccs = some depth)
    (hutilities : (Layering.mk candidates sccs (layerGroups detector inputs.pagerank candidates
      depth)).detectUtilities graph = some utilities)
    (hlayers : buildLayers graph inputs (Layering.mk candidates sccs (layerGroups detector
      inputs.pagerank candidates depth)) utilities = some layers)
    (hcircular : circularViolations graph layers sccs = some circular)
    (hlayered : candidates.mapM (layeredEdgesOf graph layers candidates (utilitySet utilities)) =
      some layered)
    (hupward : (layered.flatten.filter fun edge => edge.targetLayer < edge.sourceLayer).mapM
      (upwardViolation graph layers) = some upward) :
    detector.detectCandidates graph inputs candidates = some {
      layers := layers
      violations := circular ++ upward
      utilityNodes := utilities
      hasCycles := !sccs.isEmpty
      layerSeparationScore := layerSeparationScore candidates sccs layered.flatten
      totalNodesClassified := (layers.map fun layer => layer.nodes.length).sum } := by
  simp only [LayerDetector.detectCandidates, hsccs, hedges, hdepth, hutilities, hlayers, hcircular,
    hlayered, hupward, Option.bind_eq_bind, Option.bind_some]

theorem Graph.Browsable.exists_detectCandidates (h : graph.Browsable) (detector : LayerDetector)
    (inputs : LayerInputs F) {candidates : List Nat}
    (hcandidates : candidates.Sublist (List.range graph.nodes.count)) : ∃ result,
      detector.detectCandidates graph inputs candidates = some result ∧
      result.Partitions candidates detector.maxLayers := by
  have hlt : ∀ node ∈ candidates, node < graph.nodes.count :=
    fun node hnode => List.mem_range.mp (hcandidates.subset hnode)
  have hnodup := List.nodup_range.sublist hcandidates
  obtain ⟨sccs, hsccs, hlists⟩ := h.readable.exists_tarjanScc candidates
  obtain ⟨edges, hedges⟩ := h.exists_dagEdges candidates sccs
  obtain ⟨depth, hdepth⟩ := exists_layerDepths inputs.hashOrder_perm edges candidates sccs
  have hgroups := flatten_layerGroups detector inputs.pagerank candidates depth
  have hfew := length_layerGroups detector inputs.pagerank candidates depth
  obtain ⟨utilities, hutilities, hremoved, hinside⟩ := h.exists_detectUtilities
    ⟨candidates, sccs, layerGroups detector inputs.pagerank candidates depth⟩ hnodup
  obtain ⟨layers, hlayers, hnodes, hlevels⟩ := h.exists_buildLayers inputs
    ⟨candidates, sccs, layerGroups detector inputs.pagerank candidates depth⟩ utilities
  obtain ⟨circular, hcircular⟩ := h.exists_circularViolations layers hlists hlt
  obtain ⟨layered, hlayered, hbetween⟩ :=
    h.exists_layered layers candidates (utilitySet utilities)
  obtain ⟨upward, hupward, -⟩ := exists_mapM fun edge
      (hedge : edge ∈ layered.flatten.filter fun edge => edge.targetLayer < edge.sourceLayer) => by
    obtain ⟨hsource, hedge⟩ := hbetween edge (List.mem_filter.mp hedge).1
    exact h.exists_upwardViolation layers (hlt _ hsource) (hlt _ hedge.target) hedge.slot
  refine ⟨_, LayerDetector.detectCandidates_eq hsccs hedges hdepth hutilities hlayers hcircular
    hlayered hupward, ?_⟩
  constructor
  case nodes =>
    dsimp only
    rw [nodes_eq_filter hnodes]
    exact ((hgroups.filter _).append_right _).trans (filter_notMem_perm hnodup hremoved hinside)
  case levels => exact hlevels
  case bound =>
    have hlength := congrArg List.length hnodes
    rw [List.length_map] at hlength
    have hkept := hlength.trans_le (List.length_filter_le _ _)
    rw [List.length_map] at hkept
    exact hkept.trans hfew

-- The layers and the removed utility nodes partition the candidates, for every graph that is built
-- and every configuration.
theorem LayerDetector.detect_partitions [Zero W] (detector : LayerDetector)
    (edits : List (GraphEdit W T)) (inputs : LayerInputs F) (scope : Option String)
    (nodeTypeFilter : List NodeType) (excludeTests : Bool) : ∃ candidates,
      layerCandidates (GraphEdit.run edits) scope nodeTypeFilter excludeTests = some candidates ∧
      candidates.Nodup ∧
      ((candidates = [] ∧ detector.detect (GraphEdit.run edits) inputs scope nodeTypeFilter
          excludeTests = some (.error .EmptyGraph)) ∨
        ∃ result, detector.detect (GraphEdit.run edits) inputs scope nodeTypeFilter excludeTests =
          some (.ok result) ∧ result.Partitions candidates detector.maxLayers) := by
  have hgraph := GraphEdit.browsable_run F edits
  generalize GraphEdit.run edits = graph at hgraph ⊢
  obtain ⟨candidates, hcandidates, hsub⟩ :=
    hgraph.exists_layerCandidates scope nodeTypeFilter excludeTests
  refine ⟨candidates, hcandidates, List.nodup_range.sublist hsub, ?_⟩
  unfold LayerDetector.detect
  by_cases hnone : graph.numNodes = 0
  · have hcount : graph.nodes.count = 0 := hnone
    rw [hcount] at hsub
    rw [if_pos hnone]
    exact .inl ⟨List.sublist_nil.mp hsub, rfl⟩
  · rw [if_neg hnone, hcandidates, Option.bind_eq_bind, Option.bind_some]
    by_cases hempty : candidates = []
    · subst hempty
      exact .inl ⟨rfl, rfl⟩
    · rw [if_neg (by simpa using hempty)]
      obtain ⟨result, hresult, hpartitions⟩ := hgraph.exists_detectCandidates detector inputs hsub
      exact .inr ⟨result, by rw [hresult, Option.map_some], hpartitions⟩

end Detection

end M1nd.Core
