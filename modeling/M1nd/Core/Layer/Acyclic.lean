import M1nd.Core.Layer.Longest
import M1nd.Core.Layer.Partition

namespace M1nd.Core

open M1nd.Library.Components
open M1nd.Library.Loops

variable {W F T : Type} {graph : Graph W T} {candidates : List Nat}

section Dependencies

-- A slot of a candidate that leads to a candidate, whatever its relation.
def Graph.DependsOn (graph : Graph W T) (candidates : List Nat) (source target : Nat) : Prop :=
  source ∈ candidates ∧ target ∈ candidates ∧
    ∃ j ∈ graph.csr.outRange source, graph.csr.targets[j]? = some target

-- No two slots of a candidate lead to the same candidate.
def Graph.Unparallel (graph : Graph W T) (candidates : List Nat) : Prop :=
  ∀ source ∈ candidates, ∀ j ∈ graph.csr.outRange source, ∀ k ∈ graph.csr.outRange source,
    ∀ target ∈ candidates, graph.csr.targets[j]? = some target →
      graph.csr.targets[k]? = some target → j = k

theorem CsrGraph.nodup_outRange (csr : CsrGraph W) (node : Nat) : (csr.outRange node).Nodup := by
  unfold CsrGraph.outRange
  split
  · exact List.nodup_nil
  · exact List.nodup_range'

-- Without components the edges are the slots between different candidates.
def slotEdge (graph : Graph W T) (candidates : List Nat) (node j : Nat) : Option (Nat × Nat) :=
  graph.csr.targets[j]?.bind fun target =>
    if target ∈ candidates ∧ node ≠ target then some (node, target) else none

theorem slotEdge_eq_some {node j : Nat} {edge : Nat × Nat} :
    slotEdge graph candidates node j = some edge ↔ graph.csr.targets[j]? = some edge.2 ∧
      edge.2 ∈ candidates ∧ node ≠ edge.2 ∧ edge.1 = node := by
  unfold slotEdge
  rw [Option.bind_eq_some_iff]
  constructor
  · rintro ⟨target, htarget, hedge⟩
    split at hedge
    · rename_i hinside
      obtain rfl := Option.some.inj hedge
      exact ⟨htarget, hinside.1, hinside.2, rfl⟩
    · cases hedge
  · rintro ⟨htarget, hinside, hne, rfl⟩
    exact ⟨edge.2, htarget, if_pos ⟨hinside, hne⟩⟩

theorem Graph.Browsable.dagEdges_nil (h : graph.Browsable) (candidates : List Nat) :
    dagEdges graph candidates [] = some (candidates.flatMap fun node =>
      (graph.csr.outRange node).filterMap (slotEdge graph candidates node)) := by
  have hedge : ∀ node, ∀ j ∈ graph.csr.outRange node,
      dagEdge graph candidates [] node j = some (slotEdge graph candidates node j) := by
    intro node j hj
    obtain ⟨-, -, target, -, -, htarget⟩ := h.readable node j hj
    unfold dagEdge slotEdge
    rw [htarget, Option.bind_eq_bind, Option.bind_some, Option.bind_some, effective_nil,
      effective_nil]
    by_cases hinside : target ∈ candidates
    · by_cases hsame : node = target <;> simp [hinside, hsame]
    · simp [hinside]
  have hnode : ∀ node ∈ candidates,
      (graph.csr.outRange node).mapM (dagEdge graph candidates [] node) =
        some ((graph.csr.outRange node).map (slotEdge graph candidates node)) :=
    fun node _ => mapM_eq_map (hedge node)
  rw [dagEdges, mapM_eq_map hnode, Option.bind_eq_bind, Option.bind_some, ← List.flatMap_def,
    List.filterMap_flatMap]
  simp only [List.filterMap_map, Function.id_comp]

theorem mem_slotEdges {edge : Nat × Nat} :
    edge ∈ (candidates.flatMap fun node =>
      (graph.csr.outRange node).filterMap (slotEdge graph candidates node)) ↔
      graph.DependsOn candidates edge.1 edge.2 ∧ edge.1 ≠ edge.2 := by
  simp only [List.mem_flatMap, List.mem_filterMap, slotEdge_eq_some]
  constructor
  · rintro ⟨node, hnode, j, hj, htarget, hinside, hne, rfl⟩
    exact ⟨⟨hnode, hinside, j, hj, htarget⟩, hne⟩
  · rintro ⟨⟨hnode, hinside, j, hj, htarget⟩, hne⟩
    exact ⟨edge.1, hnode, j, hj, htarget, hinside, hne, rfl⟩

theorem Graph.Unparallel.nodup_slotEdges (h : graph.Unparallel candidates)
    (hnodup : candidates.Nodup) :
    (candidates.flatMap fun node =>
      (graph.csr.outRange node).filterMap (slotEdge graph candidates node)).Nodup := by
  rw [List.nodup_flatMap]
  constructor
  · intro node hnode
    rw [List.Nodup, List.pairwise_filterMap]
    refine (graph.csr.nodup_outRange node).imp_of_mem ?_
    intro j k hj hk hne edge hedge other hother hsame
    obtain ⟨htarget, hinside, -⟩ := slotEdge_eq_some.mp hedge
    obtain ⟨htarget', -⟩ := slotEdge_eq_some.mp hother
    exact hne (h node hnode j hj k hk _ hinside htarget (hsame ▸ htarget'))
  · refine hnodup.imp ?_
    intro node other hne edge hedge hedge'
    obtain ⟨j, -, hj⟩ := List.mem_filterMap.mp hedge
    obtain ⟨k, -, hk⟩ := List.mem_filterMap.mp hedge'
    obtain ⟨-, -, -, hnode⟩ := slotEdge_eq_some.mp hj
    obtain ⟨-, -, -, hother⟩ := slotEdge_eq_some.mp hk
    exact hne (hnode.symm.trans hother)

-- A cycle of imports is one of dependencies.
theorem tarjanScc_eq_nil (h : graph.Readable)
    (hacyclic : ∀ node, ¬ Relation.TransGen (graph.DependsOn candidates) node node) :
    graph.tarjanScc candidates = some [] := by
  obtain ⟨sccs, hsccs, hlists⟩ := h.exists_tarjanScc candidates
  rw [hsccs, Option.some.injEq, List.eq_nil_iff_forall_not_mem]
  intro scc hscc
  obtain ⟨hnodup, hlong, hcomponent⟩ := hlists.component scc hscc
  obtain ⟨a, b, rest, rfl⟩ : ∃ a b rest, scc = a :: b :: rest := by
    cases scc with
    | nil => simp at hlong
    | cons a scc =>
        cases scc with
        | nil => simp at hlong
        | cons b rest => exact ⟨a, b, rest, rfl⟩
  have hne : a ≠ b := by
    rintro rfl
    simp at hnodup
  obtain ⟨hab, hba⟩ := (hcomponent.mem_iff List.mem_cons_self).mp
    (List.mem_cons_of_mem a (List.mem_cons_self (a := b) (l := rest)))
  have hdepends : ∀ a b, graph.CycleEdge candidates a b → graph.DependsOn candidates a b := by
    rintro a b ⟨ha, hb, j, hj, htarget, -⟩
    exact ⟨ha, hb, j, hj, htarget⟩
  have hforth := Relation.reflTransGen_iff_eq_or_transGen.mp hab
  obtain heq | hforth := hforth
  · exact hne heq.symm
  · exact hacyclic a ((Relation.TransGen.mono hdepends _ _ hforth).trans_left
      (Relation.ReflTransGen.mono hdepends _ _ hba))

end Dependencies

section Order

variable {layers : List (ArchLayer F)} {depth : Nat → Nat} {removed : List Nat}

-- The nodes of a layer have one depth, those of the layers behind it a larger one.
structure Stacked (depth : Nat → Nat) (layers : List (ArchLayer F)) : Prop where
  level : layers.map ArchLayer.level = List.range layers.length
  alike : ∀ layer ∈ layers, ∀ a ∈ layer.nodes, ∀ b ∈ layer.nodes, depth a = depth b
  below : layers.Pairwise fun upper lower =>
    ∀ a ∈ upper.nodes, ∀ b ∈ lower.nodes, depth a < depth b

theorem stacked_depthGroups (hlevel : layers.map ArchLayer.level = List.range layers.length)
    (hnodes : layers.map ArchLayer.nodes = ((depthGroups candidates depth).map fun group =>
      group.filter fun node => node ∉ removed).filter fun group => !group.isEmpty) :
    Stacked depth layers := by
  have hsub : (layers.map ArchLayer.nodes).Sublist ((depthGroups candidates depth).map fun group =>
      group.filter fun node => node ∉ removed) := hnodes ▸ List.filter_sublist
  have hgroup : ∀ d, ∀ a ∈ (candidates.filter fun node => depth node = d).filter
      (fun node => node ∉ removed), depth a = d := by
    intro d a ha
    simpa using (List.mem_filter.mp (List.mem_filter.mp ha).1).2
  constructor
  case level => exact hlevel
  case alike =>
    intro layer hlayer a ha b hb
    obtain ⟨group, hmem, hsame⟩ := List.mem_map.mp (hsub.subset (List.mem_map_of_mem hlayer))
    obtain ⟨d, -, rfl⟩ := List.mem_map.mp hmem
    rw [← hsame] at ha hb
    exact (hgroup d a ha).trans (hgroup d b hb).symm
  case below =>
    rw [← List.pairwise_map (f := ArchLayer.nodes) (R := fun upper lower : List Nat =>
      ∀ a ∈ upper, ∀ b ∈ lower, depth a < depth b)]
    refine List.Pairwise.sublist hsub ?_
    rw [depthGroups, List.map_map, List.pairwise_map]
    refine List.pairwise_lt_range.imp ?_
    intro d e hlt a ha b hb
    rw [hgroup d a ha, hgroup e b hb]
    exact hlt

theorem Stacked.exists_layer (h : Stacked depth layers) {node level : Nat}
    (hlevel : finalLayer layers node = some level) :
    ∃ layer, layers[level]? = some layer ∧ node ∈ layer.nodes := by
  obtain ⟨layer, hfind, rfl⟩ := Option.map_eq_some_iff.mp hlevel
  obtain ⟨i, hi⟩ := List.mem_iff_getElem?.mp (List.mem_of_find?_eq_some hfind)
  have hlt := (List.getElem?_eq_some_iff.mp hi).1
  have hat := congrArg (fun levels : List Nat => levels[i]?) h.level
  simp only [List.getElem?_map, hi, Option.map_some, List.getElem?_range hlt,
    Option.some.injEq] at hat
  refine ⟨layer, hat ▸ hi, ?_⟩
  simpa using List.find?_some hfind

theorem Stacked.lt (h : Stacked depth layers) {source target sourceLayer targetLayer : Nat}
    (hsource : finalLayer layers source = some sourceLayer)
    (htarget : finalLayer layers target = some targetLayer) (hlt : depth source < depth target) :
    sourceLayer < targetLayer := by
  obtain ⟨upper, hupper, hin⟩ := h.exists_layer hsource
  obtain ⟨lower, hlower, hin'⟩ := h.exists_layer htarget
  by_contra hle
  rw [Nat.not_lt] at hle
  obtain heq | hless := Nat.eq_or_lt_of_le hle
  · rw [heq, hupper, Option.some.injEq] at hlower
    have hsame := h.alike upper (List.mem_of_getElem? hupper) source hin target (hlower ▸ hin')
    omega
  · obtain ⟨hj, rfl⟩ := List.getElem?_eq_some_iff.mp hlower
    obtain ⟨hi, rfl⟩ := List.getElem?_eq_some_iff.mp hupper
    have hdeep := List.pairwise_iff_getElem.mp h.below _ _ hj hi hless target hin' source hin
    omega

end Order

section Detection

variable [LayerF32 F] [FiniteF32 W F]

-- What a detection says where nothing depends on itself: every candidate has a layer or is a
-- utility node, each dependency leads to a deeper layer, and there is nothing to report.
structure LayerDetectionResult.Descends (result : LayerDetectionResult F) (graph : Graph W T)
    (candidates : List Nat) (maxLayers : UInt8) : Prop
    extends result.Partitions candidates maxLayers where
  deeper : ∀ source target, graph.DependsOn candidates source target →
    ∀ sourceLayer targetLayer, finalLayer result.layers source = some sourceLayer →
      finalLayer result.layers target = some targetLayer → sourceLayer < targetLayer
  violations : result.violations = []

theorem Graph.Browsable.exists_descends (h : graph.Browsable) (detector : LayerDetector)
    (inputs : LayerInputs F) (hcandidates : candidates.Sublist (List.range graph.nodes.count))
    (hne : candidates ≠ [])
    (hacyclic : ∀ node, ¬ Relation.TransGen (graph.DependsOn candidates) node node)
    (hsingle : graph.Unparallel candidates)
    (hdeep : ∀ path : List Nat, path.IsChain (graph.DependsOn candidates) →
      (∀ node ∈ path, node ∈ candidates) → path.length ≤ detector.maxLayers.toNat)
    (hsmall : detector.minNodesPerLayer ≤ 1) : ∃ result,
      detector.detectCandidates graph inputs candidates = some result ∧
      result.Descends graph candidates detector.maxLayers := by
  have hsccs := tarjanScc_eq_nil h.readable hacyclic
  have hedges := h.dagEdges_nil candidates
  have hmem : ∀ edge, edge ∈ (candidates.flatMap fun node =>
      (graph.csr.outRange node).filterMap (slotEdge graph candidates node)) ↔
        graph.DependsOn candidates edge.1 edge.2 := by
    intro edge
    rw [mem_slotEdges, and_iff_left_iff_imp]
    intro hedge hloop
    exact hacyclic edge.1 (.single (hloop ▸ hedge))
  have hunique := hsingle.nodup_slotEdges (List.nodup_range.sublist hcandidates)
  generalize (candidates.flatMap fun node =>
    (graph.csr.outRange node).filterMap (slotEdge graph candidates node)) = edges
      at hedges hmem hunique
  have hinside : ∀ edge ∈ edges, edge.1 ∈ candidates := fun edge hedge => ((hmem edge).mp hedge).1
  have hbound : ∀ path : List Nat, (path.IsChain fun a b => (a, b) ∈ edges) →
      (∀ node ∈ path, node ∈ candidates) → path.length ≤ detector.maxLayers.toNat := by
    simp only [hmem]
    exact hdeep
  obtain ⟨depth, hdepth⟩ := exists_layerDepths inputs.hashOrder_perm edges candidates []
  have hdeepens := layerDepths_deepens inputs.hashOrder_perm hunique hinside hbound hdepth
  have hgroups := hdeepens.layerGroups_eq hinside hne hsmall hbound inputs.pagerank
  obtain ⟨result, hresult, hpartitions⟩ := h.exists_detectCandidates detector inputs hcandidates
  refine ⟨result, hresult, ?_⟩
  simp only [LayerDetector.detectCandidates, hsccs, hedges, hdepth, hgroups, Option.bind_eq_bind,
    Option.bind_some, Option.bind_eq_some_iff] at hresult
  obtain ⟨utilities, -, layers, hlayers, circular, hcircular, layered, hlayered, upward, hupward,
    hresult⟩ := hresult
  obtain ⟨built, hbuilt, hnodes, hlevel⟩ :=
    h.exists_buildLayers inputs ⟨candidates, [], depthGroups candidates depth⟩ utilities
  obtain rfl := Option.some.inj (hlayers.symm.trans hbuilt)
  have hstacked := stacked_depthGroups hlevel hnodes
  have hdeeper : ∀ source target, graph.DependsOn candidates source target →
      ∀ sourceLayer targetLayer, finalLayer layers source = some sourceLayer →
        finalLayer layers target = some targetLayer → sourceLayer < targetLayer := by
    intro source target hdepends sourceLayer targetLayer hsource htarget
    exact hstacked.lt hsource htarget (hdeepens.deeper _ ((hmem (source, target)).mpr hdepends))
  obtain ⟨found, hfound, hbetween⟩ := h.exists_layered layers candidates (utilitySet utilities)
  obtain rfl := Option.some.inj (hlayered.symm.trans hfound)
  have hnone : (layered.flatten.filter fun edge => edge.targetLayer < edge.sourceLayer) = [] := by
    rw [List.filter_eq_nil_iff]
    intro edge hedge
    obtain ⟨hsource, hlayer⟩ := hbetween edge hedge
    have hlt := hdeeper _ _ ⟨hsource, hlayer.target, edge.slot, hlayer.slot, hlayer.leads⟩ _ _
      hlayer.sourceLayer hlayer.targetLayer
    simpa using Nat.le_of_lt hlt
  rw [hnone] at hupward
  obtain rfl := Option.some.inj hupward
  obtain rfl := Option.some.inj hcircular
  obtain rfl := Option.some.inj hresult
  exact ⟨hpartitions, hdeeper, rfl⟩

-- Without parallel dependencies, with room for the longest path and for layers of one node, the
-- layers of an acyclic graph follow its dependencies.
theorem LayerDetector.detect_descends [Zero W] (detector : LayerDetector)
    (edits : List (GraphEdit W T)) (inputs : LayerInputs F) (scope : Option String)
    (nodeTypeFilter : List NodeType) (excludeTests : Bool) (candidates : List Nat)
    (hcandidates : layerCandidates (GraphEdit.run edits) scope nodeTypeFilter excludeTests =
      some candidates) (hne : candidates ≠ [])
    (hacyclic : ∀ node, ¬ Relation.TransGen ((GraphEdit.run edits).DependsOn candidates) node node)
    (hsingle : (GraphEdit.run edits).Unparallel candidates)
    (hdeep : ∀ path : List Nat, path.IsChain ((GraphEdit.run edits).DependsOn candidates) →
      (∀ node ∈ path, node ∈ candidates) → path.length ≤ detector.maxLayers.toNat)
    (hsmall : detector.minNodesPerLayer ≤ 1) : ∃ result,
      detector.detect (GraphEdit.run edits) inputs scope nodeTypeFilter excludeTests =
        some (.ok result) ∧
      result.Descends (GraphEdit.run edits) candidates detector.maxLayers := by
  have hgraph := GraphEdit.browsable_run F edits
  generalize GraphEdit.run edits = graph at hgraph hcandidates hacyclic hsingle hdeep ⊢
  obtain ⟨found, hfound, hsub⟩ := hgraph.exists_layerCandidates scope nodeTypeFilter excludeTests
  obtain rfl := Option.some.inj (hcandidates.symm.trans hfound)
  obtain ⟨result, hresult, hdescends⟩ :=
    hgraph.exists_descends detector inputs hsub hne hacyclic hsingle hdeep hsmall
  refine ⟨result, ?_, hdescends⟩
  have hnodes : graph.numNodes ≠ 0 := by
    intro hzero
    have hcount : graph.nodes.count = 0 := hzero
    rw [hcount] at hsub
    exact hne (List.sublist_nil.mp hsub)
  unfold LayerDetector.detect
  rw [if_neg hnodes, hcandidates, Option.bind_eq_bind, Option.bind_some,
    if_neg (by simpa using hne), hresult, Option.map_some]

end Detection

section Examples

-- Where dependencies lead to later nodes, there are no cycles and no paths longer than the list.
theorem acyclic_of_forward
    (hforward : ∀ source target, graph.DependsOn candidates source target → source < target)
    (node : Nat) : ¬ Relation.TransGen (graph.DependsOn candidates) node node := by
  intro hcycle
  have hlt := Relation.TransGen.mono hforward _ _ hcycle
  rw [Relation.transGen_eq_self] at hlt
  exact Nat.lt_irrefl node hlt

theorem length_le_of_forward
    (hforward : ∀ source target, graph.DependsOn candidates source target → source < target)
    {path : List Nat} (hpath : path.IsChain (graph.DependsOn candidates))
    (hinside : ∀ node ∈ path, node ∈ candidates) : path.length ≤ candidates.length := by
  have hsorted : path.Pairwise (· < ·) := (hpath.imp hforward).pairwise
  exact (List.Nodup.subperm (hsorted.imp Nat.ne_of_lt) hinside).length_le

theorem forward_iff (graph : Graph W T) (candidates : List Nat) :
    (∀ source target, graph.DependsOn candidates source target → source < target) ↔
      ∀ source ∈ candidates, ∀ j ∈ graph.csr.outRange source, ∀ target ∈ candidates,
        graph.csr.targets[j]? = some target → source < target := by
  constructor
  · intro h source hsource j hj target htarget hlead
    exact h source target ⟨hsource, htarget, j, hj, hlead⟩
  · rintro h source target ⟨hsource, htarget, j, hj, hlead⟩
    exact h source hsource j hj target htarget hlead

instance exactLayers : LayerF32 Rat where
  ofCount n := n
  maxValue := 340282346638528859811704183484516925440
  half := 1 / 2

def plainInputs : LayerInputs Rat where
  pagerank _ := 0
  hashOrder nodes := nodes
  hashOrder_perm _ := .refl _
  naming _ level _ := (s!"Layer {level}", "")

def twoCalls : List (GraphEdit Rat Nat) :=
  [.operate (.addNode "a" "A" .File [] 0 0), .operate (.addNode "b" "B" .File [] 0 0),
    .operate (.addNode "c" "C" .File [] 0 0), .operate (.addEdge 0 1 "calls" 1 .Forward false 0),
    .operate (.addEdge 1 2 "imports" 1 .Forward false 0)]

theorem LayerDetector.detect_twoCalls :
    let _ := exactValues Rat
    ∃ result, (LayerDetector.mk 8 0).detect (GraphEdit.run (twoCalls ++ [.operate .finalize]))
        plainInputs none [] false = some (.ok result) ∧
      result.Descends (GraphEdit.run (twoCalls ++ [.operate .finalize])) [0, 1, 2] 8 := by
  intro _
  have hedges : GraphEdit.run (twoCalls ++ [.operate .finalize]) =
    (GraphEdit.run twoCalls).rebuildCsr := rfl
  have hplaced : placements (GraphEdit.run twoCalls).csr.pendingEdges =
      (GraphEdit.run twoCalls).csr.pendingEdges.zipIdx.flatMap fun indexed =>
        indexed.1.placements indexed.2 := placements_of_sorted (by decide +kernel)
  have hforward : ∀ source target,
      (GraphEdit.run (twoCalls ++ [.operate .finalize])).DependsOn [0, 1, 2] source target →
        source < target := by
    rw [forward_iff, hedges, Graph.rebuildCsr, hplaced]
    decide +kernel
  have hsingle : (GraphEdit.run (twoCalls ++ [.operate .finalize])).Unparallel [0, 1, 2] := by
    unfold Graph.Unparallel
    rw [hedges, Graph.rebuildCsr, hplaced]
    decide +kernel
  have hcandidates : layerCandidates (GraphEdit.run (twoCalls ++ [.operate .finalize])) none []
      false = some [0, 1, 2] := by decide +kernel
  have hdeep : ∀ path : List Nat,
      path.IsChain ((GraphEdit.run (twoCalls ++ [.operate .finalize])).DependsOn [0, 1, 2]) →
        (∀ node ∈ path, node ∈ [0, 1, 2]) → path.length ≤ (8 : UInt8).toNat :=
    fun path hpath hinside => (length_le_of_forward hforward hpath hinside).trans (by decide)
  have hdescends := LayerDetector.detect_descends (W := Rat) (F := Rat) (T := Nat)
    (LayerDetector.mk 8 0) (twoCalls ++ [.operate .finalize]) plainInputs none [] false [0, 1, 2]
  exact hdescends hcandidates (by simp) (acyclic_of_forward hforward) hsingle hdeep (by decide)

-- A node that the one other layer depends on is taken out of the layers.
def oneCall : List (GraphEdit Rat Nat) :=
  [.operate (.addNode "a" "A" .File [] 0 0), .operate (.addNode "b" "B" .File [] 0 0),
    .operate (.addEdge 0 1 "calls" 1 .Forward false 0), .operate .finalize]

theorem LayerDetector.detect_oneCall :
    let _ := exactValues Rat
    layerCandidates (GraphEdit.run oneCall) none [] false = some [0, 1] ∧
      (∀ node, ¬ Relation.TransGen ((GraphEdit.run oneCall).DependsOn [0, 1]) node node) ∧
      (∀ path : List Nat, path.IsChain ((GraphEdit.run oneCall).DependsOn [0, 1]) →
        (∀ node ∈ path, node ∈ [0, 1]) → path.length ≤ 8) ∧
      (∀ j < (GraphEdit.run oneCall).csr.numEdges,
        (relationName (GraphEdit.run oneCall) j).any layerCycleRelationCandidate = true) ∧
      ∃ result, (LayerDetector.mk 8 0).detect (GraphEdit.run oneCall) plainInputs none [] false =
          some (.ok result) ∧
        ¬ ∀ node ∈ [0, 1], (finalLayer result.layers node).isSome = true := by
  intro _
  have hforward := (forward_iff (GraphEdit.run oneCall) [0, 1]).mpr (by decide +kernel)
  have hcandidates : layerCandidates (GraphEdit.run oneCall) none [] false = some [0, 1] := by
    decide +kernel
  refine ⟨hcandidates, acyclic_of_forward hforward, ?_, by decide +kernel, ?_⟩
  · exact fun path hpath hinside =>
      (length_le_of_forward hforward hpath hinside).trans (by decide)
  · have hlayers : ((LayerDetector.mk 8 0).detect (GraphEdit.run oneCall) plainInputs none []
        false).map (fun result => result.toOption.map fun result =>
          (finalLayer result.layers 1).isSome) = some (some false) := by decide +kernel
    obtain ⟨outcome, houtcome, hresult⟩ := Option.map_eq_some_iff.mp hlayers
    obtain ⟨result, hresult, hnone⟩ := Option.map_eq_some_iff.mp hresult
    refine ⟨result, ?_, fun hall => ?_⟩
    · cases outcome with
      | error error => cases hresult
      | ok other => rw [houtcome, ← Option.some.inj hresult]
    · rw [hall 1 (by simp)] at hnone
      cases hnone

end Examples

end M1nd.Core
