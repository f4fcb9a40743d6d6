import M1nd.Core.Snapshot.Decode
import M1nd.Core.Graph.Rewrites

namespace M1nd.Core

open M1nd.Library.Checks
open M1nd.Library.Runs

variable {W F T : Type}

namespace Graph

variable {graph next : Graph W T}

-- The plasticity array holds the weights of the slots, and behind them those of the staged edges.
def InStep (graph : Graph W T) : Prop :=
  graph.edgePlasticity.currentWeight =
    graph.csr.weights ++ graph.csr.pendingEdges.map PendingEdge.weight

theorem inStep_new : (Graph.new : Graph W T).InStep := rfl

theorem InStep.of_csr (h : graph.InStep) (hcsr : next.csr = graph.csr)
    (hplasticity : next.edgePlasticity = graph.edgePlasticity) : next.InStep := by
  unfold InStep at h ⊢
  rw [hcsr, hplasticity, h]

theorem InStep.getElem? (h : graph.InStep) {j : Nat} (hj : j < graph.csr.weights.length) :
    graph.edgePlasticity.currentWeight[j]? = graph.csr.weights[j]? := by
  rw [h, List.getElem?_append_left hj]

theorem InStep.addNode (h : graph.InStep) (externalId label : String) (nodeType : NodeType)
    (tags : List String) (lastModified : T) (changeFrequency : W) :
    (graph.addNode externalId label nodeType tags lastModified changeFrequency).2.InStep := by
  obtain ⟨strings, he⟩ | ⟨nodes, strings, idToNode, -, he⟩ :=
    graph.addNode_cases externalId label nodeType tags lastModified changeFrequency
  · rw [he]
    exact h.of_csr rfl rfl
  · rw [he]
    exact h.of_csr rfl rfl

theorem InStep.addEdge (h : graph.InStep) (source target : Nat) (relation : String) (weight : W)
    (direction : EdgeDirection) (inhibitory : Bool) (causalStrength : W) :
    (graph.addEdge source target relation weight direction inhibitory causalStrength).2.InStep := by
  unfold Graph.addEdge
  by_cases hsource : graph.nodes.count ≤ source
  · rw [if_pos hsource]
    exact h
  · by_cases htarget : graph.nodes.count ≤ target
    · rw [if_neg hsource, if_pos htarget]
      exact h
    · rw [if_neg hsource, if_neg htarget]
      unfold InStep at h ⊢
      simp only [EdgePlasticity.push, h, SynapseRecord.fresh, List.map_append, List.map_cons,
        List.map_nil, List.append_assoc]

-- A write of the same weight to both arrays.
theorem InStep.set (h : graph.InStep) {slot : Nat} {weight : W}
    (hslot : slot < graph.csr.weights.length ∨ graph.csr.pendingEdges = [])
    (hweights : next.csr.weights = graph.csr.weights.set slot weight)
    (hcurrent : next.edgePlasticity.currentWeight =
      graph.edgePlasticity.currentWeight.set slot weight)
    (hpending : next.csr.pendingEdges = graph.csr.pendingEdges) : next.InStep := by
  unfold InStep at h ⊢
  rw [hweights, hcurrent, hpending, h]
  obtain hlt | hempty := hslot
  · rw [List.set_append_left _ _ hlt]
  · simp [hempty]

variable [Zero W]

-- The slots of a rebuilt CSR get the weights of their edges in both arrays.
theorem Rebuilt.inStep (h : graph.Staged) (hnext : graph.Rebuilt next)
    (hstaged : graph.edgePlasticity.currentWeight =
      graph.csr.pendingEdges.map PendingEdge.weight) : next.InStep := by
  unfold InStep
  rw [hnext.currentWeight, hnext.weights, hnext.pendingEdges, List.map_nil, List.append_nil]
  apply List.map_congr_left
  intro slot hslot
  have hedge := (mem_placements.mp (h.placed_perm.mem_iff.mp hslot)).1
  simp only [EdgePlasticity.row, hstaged, List.getD_eq_getElem?_getD, List.getElem?_map, hedge,
    Option.map_some, Option.getD_some]

theorem InStep.rehydrate (h : graph.InStep) (hlisted : graph.Listed)
    (hbound : graph.csr.numEdges ≤ 2 ^ 32) :
    graph.rehydrateCsrIntoPending.edgePlasticity.currentWeight =
      graph.rehydrateCsrIntoPending.csr.pendingEdges.map PendingEdge.weight := by
  have hlength : graph.csr.weights.length = graph.csr.numEdges := by
    rw [hlisted.weights, hlisted.numEdges]
  have hpending : graph.rehydrateCsrIntoPending.csr.pendingEdges =
      (harvestedSlots graph.csr).map (fun slot => harvestedEdge graph.csr slot.1 slot.2) ++
        graph.csr.pendingEdges := rfl
  have hcurrent : graph.rehydrateCsrIntoPending.edgePlasticity.currentWeight =
      (harvestedSlots graph.csr).map (fun slot => (graph.edgePlasticity.row slot.2).currentWeight) ++
        graph.edgePlasticity.currentWeight.drop graph.csr.numEdges := by
    simp only [rehydrateCsrIntoPending, EdgePlasticity.foldl_push, EdgePlasticity.extendFrom]
  rw [hcurrent, hpending, List.map_append, List.map_map]
  congr 1
  · apply List.map_congr_left
    intro slot hslot
    have hmem : slot.2 ∈ (edgeSlots (graph.csr.offsets.length - 1) graph.csr.offsets).map
        Prod.snd := List.mem_map_of_mem (List.mem_filter.mp hslot).1
    rw [hlisted.indices, List.mem_range, ← hlisted.weights] at hmem
    have hindex : EdgeIdx.new slot.2 = slot.2 :=
      Nat.mod_eq_of_lt (mem_harvestedSlots_lt hlisted hbound slot hslot)
    have hweight := h.getElem? hmem
    simp only [Function.comp_apply, harvestedEdge, CsrGraph.readWeight, hindex,
      EdgePlasticity.row, List.getD_eq_getElem?_getD, hweight]
  · rw [h, ← hlength, List.drop_left]

theorem InStep.finalize (h : graph.InStep) (hsound : graph.Sound) (hlisted : graph.Listed)
    (hbound : graph.finalized = false → graph.csr.numEdges ≤ 2 ^ 32) : graph.finalize.InStep := by
  unfold Graph.finalize
  by_cases hfinal : graph.finalized = true
  · rw [if_pos hfinal]
    exact h
  · rw [if_neg hfinal]
    by_cases hedges : 0 < graph.csr.numEdges
    · rw [if_pos hedges]
      have hstaged := hsound.rehydrated
      exact hstaged.rebuilt.inStep hstaged
        (h.rehydrate hlisted (hbound (Bool.eq_false_iff.mpr hfinal)))
    · rw [if_neg hedges]
      have hnum := hlisted.numEdges
      have hweights := hlisted.weights
      have hempty : graph.csr.weights = [] := List.length_eq_zero_iff.mp (by omega)
      refine hsound.staged.rebuilt.inStep hsound.staged ?_
      rw [h, hempty, List.nil_append]

end Graph

-- What every operation on a graph keeps, and what the claim about its weights needs.
structure Graph.Kept (graph : Graph W T) : Prop where
  sound : graph.Sound
  listed : graph.Listed
  inStep : graph.InStep

theorem Graph.kept_new : (Graph.new : Graph W T).Kept where
  sound := Graph.sound_new
  listed := Graph.listed_new
  inStep := Graph.inStep_new

section Load

variable {graph next : Graph W T}

theorem Graph.Kept.finalize [Zero W] (h : graph.Kept)
    (hbound : graph.finalized = false → graph.csr.numEdges ≤ 2 ^ 32) : graph.finalize.Kept where
  sound := h.sound.finalize
  listed := h.listed.finalize h.sound
  inStep := h.inStep.finalize h.sound h.listed hbound

theorem Graph.Kept.addNode (h : graph.Kept) (externalId label : String) (nodeType : NodeType)
    (tags : List String) (lastModified : T) (changeFrequency : W) :
    (graph.addNode externalId label nodeType tags lastModified changeFrequency).2.Kept where
  sound := h.sound.addNode externalId label nodeType tags lastModified changeFrequency
  listed := h.listed.addNode externalId label nodeType tags lastModified changeFrequency
  inStep := h.inStep.addNode externalId label nodeType tags lastModified changeFrequency

theorem Graph.Kept.addEdge (h : graph.Kept) (source target : Nat) (relation : String) (weight : W)
    (direction : EdgeDirection) (inhibitory : Bool) (causalStrength : W) :
    (graph.addEdge source target relation weight direction inhibitory causalStrength).2.Kept where
  sound := h.sound.addEdge source target relation weight direction inhibitory causalStrength
  listed := h.listed.addEdge source target relation weight direction inhibitory causalStrength
  inStep := h.inStep.addEdge source target relation weight direction inhibitory causalStrength

theorem Graph.Kept.rewritten (h : graph.Kept) (hnext : graph.Rewritten next)
    (hstep : next.InStep) : next.Kept where
  sound := h.sound.rewritten hnext
  listed := h.listed.rewritten hnext
  inStep := hstep

theorem Graph.rewritten_setNodeProvenance (graph : Graph W T) (node : Nat)
    (provenance : ResolvedNodeProvenance) :
    graph.Rewritten (graph.setNodeProvenance node provenance) := by
  unfold Graph.setNodeProvenance
  by_cases hnode : graph.nodes.count ≤ node
  · rw [if_pos hnode]
    exact .refl graph
  · rw [if_neg hnode]
    exact ⟨rfl, rfl, rfl, fun _ hsize => hsize, rfl⟩

theorem Graph.Kept.setNodeProvenance (h : graph.Kept) (node : Nat)
    (provenance : ResolvedNodeProvenance) : (graph.setNodeProvenance node provenance).Kept := by
  refine h.rewritten (graph.rewritten_setNodeProvenance node provenance) (h.inStep.of_csr ?_ ?_)
  · unfold Graph.setNodeProvenance
    split <;> rfl
  · unfold Graph.setNodeProvenance
    split <;> rfl

variable [FiniteF32 W F]

theorem Graph.Kept.buildNode [FiniteF64 T] {format : SnapshotFormat} (h : graph.Kept) {node : NodeSnapshot F T}
    (hnext : buildNode format graph node = .ok next) : next.Kept := by
  obtain ⟨-, -, id, -, rfl⟩ := buildNode_eq_ok.mp hnext
  exact (h.addNode _ _ _ _ _ _).setNodeProvenance id node.provenance

theorem Graph.Kept.buildEdge {format : SnapshotFormat} (h : graph.Kept) {edge : EdgeSnapshotV4 F}
    (hnext : buildEdge format graph edge = .ok next) : next.Kept := by
  obtain ⟨source, -, target, -, idx, -, rfl⟩ := buildEdge_eq_ok.mp hnext
  exact h.addEdge _ _ _ _ _ _ _

theorem Graph.Kept.restoreEdgeSlot (h : graph.Kept) {slot : Nat} {originalWeight currentWeight : F}
    (hnext : restoreEdgeSlot graph slot originalWeight currentWeight = .ok next) : next.Kept := by
  unfold M1nd.Core.restoreEdgeSlot at hnext
  obtain ⟨-, -, hnext⟩ := bind_eq_ok.mp hnext
  split at hnext
  · exact absurd hnext nofun
  · rename_i hlt
    rw [← Except.ok.inj hnext]
    refine h.rewritten ⟨rfl, rfl, List.length_set, fun size hsize => ?_, rfl⟩ ?_
    · exact ⟨List.length_set.trans hsize.originalWeight, List.length_set.trans hsize.currentWeight,
        hsize.strengthenCount, hsize.weakenCount, hsize.ltpApplied, hsize.ltdApplied,
        hsize.lastUsedQuery⟩
    · exact h.inStep.set (.inl (Nat.lt_of_not_le hlt)) rfl rfl rfl

theorem Graph.numEdges_setNodeProvenance (graph : Graph W T) (node : Nat)
    (provenance : ResolvedNodeProvenance) :
    (graph.setNodeProvenance node provenance).csr.numEdges = graph.csr.numEdges :=
  (graph.rewritten_setNodeProvenance node provenance).numEdges

theorem Graph.numEdges_addNode (graph : Graph W T) (externalId label : String)
    (nodeType : NodeType) (tags : List String) (lastModified : T) (changeFrequency : W) :
    (graph.addNode externalId label nodeType tags lastModified changeFrequency).2.csr.numEdges =
      graph.csr.numEdges := by
  obtain ⟨strings, he⟩ | ⟨nodes, strings, idToNode, -, he⟩ :=
    graph.addNode_cases externalId label nodeType tags lastModified changeFrequency
  · rw [he]
  · rw [he]

theorem Graph.numEdges_addEdge (graph : Graph W T) (source target : Nat) (relation : String)
    (weight : W) (direction : EdgeDirection) (inhibitory : Bool) (causalStrength : W) :
    (graph.addEdge source target relation weight direction inhibitory
      causalStrength).2.csr.numEdges = graph.csr.numEdges := by
  unfold Graph.addEdge
  by_cases hsource : graph.nodes.count ≤ source
  · rw [if_pos hsource]
  · by_cases htarget : graph.nodes.count ≤ target
    · rw [if_neg hsource, if_pos htarget]
    · rw [if_neg hsource, if_neg htarget]
      rfl

theorem numEdges_buildNode [FiniteF64 T] {format : SnapshotFormat} {node : NodeSnapshot F T}
    (hnext : buildNode format graph node = .ok next) :
    next.csr.numEdges = graph.csr.numEdges := by
  obtain ⟨-, -, id, -, rfl⟩ := buildNode_eq_ok.mp hnext
  rw [Graph.numEdges_setNodeProvenance, Graph.numEdges_addNode]

theorem numEdges_buildEdge {format : SnapshotFormat} {edge : EdgeSnapshotV4 F}
    (hnext : buildEdge format graph edge = .ok next) :
    next.csr.numEdges = graph.csr.numEdges := by
  obtain ⟨source, -, target, -, idx, -, rfl⟩ := buildEdge_eq_ok.mp hnext
  rw [Graph.numEdges_addEdge]

variable [DecidableEq F]

theorem Graph.Kept.restoreKey {state next : Restoring W F T} (h : state.graph.Kept)
    {key : EdgeSlotKey F} {originalWeight currentWeight : F} {reason : String}
    (hnext : restoreKey state key originalWeight currentWeight reason = .ok next) :
    next.graph.Kept := by
  unfold M1nd.Core.restoreKey at hnext
  obtain ⟨⟨slot, queues⟩, -, hnext⟩ := bind_eq_ok.mp hnext
  obtain ⟨restored, hrestored, hnext⟩ := bind_eq_ok.mp hnext
  rw [← Except.ok.inj hnext]
  exact h.restoreEdgeSlot hrestored

theorem Graph.Kept.restoreEdge {format : SnapshotFormat} {state next : Restoring W F T}
    (h : state.graph.Kept) {edge : EdgeSnapshotV4 F}
    (hnext : restoreEdge format state edge = .ok next) : next.graph.Kept := by
  unfold M1nd.Core.restoreEdge at hnext
  obtain ⟨source, -, hnext⟩ := bind_eq_ok.mp hnext
  obtain ⟨target, -, hnext⟩ := bind_eq_ok.mp hnext
  obtain ⟨relation, -, hnext⟩ := bind_eq_ok.mp hnext
  obtain ⟨forward, hforward, hnext⟩ := bind_eq_ok.mp hnext
  have hkept := h.restoreKey hforward
  split at hnext
  · obtain ⟨originalWeight, -, hnext⟩ := bind_eq_ok.mp hnext
    obtain ⟨currentWeight, -, hnext⟩ := bind_eq_ok.mp hnext
    exact hkept.restoreKey hnext
  · rw [← Except.ok.inj hnext]
    exact hkept

variable [Zero W] [FiniteF64 T]

-- A finalize of a graph that has only staged edges is not cut at 32 bits.
theorem Graph.Kept.graphFromSnapshotV4 {format : SnapshotFormat} {snapshot : GraphSnapshotV4 F T}
    (hnext : graphFromSnapshotV4 format snapshot = .ok next) : next.Kept := by
  have hempty : (Graph.new : Graph W T).finalize.Kept :=
    Graph.kept_new.finalize fun _ => Nat.zero_le _
  unfold M1nd.Core.graphFromSnapshotV4 at hnext
  split at hnext
  · exact absurd hnext nofun
  · split at hnext
    · split at hnext
      · rw [← Except.ok.inj hnext]
        split
        · exact hempty
        · exact Graph.kept_new
      · exact absurd hnext nofun
    · obtain ⟨-, -, hnext⟩ := bind_eq_ok.mp hnext
      obtain ⟨nodes, hnodes, hnext⟩ := bind_eq_ok.mp hnext
      obtain ⟨edges, hedges, hnext⟩ := bind_eq_ok.mp hnext
      obtain ⟨sources, -, hnext⟩ := bind_eq_ok.mp hnext
      obtain ⟨queues, -, hnext⟩ := bind_eq_ok.mp hnext
      obtain ⟨state, hstate, hnext⟩ := bind_eq_ok.mp hnext
      have hnodes' : nodes.Kept ∧ nodes.csr.numEdges = 0 :=
        replay_invariant (fun _ (graph : Graph W T) => graph.Kept ∧ graph.csr.numEdges = 0)
          ⟨Graph.kept_new, rfl⟩
          (fun _ _ _ _ h hstep => ⟨h.1.buildNode hstep, (numEdges_buildNode hstep).trans h.2⟩) hnodes
      have hedges' : edges.Kept ∧ edges.csr.numEdges = 0 :=
        replay_invariant (fun _ (graph : Graph W T) => graph.Kept ∧ graph.csr.numEdges = 0) hnodes'
          (fun _ _ _ _ h hstep => ⟨h.1.buildEdge hstep, (numEdges_buildEdge hstep).trans h.2⟩) hedges
      have hfinal : edges.finalize.Kept := by
        refine hedges'.1.finalize fun _ => ?_
        rw [hedges'.2]
        exact Nat.zero_le _
      have hrestored : state.graph.Kept :=
        replay_invariant (fun _ (state : Restoring W F T) => state.graph.Kept) hfinal
          (fun _ _ _ _ h hstep => h.restoreEdge hstep) hstate
      rw [← Except.ok.inj hnext]
      exact hrestored

end Load

end M1nd.Core
