import M1nd.Core.Graph.Invariant
import Mathlib.Data.List.Induction

namespace M1nd.Core

open M1nd.Library.Buckets

variable {W T : Type}

-- The weight of a slot is stored whole.
def CsrGraph.storeWeight (csr : CsrGraph W) (slot : Nat) (weight : W) : CsrGraph W :=
  { csr with weights := csr.weights.set slot weight }

def EdgePlasticity.store (plasticity : EdgePlasticity W) (slot : Nat) (synapse : SynapseRecord W) :
    EdgePlasticity W where
  originalWeight := plasticity.originalWeight.set slot synapse.originalWeight
  currentWeight := plasticity.currentWeight.set slot synapse.currentWeight
  strengthenCount := plasticity.strengthenCount.set slot synapse.strengthenCount
  weakenCount := plasticity.weakenCount.set slot synapse.weakenCount
  ltpApplied := plasticity.ltpApplied.set slot synapse.ltpApplied
  ltdApplied := plasticity.ltdApplied.set slot synapse.ltdApplied
  lastUsedQuery := plasticity.lastUsedQuery.set slot synapse.lastUsedQuery

inductive GraphOp (W T : Type)
  | addNode (externalId label : String) (nodeType : NodeType) (tags : List String)
      (lastModified : T) (changeFrequency : W)
  | addEdge (source target : Nat) (relation : String) (weight : W)
      (direction : EdgeDirection) (inhibitory : Bool) (causalStrength : W)
  | storeWeight (slot : Nat) (weight : W)
  | storeSynapse (slot : Nat) (synapse : SynapseRecord W)
  | finalize

section Operations

variable [Zero W]

-- The learning rules write slots of the CSR only.
def GraphOp.apply (graph : Graph W T) : GraphOp W T → Graph W T
  | addNode externalId label nodeType tags lastModified changeFrequency =>
      (graph.addNode externalId label nodeType tags lastModified changeFrequency).2
  | addEdge source target relation weight direction inhibitory causalStrength =>
      (graph.addEdge source target relation weight direction inhibitory causalStrength).2
  | storeWeight slot weight =>
      if slot < graph.csr.targets.length then
        { graph with csr := graph.csr.storeWeight slot weight }
      else graph
  | storeSynapse slot synapse =>
      if slot < graph.csr.targets.length then
        { graph with edgePlasticity := graph.edgePlasticity.store slot synapse }
      else graph
  | finalize => graph.finalize

def GraphOp.run (ops : List (GraphOp W T)) : Graph W T :=
  ops.foldl GraphOp.apply Graph.new

end Operations

namespace Graph

variable {graph next : Graph W T}

structure Sound (graph : Graph W T) : Prop where
  staged : graph.Staged
  targets : ∀ target ∈ graph.csr.targets, target < graph.nodes.count
  covered : graph.csr.offsets.length ≤ graph.nodes.count + 1
  finalized : graph.finalized = true →
    graph.Parallel ∧ (graph.csr.targets.length ≤ 2 ^ 32 → graph.Transposed)

theorem sound_new : (Graph.new : Graph W T).Sound where
  staged := fun _ hedge => absurd hedge List.not_mem_nil
  targets := fun _ htarget => absurd htarget List.not_mem_nil
  covered := Nat.zero_le _
  finalized := nofun

-- A node that exists is refused. A new one goes to the end of the node table.
theorem addNode_cases (graph : Graph W T) (externalId label : String) (nodeType : NodeType)
    (tags : List String) (lastModified : T) (changeFrequency : W) :
    (∃ strings, (graph.addNode externalId label nodeType tags lastModified changeFrequency).2 =
      { graph with strings := strings }) ∨
    ∃ nodes strings idToNode, nodes.count = graph.nodes.count + 1 ∧
      (graph.addNode externalId label nodeType tags lastModified changeFrequency).2 =
        { graph with
          nodes := nodes
          strings := strings
          idToNode := idToNode
          finalized := false } := by
  unfold Graph.addNode
  cases graph.strings.getOrIntern externalId with
  | mk extInterned strings =>
      cases hknown : graph.idToNode[extInterned]? with
      | some existing =>
          left
          exact ⟨strings, by simp only [hknown]⟩
      | none =>
          right
          simp only [hknown]
          exact ⟨_, _, _, rfl, rfl⟩

theorem Sound.strings (h : graph.Sound) (strings : StringInterner) :
    ({ graph with strings := strings } : Graph W T).Sound where
  staged := h.staged
  targets := h.targets
  covered := h.covered
  finalized hfinal := by
    obtain ⟨hparallel, htransposed⟩ := h.finalized hfinal
    exact ⟨⟨hparallel.offsets, hparallel.revOffsets, hparallel.csr, hparallel.reverse,
      hparallel.plasticity⟩, fun hbound => ⟨(htransposed hbound).bijection,
        (htransposed hbound).points⟩⟩

theorem Sound.addNode (h : graph.Sound) (externalId label : String) (nodeType : NodeType)
    (tags : List String) (lastModified : T) (changeFrequency : W) :
    (graph.addNode externalId label nodeType tags lastModified changeFrequency).2.Sound := by
  obtain ⟨strings, he⟩ | ⟨nodes, strings, idToNode, hcount, he⟩ :=
    graph.addNode_cases externalId label nodeType tags lastModified changeFrequency
  · rw [he]
    exact h.strings strings
  · rw [he]
    refine ⟨fun edge hedge => ?_, fun target htarget => ?_, ?_, nofun⟩
    · obtain ⟨hsource, htarget⟩ := h.staged edge hedge
      change edge.source < nodes.count ∧ edge.target < nodes.count
      omega
    · have hold := h.targets target htarget
      change target < nodes.count
      omega
    · have hold := h.covered
      change graph.csr.offsets.length ≤ nodes.count + 1
      omega

theorem Sound.addEdge (h : graph.Sound) (source target : Nat) (relation : String) (weight : W)
    (direction : EdgeDirection) (inhibitory : Bool) (causalStrength : W) :
    (graph.addEdge source target relation weight direction inhibitory causalStrength).2.Sound := by
  unfold Graph.addEdge
  by_cases hsource : graph.nodes.count ≤ source
  · rw [if_pos hsource]
    exact h
  · by_cases htarget : graph.nodes.count ≤ target
    · rw [if_neg hsource, if_pos htarget]
      exact h
    · rw [if_neg hsource, if_neg htarget]
      refine ⟨fun edge hedge => ?_, h.targets, h.covered, nofun⟩
      obtain hedge | hedge := List.mem_append.mp hedge
      · exact h.staged edge hedge
      · obtain rfl := List.mem_singleton.mp hedge
        exact ⟨Nat.lt_of_not_le hsource, Nat.lt_of_not_le htarget⟩

theorem Sound.storeWeight (h : graph.Sound) (slot : Nat) (weight : W) :
    ({ graph with csr := graph.csr.storeWeight slot weight } : Graph W T).Sound where
  staged := h.staged
  targets := h.targets
  covered := h.covered
  finalized hfinal := by
    obtain ⟨hparallel, htransposed⟩ := h.finalized hfinal
    refine ⟨⟨hparallel.offsets, hparallel.revOffsets, ?_, hparallel.reverse,
      hparallel.plasticity⟩, fun hbound => ⟨(htransposed hbound).bijection,
        (htransposed hbound).points⟩⟩
    refine ⟨?_, hparallel.csr.2⟩
    exact (List.length_set).trans hparallel.csr.1

theorem Sound.storeSynapse (h : graph.Sound) (slot : Nat) (synapse : SynapseRecord W) :
    ({ graph with edgePlasticity := graph.edgePlasticity.store slot synapse } :
      Graph W T).Sound where
  staged := h.staged
  targets := h.targets
  covered := h.covered
  finalized hfinal := by
    obtain ⟨hparallel, htransposed⟩ := h.finalized hfinal
    refine ⟨⟨hparallel.offsets, hparallel.revOffsets, hparallel.csr, hparallel.reverse, ?_⟩,
      fun hbound => ⟨(htransposed hbound).bijection, (htransposed hbound).points⟩⟩
    simpa only [EdgePlasticity.store, List.length_set] using hparallel.plasticity

section Finalize

variable [Zero W]

-- A slot staged again starts and ends in nodes of the graph.
theorem Sound.rehydrated (h : graph.Sound) : graph.rehydrateCsrIntoPending.Staged := by
  intro edge hedge
  obtain hedge | hedge := List.mem_append.mp hedge
  · obtain ⟨⟨src, j⟩, hslot, rfl⟩ := List.mem_map.mp hedge
    obtain ⟨hslot, -⟩ := mem_harvestedSlots.mp hslot
    obtain ⟨hsrc, -⟩ := mem_edgeSlots.mp hslot
    have hcovered := h.covered
    have hcount : src < graph.nodes.count := by omega
    refine ⟨hcount, ?_⟩
    change graph.csr.targets.getD j 0 < graph.nodes.count
    rw [List.getD_eq_getElem?_getD]
    cases htarget : graph.csr.targets[j]? with
    | none => exact Nat.zero_lt_of_lt hcount
    | some target => exact h.targets target (List.mem_of_getElem? htarget)
  · exact h.staged edge hedge

theorem Sound.of_rebuilt {staged : Graph W T} (h : staged.Staged) (hnext : staged.Rebuilt next) :
    next.Sound where
  staged edge hedge := by
    rw [hnext.pendingEdges] at hedge
    exact absurd hedge List.not_mem_nil
  targets target htarget := by
    rw [hnext.targets] at htarget
    obtain ⟨slot, hslot, rfl⟩ := List.mem_map.mp htarget
    rw [hnext.nodes]
    exact (h.placed_lt hslot).2
  covered := by
    have hlength : next.csr.offsets.length = staged.nodes.count + 1 := by
      rw [hnext.offsets, length_offsets]
    rw [hnext.nodes]
    omega
  finalized _ := ⟨hnext.parallel h, hnext.transposed h⟩

theorem Sound.finalize (h : graph.Sound) : graph.finalize.Sound := by
  unfold Graph.finalize
  by_cases hfinal : graph.finalized = true
  · rw [if_pos hfinal]
    exact h
  · rw [if_neg hfinal]
    by_cases hedges : 0 < graph.csr.numEdges
    · rw [if_pos hedges]
      exact .of_rebuilt h.rehydrated h.rehydrated.rebuilt
    · rw [if_neg hedges]
      exact .of_rebuilt h.staged h.staged.rebuilt

theorem finalized_finalize : graph.finalize.finalized = true := by
  unfold Graph.finalize
  by_cases hfinal : graph.finalized = true
  · rw [if_pos hfinal]
    exact hfinal
  · rw [if_neg hfinal]
    by_cases hedges : 0 < graph.csr.numEdges
    · rw [if_pos hedges]
      rfl
    · rw [if_neg hedges]
      rfl

theorem Sound.apply (h : graph.Sound) (op : GraphOp W T) : (GraphOp.apply graph op).Sound := by
  cases op with
  | addNode externalId label nodeType tags lastModified changeFrequency =>
      exact h.addNode externalId label nodeType tags lastModified changeFrequency
  | addEdge source target relation weight direction inhibitory causalStrength =>
      exact h.addEdge source target relation weight direction inhibitory causalStrength
  | storeWeight slot weight =>
      by_cases hslot : slot < graph.csr.targets.length
      · simp only [GraphOp.apply, if_pos hslot]
        exact h.storeWeight slot weight
      · simp only [GraphOp.apply, if_neg hslot]
        exact h
  | storeSynapse slot synapse =>
      by_cases hslot : slot < graph.csr.targets.length
      · simp only [GraphOp.apply, if_pos hslot]
        exact h.storeSynapse slot synapse
      · simp only [GraphOp.apply, if_neg hslot]
        exact h
  | finalize => exact h.finalize

end Finalize

end Graph

section Runs

variable [Zero W]

theorem GraphOp.run_concat (ops : List (GraphOp W T)) (op : GraphOp W T) :
    run (ops ++ [op]) = apply (run ops) op := by
  rw [run, List.foldl_append]
  rfl

theorem GraphOp.sound_run (ops : List (GraphOp W T)) : (run ops).Sound := by
  induction ops using List.reverseRecOn with
  | nil => exact Graph.sound_new
  | append_singleton ops op ih =>
      rw [run_concat]
      exact ih.apply op

-- After every finalize of every run the arrays are parallel, and the reverse CSR is the
-- transpose of the forward one as long as a u32 can name each slot.
theorem GraphOp.csr_after_finalize (ops : List (GraphOp W T)) :
    (run ops).finalize.Parallel ∧
      ((run ops).finalize.csr.targets.length ≤ 2 ^ 32 → (run ops).finalize.Transposed) :=
  (sound_run ops).finalize.finalized Graph.finalized_finalize

end Runs

section Truncation

-- One node and many edges from it to itself.
def GraphOp.loops (count : Nat) : List (GraphOp Nat Nat) :=
  .addNode "a" "a" .File [] 0 0 :: List.replicate count (.addEdge 0 0 "calls" 1 .Forward false 1)

private theorem loops_pending (count : Nat) :
    (GraphOp.run (GraphOp.loops count)).nodes.count = 1 ∧
      (GraphOp.run (GraphOp.loops count)).csr.offsets = [] ∧
      (GraphOp.run (GraphOp.loops count)).finalized = false ∧
      (GraphOp.run (GraphOp.loops count)).csr.pendingEdges.length = count ∧
      ∀ edge ∈ (GraphOp.run (GraphOp.loops count)).csr.pendingEdges, edge.direction = .Forward := by
  induction count with
  | zero =>
      refine ⟨rfl, rfl, rfl, rfl, ?_⟩
      intro edge hedge
      exact absurd hedge List.not_mem_nil
  | succ count ih =>
      have hloops : GraphOp.loops (count + 1) =
          GraphOp.loops count ++ [.addEdge 0 0 "calls" 1 .Forward false 1] := by
        rw [GraphOp.loops, GraphOp.loops, List.replicate_succ', List.cons_append]
      rw [hloops, GraphOp.run_concat]
      obtain ⟨hcount, hoffsets, hfinal, hlength, hforward⟩ := ih
      generalize GraphOp.run (GraphOp.loops count) = graph at hcount hoffsets hfinal hlength hforward
      have hsource : ¬ graph.nodes.count ≤ 0 := by omega
      simp only [GraphOp.apply, Graph.addEdge, if_neg hsource]
      refine ⟨hcount, hoffsets, trivial, ?_, ?_⟩
      · rw [List.length_append, hlength, List.length_singleton]
      · intro edge hedge
        obtain hedge | hedge := List.mem_append.mp hedge
        · exact hforward edge hedge
        · rw [List.mem_singleton.mp hedge]

private theorem length_placements {edges : List (PendingEdge Nat)}
    (hforward : ∀ edge ∈ edges, edge.direction = .Forward) :
    (placements edges).length = edges.length := by
  rw [placements_perm.length_eq, List.length_flatMap]
  have hone : (edges.zipIdx.map fun indexed => (indexed.1.placements indexed.2).length) =
      edges.zipIdx.map fun _ => 1 := by
    apply List.map_congr_left
    intro indexed hindexed
    rw [PendingEdge.placements, hforward _ (List.fst_mem_of_mem_zipIdx hindexed)]
    rfl
  rw [hone]
  simp

-- With one slot more than a u32 can name, no reverse entry names the last slot.
theorem GraphOp.transpose_truncated :
    ¬ (run (loops (2 ^ 32 + 1))).finalize.Transposed := by
  intro h
  have hsound := sound_run (loops (2 ^ 32 + 1))
  obtain ⟨-, hoffsets, hfinal, hlength, hforward⟩ := loops_pending (2 ^ 32 + 1)
  generalize run (loops (2 ^ 32 + 1)) = graph at h hsound hoffsets hfinal hlength hforward
  have hedges : ¬ 0 < graph.csr.numEdges := by
    rw [CsrGraph.numEdges, hoffsets]
    exact Nat.lt_irrefl 0
  have hnext : graph.finalize = graph.rebuildCsr := by
    rw [Graph.finalize, hfinal, if_neg Bool.false_ne_true, if_neg hedges]
  rw [hnext] at h
  have hrebuilt := hsound.staged.rebuilt
  have hslots : graph.rebuildCsr.csr.targets.length = 2 ^ 32 + 1 := by
    rw [hrebuilt.targets, List.length_map, hsound.staged.placed_perm.length_eq,
      length_placements hforward, hlength]
  have hlast : 2 ^ 32 ∈ graph.rebuildCsr.csr.revEdgeIdx := by
    rw [h.bijection.mem_iff, hslots, List.mem_range]
    exact Nat.lt_succ_self _
  rw [hrebuilt.revEdgeIdx] at hlast
  obtain ⟨slot, -, he⟩ := List.mem_map.mp hlast
  have hlt : EdgeIdx.new slot.2 < 2 ^ 32 := Nat.mod_lt _ (Nat.two_pow_pos 32)
  rw [he] at hlt
  exact Nat.lt_irrefl _ hlt

end Truncation

end M1nd.Core
