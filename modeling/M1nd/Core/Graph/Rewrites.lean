import M1nd.Core.Graph.Conservation

namespace M1nd.Core

variable {W T : Type}

namespace Graph

variable {graph next last : Graph W T}

-- The weights and what the plasticity arrays hold may change, the structure does not.
structure Rewritten (graph next : Graph W T) : Prop where
  count : next.nodes.count = graph.nodes.count
  csr : { next.csr with weights := graph.csr.weights } = graph.csr
  weights : next.csr.weights.length = graph.csr.weights.length
  plasticity : ∀ size, graph.edgePlasticity.HasLength size → next.edgePlasticity.HasLength size
  finalized : next.finalized = graph.finalized

theorem Rewritten.refl (graph : Graph W T) : graph.Rewritten graph where
  count := rfl
  csr := rfl
  weights := rfl
  plasticity _ h := h
  finalized := rfl

theorem Rewritten.trans (h : graph.Rewritten next) (h' : next.Rewritten last) :
    graph.Rewritten last where
  count := h'.count.trans h.count
  csr := by
    have hnext := congrArg (fun csr : CsrGraph W => { csr with weights := graph.csr.weights }) h'.csr
    exact hnext.trans h.csr
  weights := h'.weights.trans h.weights
  plasticity size hsize := h'.plasticity size (h.plasticity size hsize)
  finalized := h'.finalized.trans h.finalized

-- Every field of the CSR but the weights is kept.
theorem Rewritten.field (h : graph.Rewritten next) {α : Type} (f : CsrGraph W → α)
    (hf : ∀ csr : CsrGraph W, f { csr with weights := graph.csr.weights } = f csr) :
    f next.csr = f graph.csr := by
  rw [← hf next.csr, h.csr]

theorem Rewritten.targets (h : graph.Rewritten next) : next.csr.targets = graph.csr.targets :=
  h.field CsrGraph.targets fun _ => rfl

theorem Rewritten.offsets (h : graph.Rewritten next) : next.csr.offsets = graph.csr.offsets :=
  h.field CsrGraph.offsets fun _ => rfl

theorem Rewritten.pendingEdges (h : graph.Rewritten next) :
    next.csr.pendingEdges = graph.csr.pendingEdges :=
  h.field CsrGraph.pendingEdges fun _ => rfl

theorem Rewritten.numEdges (h : graph.Rewritten next) :
    next.csr.numEdges = graph.csr.numEdges :=
  h.field CsrGraph.numEdges fun _ => rfl

theorem Parallel.hasLength (h : graph.Parallel) :
    graph.edgePlasticity.HasLength graph.csr.targets.length := by
  obtain ⟨ho, hc, hs, hw, hp, hd, hl⟩ := h.plasticity
  exact ⟨ho, hc, hs, hw, hp, hd, hl⟩

theorem Parallel.rewritten (h : graph.Parallel) (hnext : graph.Rewritten next) :
    next.Parallel := by
  have htargets := hnext.targets
  have hrev : next.csr.revOffsets = graph.csr.revOffsets :=
    hnext.field CsrGraph.revOffsets fun _ => rfl
  constructor
  case offsets =>
    rw [hnext.offsets, hnext.count, htargets]
    exact h.offsets
  case revOffsets =>
    rw [hrev, hnext.count, htargets]
    exact h.revOffsets
  case csr =>
    rw [hnext.weights, htargets, hnext.field CsrGraph.inhibitory fun _ => rfl,
      hnext.field CsrGraph.relations fun _ => rfl, hnext.field CsrGraph.directions fun _ => rfl,
      hnext.field CsrGraph.causalStrengths fun _ => rfl]
    exact h.csr
  case reverse =>
    rw [htargets, hnext.field CsrGraph.revSources fun _ => rfl,
      hnext.field CsrGraph.revEdgeIdx fun _ => rfl]
    exact h.reverse
  case plasticity =>
    rw [htargets]
    obtain ⟨ho, hc, hs, hw, hp, hd, hl⟩ := hnext.plasticity _ h.hasLength
    exact ⟨ho, hc, hs, hw, hp, hd, hl⟩

theorem Transposed.rewritten (h : graph.Transposed) (hnext : graph.Rewritten next) :
    next.Transposed := by
  have hrev : next.csr.revEdgeIdx = graph.csr.revEdgeIdx :=
    hnext.field CsrGraph.revEdgeIdx fun _ => rfl
  constructor
  case bijection =>
    rw [hrev, hnext.targets]
    exact h.bijection
  case points =>
    rw [hnext.count, hrev, hnext.targets, hnext.field CsrGraph.inRange fun _ => rfl,
      hnext.field CsrGraph.outRange fun _ => rfl, hnext.field CsrGraph.revSources fun _ => rfl]
    exact h.points

theorem Sound.rewritten (h : graph.Sound) (hnext : graph.Rewritten next) : next.Sound where
  staged edge hedge := by
    rw [hnext.pendingEdges] at hedge
    rw [hnext.count]
    exact h.staged edge hedge
  targets target htarget := by
    rw [hnext.targets] at htarget
    rw [hnext.count]
    exact h.targets target htarget
  covered := by
    rw [hnext.offsets, hnext.count]
    exact h.covered
  finalized hfinal := by
    obtain ⟨hparallel, htransposed⟩ := h.finalized (hnext.finalized ▸ hfinal)
    refine ⟨hparallel.rewritten hnext, fun hbound => ?_⟩
    rw [hnext.targets] at hbound
    exact (htransposed hbound).rewritten hnext

theorem Listed.rewritten (h : graph.Listed) (hnext : graph.Rewritten next) : next.Listed where
  indices := by
    rw [hnext.offsets, hnext.targets]
    exact h.indices
  numEdges := by
    rw [hnext.numEdges, hnext.targets]
    exact h.numEdges
  weights := by
    rw [hnext.weights, hnext.targets]
    exact h.weights
  synapses := by
    rw [hnext.targets, hnext.pendingEdges]
    exact hnext.plasticity _ h.synapses

end Graph

end M1nd.Core

namespace M1nd.Core

variable {W T : Type}

theorem CutsInto.le_slots {offsets : List Nat} {n slots bound : Nat} (h : CutsInto offsets n slots)
    (hbound : bound ∈ offsets) : bound ≤ slots := by
  obtain ⟨before, rfl⟩ := List.getLast?_eq_some_iff.mp h.last
  obtain hmem | hlast := List.mem_append.mp hbound
  · exact (List.pairwise_append.mp h.sorted).2.2 bound hmem slots List.mem_cons_self
  · exact Nat.le_of_eq (List.mem_singleton.mp hlast)

theorem CutsInto.mem_inRange_lt {csr : CsrGraph W} {n slots node r : Nat}
    (h : CutsInto csr.revOffsets n slots) (hr : r ∈ csr.inRange node) : r < slots := by
  unfold CsrGraph.inRange at hr
  split at hr
  case isTrue => exact absurd hr List.not_mem_nil
  case isFalse hnode =>
    rw [Nat.not_le] at hnode
    have hend : csr.revOffsets.getD (node + 1) 0 ≤ slots := by
      rw [List.getD_eq_getElem?_getD, List.getElem?_eq_getElem hnode, Option.getD_some]
      exact h.le_slots (List.getElem_mem hnode)
    dsimp only at hr
    obtain ⟨hstart, hlt⟩ := List.mem_range'_1.mp hr
    omega

namespace Graph

variable {graph next : Graph W T}

-- Every entry of the reverse ranges has a source.
def Sourced (graph : Graph W T) : Prop :=
  ∀ node, ∀ r ∈ graph.csr.inRange node, r < graph.csr.revSources.length

theorem sourced_new : (Graph.new : Graph W T).Sourced :=
  fun _ _ hr => absurd hr List.not_mem_nil

theorem Parallel.sourced (h : graph.Parallel) : graph.Sourced := by
  intro node r hr
  rw [h.reverse.1]
  exact h.revOffsets.mem_inRange_lt hr

-- Each entry of the reverse ranges has a slot with a weight.
structure Indexed (graph : Graph W T) : Prop where
  length : graph.csr.revEdgeIdx.length = graph.csr.revSources.length
  weights : ∀ forward ∈ graph.csr.revEdgeIdx, forward < graph.csr.weights.length

theorem indexed_new : (Graph.new : Graph W T).Indexed where
  length := rfl
  weights := nofun

-- What stays of the reverse arrays until the next rebuild.
structure SameReverse (graph next : Graph W T) : Prop where
  revOffsets : next.csr.revOffsets = graph.csr.revOffsets
  revSources : next.csr.revSources = graph.csr.revSources
  revEdgeIdx : next.csr.revEdgeIdx = graph.csr.revEdgeIdx
  weights : next.csr.weights.length = graph.csr.weights.length

theorem SameReverse.of_csr (h : next.csr = graph.csr) : graph.SameReverse next :=
  ⟨by rw [h], by rw [h], by rw [h], by rw [h]⟩

theorem Sourced.sameReverse (h : graph.Sourced) (hsame : graph.SameReverse next) :
    next.Sourced := by
  unfold Sourced CsrGraph.inRange
  rw [hsame.revOffsets, hsame.revSources]
  exact h

theorem Indexed.sameReverse (h : graph.Indexed) (hsame : graph.SameReverse next) :
    next.Indexed where
  length := by rw [hsame.revEdgeIdx, hsame.revSources, h.length]
  weights forward hforward := by
    rw [hsame.weights]
    exact h.weights forward (hsame.revEdgeIdx ▸ hforward)

variable [Zero W]

theorem Rebuilt.indexed (h : graph.Staged) (hnext : graph.Rebuilt next) : next.Indexed where
  length := by rw [hnext.revEdgeIdx, hnext.revSources, List.length_map, List.length_map]
  weights forward hforward := by
    rw [hnext.revEdgeIdx] at hforward
    obtain ⟨slot, hslot, rfl⟩ := List.mem_map.mp hforward
    rw [hnext.weights, List.length_map]
    have hlt := List.snd_lt_of_mem_zipIdx (h.reversed_perm.mem_iff.mp hslot)
    exact (Nat.mod_le _ _).trans_lt (by simpa using hlt)

theorem sameReverse_apply (graph : Graph W T) {op : GraphOp W T} (hop : op ≠ .finalize) :
    graph.SameReverse (op.apply graph) := by
  cases op with
  | addNode externalId label nodeType tags lastModified changeFrequency =>
      obtain ⟨strings, he⟩ | ⟨nodes, strings, idToNode, -, he⟩ :=
        graph.addNode_cases externalId label nodeType tags lastModified changeFrequency
      all_goals
        rw [GraphOp.apply, he]
        exact .of_csr rfl
  | addEdge source target relation weight direction inhibitory causalStrength =>
      rw [GraphOp.apply, Graph.addEdge]
      dsimp only
      split
      · exact .of_csr rfl
      · split
        · exact .of_csr rfl
        · exact ⟨rfl, rfl, rfl, rfl⟩
  | storeWeight slot weight =>
      rw [GraphOp.apply]
      split
      · exact ⟨rfl, rfl, rfl, List.length_set⟩
      · exact .of_csr rfl
  | storeSynapse slot synapse =>
      rw [GraphOp.apply]
      split <;> exact .of_csr rfl
  | finalize => exact absurd rfl hop

theorem Sourced.apply (hsound : graph.Sound) (h : graph.Sourced) (op : GraphOp W T) :
    (GraphOp.apply graph op).Sourced := by
  by_cases hop : op = .finalize
  · subst hop
    exact (hsound.finalize.finalized finalized_finalize).1.sourced
  · exact h.sameReverse (sameReverse_apply graph hop)

theorem Indexed.apply (hsound : graph.Sound) (h : graph.Indexed) (op : GraphOp W T) :
    (GraphOp.apply graph op).Indexed := by
  by_cases hop : op = .finalize
  · subst hop
    rw [GraphOp.apply, finalize]
    split
    · exact h
    · split
      · exact hsound.rehydrated.rebuilt.indexed hsound.rehydrated
      · exact hsound.staged.rebuilt.indexed hsound.staged
  · exact h.sameReverse (sameReverse_apply graph hop)

end Graph

end M1nd.Core
