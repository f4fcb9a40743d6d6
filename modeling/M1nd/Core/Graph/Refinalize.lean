import M1nd.Core.Graph.Slots
import M1nd.Library.Loops
import Mathlib.Data.Multiset.AddSub

namespace M1nd.Core

open M1nd.Library.Buckets
open M1nd.Library.Runs

variable {W T : Type}

structure EdgePlasticity.HasLength (plasticity : EdgePlasticity W) (size : Nat) : Prop where
  originalWeight : plasticity.originalWeight.length = size
  currentWeight : plasticity.currentWeight.length = size
  strengthenCount : plasticity.strengthenCount.length = size
  weakenCount : plasticity.weakenCount.length = size
  ltpApplied : plasticity.ltpApplied.length = size
  ltdApplied : plasticity.ltdApplied.length = size
  lastUsedQuery : plasticity.lastUsedQuery.length = size

namespace EdgePlasticity

variable {plasticity : EdgePlasticity W} {size : Nat}

theorem HasLength.push (h : plasticity.HasLength size) (synapse : SynapseRecord W) :
    (plasticity.push synapse).HasLength (size + 1) := by
  constructor <;> simp [EdgePlasticity.push, h.originalWeight, h.currentWeight,
    h.strengthenCount, h.weakenCount, h.ltpApplied, h.ltdApplied, h.lastUsedQuery]

theorem HasLength.store (h : plasticity.HasLength size) (slot : Nat) (synapse : SynapseRecord W) :
    (plasticity.store slot synapse).HasLength size := by
  constructor <;> simp [EdgePlasticity.store, h.originalWeight, h.currentWeight,
    h.strengthenCount, h.weakenCount, h.ltpApplied, h.ltdApplied, h.lastUsedQuery]

variable [Zero W]

theorem HasLength.row_push_of_lt (h : plasticity.HasLength size) (synapse : SynapseRecord W)
    {j : Nat} (hj : j < size) : (plasticity.push synapse).row j = plasticity.row j := by
  simp only [row, EdgePlasticity.push, List.getD_eq_getElem?_getD, List.getElem?_append_left,
    h.originalWeight, h.currentWeight, h.strengthenCount, h.weakenCount, h.ltpApplied,
    h.ltdApplied, h.lastUsedQuery, hj]

theorem HasLength.row_push (h : plasticity.HasLength size) (synapse : SynapseRecord W) :
    (plasticity.push synapse).row size = synapse := by
  simp [row, EdgePlasticity.push, List.getD_eq_getElem?_getD,
    h.originalWeight, h.currentWeight, h.strengthenCount, h.weakenCount, h.ltpApplied,
    h.ltdApplied, h.lastUsedQuery]

theorem HasLength.row_store (h : plasticity.HasLength size) {slot : Nat} (hslot : slot < size)
    (synapse : SynapseRecord W) : (plasticity.store slot synapse).row slot = synapse := by
  simp [row, EdgePlasticity.store, List.getD_eq_getElem?_getD,
    h.originalWeight, h.currentWeight, h.strengthenCount, h.weakenCount, h.ltpApplied,
    h.ltdApplied, h.lastUsedQuery, hslot]

theorem row_store_of_ne {slot j : Nat} (hne : slot ≠ j) (synapse : SynapseRecord W) :
    (plasticity.store slot synapse).row j = plasticity.row j := by
  simp only [row, EdgePlasticity.store, List.getD_eq_getElem?_getD, List.getElem?_set_ne hne]

end EdgePlasticity

namespace Graph

-- The slots are listed one after the other, and the plasticity of the staged edges lies
-- behind that of the slots.
structure Listed (graph : Graph W T) : Prop where
  indices : (edgeSlots (graph.csr.offsets.length - 1) graph.csr.offsets).map Prod.snd =
    List.range graph.csr.targets.length
  numEdges : graph.csr.numEdges = graph.csr.targets.length
  weights : graph.csr.weights.length = graph.csr.targets.length
  synapses : graph.edgePlasticity.HasLength
    (graph.csr.targets.length + graph.csr.pendingEdges.length)

variable {graph next : Graph W T}

theorem listed_new : (Graph.new : Graph W T).Listed where
  indices := rfl
  numEdges := rfl
  weights := rfl
  synapses := ⟨rfl, rfl, rfl, rfl, rfl, rfl, rfl⟩

theorem Listed.length_edgeSlots (h : graph.Listed) :
    (edgeSlots (graph.csr.offsets.length - 1) graph.csr.offsets).length =
      graph.csr.targets.length := by
  have hlength := congrArg List.length h.indices
  rwa [List.length_map, List.length_range] at hlength

theorem Listed.snd_edgeSlots (h : graph.Listed) {i : Nat} {slot : Nat × Nat}
    (hslot : (edgeSlots (graph.csr.offsets.length - 1) graph.csr.offsets)[i]? = some slot) :
    slot.2 = i ∧ i < graph.csr.targets.length := by
  have hget := congrArg (fun (list : List Nat) => list[i]?) h.indices
  have hi : i < graph.csr.targets.length := by
    rw [← h.length_edgeSlots]
    exact (List.getElem?_eq_some_iff.mp hslot).1
  simp only [List.getElem?_map, hslot, Option.map_some, List.getElem?_range hi,
    Option.some.injEq] at hget
  exact ⟨hget, hi⟩

-- The slots of a node are slots of the CSR, also when nodes and edges were added since.
theorem Listed.mem_outRange_lt (h : graph.Listed) {node j : Nat}
    (hj : j ∈ graph.csr.outRange node) : j < graph.csr.targets.length := by
  have hlength : graph.csr.offsets.length = graph.csr.offsets.length - 1 + 1 := by
    unfold CsrGraph.outRange at hj
    split at hj
    · exact absurd hj List.not_mem_nil
    · omega
  have hslot := (CsrGraph.mem_outRange hlength).mp hj
  rw [← List.mem_range, ← h.indices]
  exact List.mem_map_of_mem (f := Prod.snd) hslot

variable [Zero W]

theorem Rebuilt.listed (h : graph.Staged) (hnext : graph.Rebuilt next) : next.Listed := by
  have hparallel := hnext.parallel h
  have hcount : next.csr.offsets.length - 1 = next.nodes.count := by
    rw [hparallel.offsets.length, Nat.add_sub_cancel]
  obtain ⟨ho, hc, hs, hw, hp, hd, hl⟩ := hparallel.plasticity
  have hempty : next.csr.targets.length + next.csr.pendingEdges.length =
      next.csr.targets.length := by
    rw [hnext.pendingEdges, List.length_nil, Nat.add_zero]
  refine ⟨?_, hparallel.numEdges_eq, hparallel.csr.1, ?_⟩
  · rw [hcount, hnext.edgeSlots_eq, List.map_map, hnext.targets, List.length_map,
      List.range_eq_range', ← List.zipIdx_map_snd 0 graph.placed]
    rfl
  · rw [hempty]
    exact ⟨ho, hc, hs, hw, hp, hd, hl⟩

-- Writing one slot changes the list of the slots at one place.
theorem Listed.slots_modify (h : graph.Listed) {slot : Nat} {f : Slot W → Slot W}
    (hoffsets : next.csr.offsets = graph.csr.offsets)
    (hat : ∀ src j, j < graph.csr.targets.length → next.slotAt src j =
      if slot = j then f (graph.slotAt src j) else graph.slotAt src j) :
    next.slots = graph.slots.modify slot f := by
  apply List.ext_getElem?
  intro i
  rw [slots, slots, hoffsets, List.getElem?_modify, List.getElem?_map, List.getElem?_map]
  cases hslot : (edgeSlots (graph.csr.offsets.length - 1) graph.csr.offsets)[i]? with
  | none => rfl
  | some entry =>
      obtain ⟨hindex, hi⟩ := h.snd_edgeSlots hslot
      have hnext := hat entry.1 entry.2 (by omega)
      rw [hindex] at hnext
      simp only [Option.map_some, hindex, hnext]
      rfl

theorem Listed.slots_storeWeight (h : graph.Listed) {slot : Nat} (weight : W)
    (hslot : slot < graph.csr.targets.length) :
    ({ graph with csr := graph.csr.storeWeight slot weight } : Graph W T).slots =
      graph.slots.modify slot fun old => { old with weight := weight } := by
  refine h.slots_modify rfl fun src j _ => ?_
  by_cases he : slot = j
  · subst he
    have hw : slot < graph.csr.weights.length := h.weights ▸ hslot
    simp [slotAt, CsrGraph.storeWeight, hw]
  · simp [slotAt, CsrGraph.storeWeight, he]

theorem Listed.slots_storeSynapse (h : graph.Listed) {slot : Nat} (synapse : SynapseRecord W)
    (hslot : slot < graph.csr.targets.length) :
    ({ graph with edgePlasticity := graph.edgePlasticity.store slot synapse } : Graph W T).slots =
      graph.slots.modify slot fun old => { old with synapse := synapse } := by
  refine h.slots_modify rfl fun src j _ => ?_
  by_cases he : slot = j
  · subst he
    have hrow := h.synapses.row_store (Nat.lt_add_right _ hslot) synapse
    simp only [slotAt, hrow, if_true]
  · have hrow : (graph.edgePlasticity.store slot synapse).row j = graph.edgePlasticity.row j :=
      EdgePlasticity.row_store_of_ne he synapse
    simp only [slotAt, hrow, he, if_false]

-- A staged edge goes to the end of the staging area, and its plasticity to the end of the
-- plasticity arrays.
theorem Listed.stagedSlots_concat (h : graph.Listed) (strings : StringInterner) (edge : PendingEdge W)
    (weight : W) (first : Nat) (hfirst : first = graph.csr.targets.length) :
    ({ graph with
      strings := strings
      edgePlasticity := graph.edgePlasticity.push (.fresh weight)
      csr := { graph.csr with pendingEdges := graph.csr.pendingEdges ++ [edge] }
      finalized := false } : Graph W T).stagedSlots first =
      graph.stagedSlots first ++ (edge.slot (.fresh weight)).expand := by
  subst hfirst
  rw [stagedSlots, List.zipIdx_append, List.flatMap_append]
  congr 1
  · apply List.flatMap_congr
    intro indexed hindexed
    have hlt := List.snd_lt_of_mem_zipIdx hindexed
    rw [h.synapses.row_push_of_lt _ (by omega)]
  · simp only [List.zipIdx_singleton, List.flatMap_cons, List.flatMap_nil, List.append_nil,
      Nat.zero_add, h.synapses.row_push]

theorem Listed.slots_concat (h : graph.Listed) (strings : StringInterner) (edge : PendingEdge W)
    (weight : W) :
    ({ graph with
      strings := strings
      edgePlasticity := graph.edgePlasticity.push (.fresh weight)
      csr := { graph.csr with pendingEdges := graph.csr.pendingEdges ++ [edge] }
      finalized := false } : Graph W T).slots = graph.slots := by
  apply List.map_congr_left
  intro slot hslot
  have hmem : slot.2 ∈ (edgeSlots (graph.csr.offsets.length - 1) graph.csr.offsets).map Prod.snd :=
    List.mem_map_of_mem hslot
  rw [h.indices, List.mem_range] at hmem
  have hrow := h.synapses.row_push_of_lt (.fresh weight) (Nat.lt_add_right _ hmem)
  simp only [slotAt, hrow]

-- The two slots of each bidirectional edge agree, and no such edge starts and ends in the
-- same node.
def Mirrored (graph : Graph W T) : Prop :=
  (((graph.slots.filter Slot.isCanonical).filter Slot.isBidirectional).map Slot.mirrored).Perm
    (graph.slots.filter fun slot => ¬ slot.isCanonical)

theorem Listed.slots_eq_nil (h : graph.Listed) (hedges : ¬ 0 < graph.csr.numEdges) :
    graph.slots = [] := by
  have hlength := h.length_edgeSlots
  have hnum := h.numEdges
  rw [slots, List.map_eq_nil_iff, ← List.length_eq_zero_iff]
  omega

omit [Zero W] in
theorem mem_harvestedSlots_lt (h : graph.Listed) (hbound : graph.csr.numEdges ≤ 2 ^ 32) :
    ∀ slot ∈ harvestedSlots graph.csr, slot.2 < 2 ^ 32 := by
  intro slot hslot
  have hmem : slot.2 ∈ (edgeSlots (graph.csr.offsets.length - 1) graph.csr.offsets).map Prod.snd :=
    List.mem_map_of_mem (List.mem_filter.mp hslot).1
  have hnum := h.numEdges
  rw [h.indices, List.mem_range] at hmem
  omega

-- A finalize keeps the slots and gives the staged edges theirs exactly when the slots of
-- each bidirectional edge agree.
theorem finalize_slots_perm_iff (hsound : graph.Sound) (h : graph.Listed)
    (hfinal : graph.finalized = false) (hbound : graph.csr.numEdges ≤ 2 ^ 32) :
    graph.finalize.slots.Perm (graph.slots ++ graph.stagedSlots graph.csr.numEdges) ↔
      graph.Mirrored := by
  rw [Graph.finalize, hfinal, if_neg Bool.false_ne_true]
  by_cases hedges : 0 < graph.csr.numEdges
  · rw [if_pos hedges]
    have hstaged := hsound.rehydrated
    have hperm := hstaged.rebuilt.slots_perm hstaged
    rw [stagedSlots_rehydrate (mem_harvestedSlots_lt h hbound)] at hperm
    have hcongr := List.Perm.congr_left hperm (graph.slots ++ graph.stagedSlots graph.csr.numEdges)
    rw [hcongr, List.perm_append_right_iff]
    exact expand_canonical_perm_iff graph.slots
  · rw [if_neg hedges]
    have hperm := hsound.staged.rebuilt.slots_perm hsound.staged
    have hzero : graph.csr.numEdges = 0 := by omega
    rw [Mirrored, h.slots_eq_nil hedges, hzero, List.nil_append]
    exact ⟨fun _ => .nil, fun _ => hperm⟩

theorem Listed.finalize (hsound : graph.Sound) (h : graph.Listed) : graph.finalize.Listed := by
  unfold Graph.finalize
  by_cases hfinal : graph.finalized = true
  · rw [if_pos hfinal]
    exact h
  · rw [if_neg hfinal]
    by_cases hedges : 0 < graph.csr.numEdges
    · rw [if_pos hedges]
      exact hsound.rehydrated.rebuilt.listed hsound.rehydrated
    · rw [if_neg hedges]
      exact hsound.staged.rebuilt.listed hsound.staged

omit [Zero W] in
-- The list of the slots is read off the CSR and the plasticity arrays.
theorem Listed.of_csr (h : graph.Listed) (hcsr : next.csr = graph.csr)
    (hplasticity : next.edgePlasticity = graph.edgePlasticity) : next.Listed := by
  refine ⟨?_, ?_, ?_, ?_⟩
  · rw [hcsr]
    exact h.indices
  · rw [hcsr]
    exact h.numEdges
  · rw [hcsr]
    exact h.weights
  · rw [hcsr, hplasticity]
    exact h.synapses

omit [Zero W] in
theorem Listed.addNode (h : graph.Listed) (externalId label : String) (nodeType : NodeType)
    (tags : List String) (lastModified : T) (changeFrequency : W) :
    (graph.addNode externalId label nodeType tags lastModified changeFrequency).2.Listed := by
  obtain ⟨strings, he⟩ | ⟨nodes, strings, idToNode, -, he⟩ :=
    graph.addNode_cases externalId label nodeType tags lastModified changeFrequency
  · exact h.of_csr (by rw [he]) (by rw [he])
  · exact h.of_csr (by rw [he]) (by rw [he])

omit [Zero W] in
theorem Listed.addEdge (h : graph.Listed) (source target : Nat) (relation : String) (weight : W)
    (direction : EdgeDirection) (inhibitory : Bool) (causalStrength : W) :
    (graph.addEdge source target relation weight direction inhibitory causalStrength).2.Listed := by
  unfold Graph.addEdge
  by_cases hsource : graph.nodes.count ≤ source
  · rw [if_pos hsource]
    exact h
  · by_cases htarget : graph.nodes.count ≤ target
    · rw [if_neg hsource, if_pos htarget]
      exact h
    · rw [if_neg hsource, if_neg htarget]
      refine ⟨h.indices, h.numEdges, h.weights, ?_⟩
      have hpush := h.synapses.push (.fresh weight)
      rw [Nat.add_assoc] at hpush
      rw [List.length_append]
      exact hpush

omit [Zero W] in
theorem Listed.storeWeight (h : graph.Listed) (slot : Nat) (weight : W) :
    ({ graph with csr := graph.csr.storeWeight slot weight } : Graph W T).Listed :=
  ⟨h.indices, h.numEdges, List.length_set.trans h.weights, h.synapses⟩

omit [Zero W] in
theorem Listed.storeSynapse (h : graph.Listed) (slot : Nat) (synapse : SynapseRecord W) :
    ({ graph with edgePlasticity := graph.edgePlasticity.store slot synapse } : Graph W T).Listed :=
  ⟨h.indices, h.numEdges, h.weights, h.synapses.store slot synapse⟩

theorem Listed.apply (hsound : graph.Sound) (h : graph.Listed) (op : GraphOp W T) :
    (GraphOp.apply graph op).Listed := by
  cases op with
  | addNode externalId label nodeType tags lastModified changeFrequency =>
      exact h.addNode externalId label nodeType tags lastModified changeFrequency
  | addEdge source target relation weight direction inhibitory causalStrength =>
      exact h.addEdge source target relation weight direction inhibitory causalStrength
  | storeWeight slot weight =>
      by_cases hslot : slot < graph.csr.targets.length
      · simp only [GraphOp.apply, if_pos hslot]
        exact h.storeWeight slot weight
      · simp only [GraphOp.apply, if_neg hslot]
        exact h
  | storeSynapse slot synapse =>
      by_cases hslot : slot < graph.csr.targets.length
      · simp only [GraphOp.apply, if_pos hslot]
        exact h.storeSynapse slot synapse
      · simp only [GraphOp.apply, if_neg hslot]
        exact h
  | finalize => exact h.finalize hsound

end Graph

theorem GraphOp.listed_run [Zero W] (ops : List (GraphOp W T)) : (GraphOp.run ops).Listed := by
  induction ops using List.reverseRecOn with
  | nil => exact Graph.listed_new
  | append_singleton ops op ih =>
      rw [GraphOp.run_concat]
      exact ih.apply (GraphOp.sound_run ops) op

end M1nd.Core
