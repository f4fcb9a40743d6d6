import M1nd.Core.Graph.Runs

namespace M1nd.Core

open M1nd.Library.Buckets

variable {W T : Type}

-- A directed edge as the CSR and the plasticity arrays hold it together.
structure Slot (W : Type) where
  source : Nat
  target : Nat
  relation : Nat
  direction : EdgeDirection
  inhibitory : Bool
  causalStrength : W
  weight : W
  synapse : SynapseRecord W
deriving DecidableEq

-- The other slot of a bidirectional edge.
def Slot.mirrored (slot : Slot W) : Slot W :=
  { slot with source := slot.target, target := slot.source }

def Slot.isBidirectional (slot : Slot W) : Bool :=
  slot.direction = .Bidirectional

-- A slot a re-finalize stages again.
def Slot.isCanonical (slot : Slot W) : Bool :=
  ¬ (slot.direction = .Bidirectional ∧ slot.target < slot.source)

def Placement.slot (placement : Placement W) (synapse : SynapseRecord W) : Slot W where
  source := placement.source
  target := placement.target
  relation := placement.edge.relation
  direction := placement.edge.direction
  inhibitory := placement.edge.inhibitory
  causalStrength := placement.edge.causalStrength
  weight := placement.edge.weight
  synapse := synapse

def PendingEdge.slot (edge : PendingEdge W) (synapse : SynapseRecord W) : Slot W where
  source := edge.source
  target := edge.target
  relation := edge.relation
  direction := edge.direction
  inhibitory := edge.inhibitory
  causalStrength := edge.causalStrength
  weight := edge.weight
  synapse := synapse

section Expansion

-- The slots a slot becomes when its edge is staged and placed again.
def Slot.expand (slot : Slot W) : List (Slot W) :=
  if slot.isBidirectional then [slot, slot.mirrored] else [slot]

theorem PendingEdge.map_placements (edge : PendingEdge W) (index : Nat)
    (synapse : SynapseRecord W) :
    ((edge.placements index).map fun placement => placement.slot synapse) =
      (edge.slot synapse).expand := by
  unfold placements Slot.expand Slot.isBidirectional
  by_cases hdirection : edge.direction = .Bidirectional
  · have hslot : (edge.slot synapse).direction = .Bidirectional := hdirection
    simp only [hdirection, hslot, if_true, decide_true]
    rfl
  · have hslot : ¬ (edge.slot synapse).direction = .Bidirectional := hdirection
    simp only [hdirection, hslot, if_false, decide_false, Bool.false_eq_true]
    rfl

theorem flatMap_expand_perm (slots : List (Slot W)) :
    (slots.flatMap Slot.expand).Perm
      (slots ++ (slots.filter Slot.isBidirectional).map Slot.mirrored) := by
  induction slots with
  | nil => exact .nil
  | cons slot slots ih =>
      rw [List.flatMap_cons, List.filter_cons, Slot.expand]
      by_cases hbidirectional : slot.isBidirectional = true
      · rw [if_pos hbidirectional, if_pos hbidirectional]
        refine List.Perm.cons slot (List.Perm.trans (List.Perm.cons _ ih) ?_)
        exact List.perm_middle.symm
      · rw [if_neg hbidirectional, if_neg hbidirectional]
        exact List.Perm.cons slot ih

-- Staging the canonical slots again gives all slots back exactly when the mirror images of
-- the canonical bidirectional slots are the slots left out.
theorem expand_canonical_perm_iff (slots : List (Slot W)) :
    ((slots.filter Slot.isCanonical).flatMap Slot.expand).Perm slots ↔
      (((slots.filter Slot.isCanonical).filter Slot.isBidirectional).map Slot.mirrored).Perm
        (slots.filter fun slot => ¬ slot.isCanonical) := by
  have hexpand := flatMap_expand_perm (slots.filter Slot.isCanonical)
  have hsplit := List.filter_append_perm Slot.isCanonical slots
  simp only [Bool.not_eq_true, Bool.decide_eq_false] at hsplit ⊢
  constructor
  · intro h
    exact (List.perm_append_left_iff _).mp ((hexpand.symm.trans h).trans hsplit.symm)
  · intro h
    exact hexpand.trans (((List.perm_append_left_iff _).mpr h).trans hsplit)

end Expansion

namespace Graph

variable [Zero W] {graph next : Graph W T}

def slotAt (graph : Graph W T) (src j : Nat) : Slot W where
  source := src
  target := graph.csr.targets.getD j 0
  relation := graph.csr.relations.getD j 0
  direction := graph.csr.directions.getD j .Forward
  inhibitory := graph.csr.inhibitory.getD j false
  causalStrength := graph.csr.causalStrengths.getD j 0
  weight := graph.csr.weights.getD j 0
  synapse := graph.edgePlasticity.row j

-- The slots of the forward CSR, in their order.
def slots (graph : Graph W T) : List (Slot W) :=
  (edgeSlots (graph.csr.offsets.length - 1) graph.csr.offsets).map fun slot =>
    graph.slotAt slot.1 slot.2

-- The slots the staged edges ask for. Their plasticity lies behind that of the slots.
def stagedSlots (graph : Graph W T) (first : Nat) : List (Slot W) :=
  graph.csr.pendingEdges.zipIdx.flatMap fun indexed =>
    (indexed.1.slot (graph.edgePlasticity.row (first + indexed.2))).expand

theorem Rebuilt.row (hnext : graph.Rebuilt next) {j : Nat} {placement : Placement W}
    (hplaced : graph.placed[j]? = some placement) :
    next.edgePlasticity.row j = graph.edgePlasticity.row placement.index := by
  simp only [EdgePlasticity.row, hnext.originalWeight, hnext.currentWeight, hnext.strengthenCount,
    hnext.weakenCount, hnext.ltpApplied, hnext.ltdApplied, hnext.lastUsedQuery,
    List.getD_eq_getElem?_getD, List.getElem?_map, hplaced, Option.map_some, Option.getD_some]

-- The slots of the rebuilt CSR are the placements, each with the plasticity of its edge.
theorem Rebuilt.slots_eq (hnext : graph.Rebuilt next) :
    next.slots = graph.placed.map fun placement =>
      placement.slot (graph.edgePlasticity.row placement.index) := by
  have hcount : next.csr.offsets.length - 1 = next.nodes.count := by
    rw [hnext.offsets, hnext.nodes, length_offsets, Nat.add_sub_cancel]
  rw [slots, hcount, hnext.edgeSlots_eq, List.map_map]
  have hfst : graph.placed = graph.placed.zipIdx.map Prod.fst := (List.zipIdx_map_fst 0 _).symm
  conv_rhs => rw [hfst, List.map_map]
  apply List.map_congr_left
  intro slot hslot
  have hplaced : graph.placed[slot.2]? = some slot.1 := List.mk_mem_zipIdx_iff_getElem?.mp hslot
  simp only [Function.comp_apply, slotAt, Placement.slot, hnext.row hplaced, hnext.targets,
    hnext.relations, hnext.directions, hnext.inhibitory, hnext.causalStrengths, hnext.weights,
    List.getD_eq_getElem?_getD, List.getElem?_map, hplaced, Option.map_some, Option.getD_some]

theorem Rebuilt.slots_perm (h : graph.Staged) (hnext : graph.Rebuilt next) :
    next.slots.Perm (graph.stagedSlots 0) := by
  rw [hnext.slots_eq]
  refine ((h.placed_perm.trans placements_perm).map _).trans (List.Perm.of_eq ?_)
  rw [List.map_flatMap, stagedSlots]
  apply List.flatMap_congr
  intro indexed _
  rw [← PendingEdge.map_placements _ indexed.2]
  apply List.map_congr_left
  intro placement hplacement
  have hindex : placement.index = indexed.2 := by
    obtain rfl | ⟨-, rfl⟩ := PendingEdge.mem_placements.mp hplacement <;> rfl
  rw [hindex, Nat.zero_add]

end Graph

section Rehydrate

variable {α : Type}

-- The arrays after pushing one record for each item.
theorem EdgePlasticity.foldl_push (items : List α) (record : α → SynapseRecord W) :
    items.foldl (fun plasticity item => plasticity.push (record item)) EdgePlasticity.new = {
      originalWeight := items.map fun item => (record item).originalWeight
      currentWeight := items.map fun item => (record item).currentWeight
      strengthenCount := items.map fun item => (record item).strengthenCount
      weakenCount := items.map fun item => (record item).weakenCount
      ltpApplied := items.map fun item => (record item).ltpApplied
      ltdApplied := items.map fun item => (record item).ltdApplied
      lastUsedQuery := items.map fun item => (record item).lastUsedQuery } := by
  induction items using List.reverseRecOn with
  | nil => rfl
  | append_singleton items item ih =>
      rw [List.foldl_append, List.foldl_cons, List.foldl_nil, ih]
      simp only [push, List.map_append, List.map_cons, List.map_nil]

variable [Zero W]

theorem EdgePlasticity.row_extendFrom_of_lt (items : List α) (record : α → SynapseRecord W)
    (other : EdgePlasticity W) (first : Nat) {k : Nat} {item : α} (hitem : items[k]? = some item) :
    ((items.foldl (fun plasticity item => plasticity.push (record item))
      EdgePlasticity.new).extendFrom other first).row k = record item := by
  have hk : k < items.length := (List.getElem?_eq_some_iff.mp hitem).1
  rw [foldl_push]
  simp only [extendFrom, row, List.getD_eq_getElem?_getD, List.getElem?_append_left,
    List.length_map, hk, List.getElem?_map, hitem, Option.map_some, Option.getD_some]

theorem EdgePlasticity.row_extendFrom_add (items : List α) (record : α → SynapseRecord W)
    (other : EdgePlasticity W) (first k : Nat) :
    ((items.foldl (fun plasticity item => plasticity.push (record item))
      EdgePlasticity.new).extendFrom other first).row (items.length + k) = other.row (first + k) := by
  rw [foldl_push]
  simp only [extendFrom, row, List.getD_eq_getElem?_getD, List.getElem?_append_right,
    List.length_map, Nat.le_add_right, Nat.add_sub_cancel_left, List.getElem?_drop]

namespace Graph

variable {graph : Graph W T}

theorem slot_harvestedEdge {src j : Nat} (hj : j < 2 ^ 32) :
    (harvestedEdge graph.csr src j).slot (graph.edgePlasticity.row j) = graph.slotAt src j := by
  have hindex : EdgeIdx.new j = j := Nat.mod_eq_of_lt hj
  simp only [PendingEdge.slot, harvestedEdge, slotAt, CsrGraph.readWeight, hindex]

theorem map_harvestedSlots :
    (harvestedSlots graph.csr).map (fun slot => graph.slotAt slot.1 slot.2) =
      graph.slots.filter Slot.isCanonical := by
  rw [slots, List.filter_map, harvestedSlots]
  rfl

-- The staged slots of the rehydrated graph: the slots staged again, expanded, and those that
-- were staged before.
theorem stagedSlots_rehydrate_harvested :
    graph.rehydrateCsrIntoPending.stagedSlots 0 =
      ((harvestedSlots graph.csr).flatMap fun slot =>
        ((harvestedEdge graph.csr slot.1 slot.2).slot (graph.edgePlasticity.row slot.2)).expand) ++
        graph.stagedSlots graph.csr.numEdges := by
  have hpending : graph.rehydrateCsrIntoPending.csr.pendingEdges =
      (harvestedSlots graph.csr).map (fun slot => harvestedEdge graph.csr slot.1 slot.2) ++
        graph.csr.pendingEdges := rfl
  have hplasticity : graph.rehydrateCsrIntoPending.edgePlasticity =
      ((harvestedSlots graph.csr).foldl
        (fun plasticity slot => plasticity.push (graph.edgePlasticity.row slot.2))
        EdgePlasticity.new).extendFrom graph.edgePlasticity graph.csr.numEdges := rfl
  rw [stagedSlots, hpending, List.zipIdx_append, List.flatMap_append]
  congr 1
  · rw [List.zipIdx_map, List.flatMap_map]
    have hfst : harvestedSlots graph.csr = (harvestedSlots graph.csr).zipIdx.map Prod.fst :=
      (List.zipIdx_map_fst 0 _).symm
    conv_rhs => rw [hfst, List.flatMap_map]
    apply List.flatMap_congr
    intro indexed hindexed
    have hget : (harvestedSlots graph.csr)[indexed.2]? = some indexed.1 :=
      List.mk_mem_zipIdx_iff_getElem?.mp hindexed
    have hrow := EdgePlasticity.row_extendFrom_of_lt (harvestedSlots graph.csr)
      (fun slot => graph.edgePlasticity.row slot.2) graph.edgePlasticity graph.csr.numEdges hget
    rw [← hplasticity] at hrow
    simp only [Prod.map_fst, Prod.map_snd, id_eq, Nat.zero_add, hrow]
  · rw [stagedSlots, List.length_map, List.zipIdx_eq_map_add, List.flatMap_map]
    apply List.flatMap_congr
    intro indexed _
    have hrow := EdgePlasticity.row_extendFrom_add (harvestedSlots graph.csr)
      (fun slot => graph.edgePlasticity.row slot.2) graph.edgePlasticity graph.csr.numEdges indexed.2
    rw [← hplasticity] at hrow
    simp only [Nat.zero_add, hrow]

theorem stagedSlots_rehydrate (hbound : ∀ slot ∈ harvestedSlots graph.csr, slot.2 < 2 ^ 32) :
    graph.rehydrateCsrIntoPending.stagedSlots 0 =
      (graph.slots.filter Slot.isCanonical).flatMap Slot.expand ++
        graph.stagedSlots graph.csr.numEdges := by
  rw [stagedSlots_rehydrate_harvested, ← map_harvestedSlots, List.flatMap_map]
  congr 1
  apply List.flatMap_congr
  intro slot hslot
  rw [slot_harvestedEdge (hbound slot hslot)]

end Graph

end Rehydrate

end M1nd.Core
