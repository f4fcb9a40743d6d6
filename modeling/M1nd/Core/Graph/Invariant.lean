import M1nd.Core.Graph
import Mathlib.Data.List.Perm.Basic

namespace M1nd.Core

open M1nd.Library.Buckets

section Fill

variable {α β : Type} {n : Nat} {key : α → Nat} {items : List α}

theorem getLastD_offsets (keys : List Nat) :
    (offsets n keys).getLastD 0 = (offsets n keys).getD n 0 := by
  rw [List.getLastD_eq_getLast?, List.getLast?_eq_getElem?, length_offsets,
    List.getD_eq_getElem?_getD, Nat.add_sub_cancel]

-- Filling an array at the cursors puts the items in the order of their keys.
theorem fill_arrange (d : β) (f : α → β) (hkeys : ∀ item ∈ items, key item < n) :
    fill ((offsets n (items.map key)).getLastD 0) d (cursorPositions n (items.map key))
      (items.map f) = (arrange n key items).map f := by
  have hentries : ∀ entry ∈ items.map fun item => (key item, f item), entry.1 < n := by
    intro entry hentry
    obtain ⟨item, hitem, rfl⟩ := List.mem_map.mp hentry
    exact hkeys item hitem
  have h := scatter_eq_buckets d hentries
  have hfirst : (items.map fun item => (key item, f item)).map Prod.fst = items.map key := by
    rw [List.map_map]
    rfl
  have hsecond : (items.map fun item => (key item, f item)).map Prod.snd = items.map f := by
    rw [List.map_map]
    rfl
  rw [hfirst, hsecond] at h
  rw [fill, getLastD_offsets, cursorPositions, h, arrange, ← buckets_map, List.map_map]
  rfl

theorem edgeSlots_offsets :
    edgeSlots n (offsets n (items.map key)) =
      (arrange n key items).zipIdx.map fun item => (key item.1, item.2) := by
  have h := congrArg (List.map fun (row : Nat × Nat × Option α) => (row.1, row.2.1))
    (@rows_arrange α n key items)
  rw [List.map_map, List.map_flatMap] at h
  rw [edgeSlots]
  refine Eq.trans (List.flatMap_congr fun k hk => ?_) h
  rw [List.mem_range] at hk
  have hlo : (offsets n (items.map key)).getD k 0 = (items.map key).countP (· < k) :=
    getD_offsets (by omega)
  have hhi : (offsets n (items.map key)).getD (k + 1) 0 = (items.map key).countP (· < k + 1) :=
    getD_offsets (by omega)
  have hsub := countP_lt_succ (items.map key) k
  simp only [hlo, hhi, hsub, Nat.add_sub_cancel_left, List.map_map]
  rfl

end Fill

section Placements

variable {W : Type} {edges : List (PendingEdge W)} {slot : Placement W}

theorem PendingEdge.mem_placements {edge : PendingEdge W} {index : Nat} :
    slot ∈ edge.placements index ↔ slot = ⟨edge.source, edge.target, index, edge⟩ ∨
      edge.direction = .Bidirectional ∧ slot = ⟨edge.target, edge.source, index, edge⟩ := by
  unfold placements
  by_cases h : edge.direction = .Bidirectional <;> simp [h]

theorem mem_placements :
    slot ∈ placements edges ↔
      edges[slot.index]? = some slot.edge ∧ slot ∈ slot.edge.placements slot.index := by
  simp only [placements, List.mem_flatMap, List.mem_mergeSort]
  constructor
  · rintro ⟨⟨edge, index⟩, hmem, hslot⟩
    have hedge : slot.edge = edge ∧ slot.index = index := by
      obtain rfl | ⟨-, rfl⟩ := PendingEdge.mem_placements.mp hslot <;> exact ⟨rfl, rfl⟩
    rw [hedge.1, hedge.2]
    exact ⟨List.mk_mem_zipIdx_iff_getElem?.mp hmem, hslot⟩
  · rintro ⟨hedge, hslot⟩
    exact ⟨(slot.edge, slot.index), List.mk_mem_zipIdx_iff_getElem?.mpr hedge, hslot⟩

-- The slots of the edges are, in some order, those of each edge after the other.
theorem placements_perm :
    (placements edges).Perm (edges.zipIdx.flatMap fun indexed => indexed.1.placements indexed.2) :=
  (List.mergeSort_perm _ _).flatMap_right _

-- Edges that are staged in the order of their sources keep that order.
theorem placements_of_sorted
    (h : edges.zipIdx.Pairwise fun a b => decide (a.1.source ≤ b.1.source) = true) :
    placements edges = edges.zipIdx.flatMap fun indexed => indexed.1.placements indexed.2 := by
  rw [placements, List.mergeSort_of_pairwise h]

end Placements

namespace Graph

variable {W T : Type} {graph : Graph W T}

-- The staged edges end in nodes of the graph.
def Staged (graph : Graph W T) : Prop :=
  ∀ edge ∈ graph.csr.pendingEdges, edge.source < graph.nodes.count ∧
    edge.target < graph.nodes.count

-- The slots of the staged edges, in the order of the forward arrays.
def placed (graph : Graph W T) : List (Placement W) :=
  arrange graph.nodes.count Placement.source (placements graph.csr.pendingEdges)

theorem Staged.placement (h : graph.Staged) {slot : Placement W}
    (hslot : slot ∈ placements graph.csr.pendingEdges) :
    slot.source < graph.nodes.count ∧ slot.target < graph.nodes.count := by
  obtain ⟨hedge, hplace⟩ := mem_placements.mp hslot
  have hends := h slot.edge (List.mem_of_getElem? hedge)
  obtain he | ⟨-, he⟩ := PendingEdge.mem_placements.mp hplace
  · rw [he]
    exact hends
  · rw [he]
    exact hends.symm

theorem Staged.placed_perm (h : graph.Staged) :
    graph.placed.Perm (placements graph.csr.pendingEdges) :=
  arrange_perm fun _ hslot => (h.placement hslot).1

theorem Staged.placed_lt (h : graph.Staged) {slot : Placement W} (hslot : slot ∈ graph.placed) :
    slot.source < graph.nodes.count ∧ slot.target < graph.nodes.count :=
  h.placement (h.placed_perm.mem_iff.mp hslot)

-- The slots with their places, in the order of the reverse arrays.
def reversed (graph : Graph W T) : List (Placement W × Nat) :=
  arrange graph.nodes.count (fun slot => slot.1.target) graph.placed.zipIdx

variable [Zero W]

theorem offsets_rebuildCsr :
    graph.rebuildCsr.csr.offsets =
      offsets graph.nodes.count ((placements graph.csr.pendingEdges).map Placement.source) := rfl

-- What each array of the rebuilt CSR holds.
structure Rebuilt (graph : Graph W T) (next : Graph W T) : Prop where
  nodes : next.nodes = graph.nodes
  offsets : next.csr.offsets = Library.Buckets.offsets graph.nodes.count
    ((placements graph.csr.pendingEdges).map Placement.source)
  targets : next.csr.targets = graph.placed.map Placement.target
  weights : next.csr.weights = graph.placed.map fun slot => slot.edge.weight
  inhibitory : next.csr.inhibitory = graph.placed.map fun slot => slot.edge.inhibitory
  relations : next.csr.relations = graph.placed.map fun slot => slot.edge.relation
  directions : next.csr.directions = graph.placed.map fun slot => slot.edge.direction
  causalStrengths : next.csr.causalStrengths = graph.placed.map fun slot => slot.edge.causalStrength
  revOffsets : next.csr.revOffsets = Library.Buckets.offsets graph.nodes.count
    (graph.placed.zipIdx.map fun slot => slot.1.target)
  revSources : next.csr.revSources = graph.reversed.map fun slot => slot.1.source
  revEdgeIdx : next.csr.revEdgeIdx = graph.reversed.map fun slot => EdgeIdx.new slot.2
  pendingEdges : next.csr.pendingEdges = []
  originalWeight : next.edgePlasticity.originalWeight =
    graph.placed.map fun slot => (graph.edgePlasticity.row slot.index).originalWeight
  currentWeight : next.edgePlasticity.currentWeight =
    graph.placed.map fun slot => (graph.edgePlasticity.row slot.index).currentWeight
  strengthenCount : next.edgePlasticity.strengthenCount =
    graph.placed.map fun slot => (graph.edgePlasticity.row slot.index).strengthenCount
  weakenCount : next.edgePlasticity.weakenCount =
    graph.placed.map fun slot => (graph.edgePlasticity.row slot.index).weakenCount
  ltpApplied : next.edgePlasticity.ltpApplied =
    graph.placed.map fun slot => (graph.edgePlasticity.row slot.index).ltpApplied
  ltdApplied : next.edgePlasticity.ltdApplied =
    graph.placed.map fun slot => (graph.edgePlasticity.row slot.index).ltdApplied
  lastUsedQuery : next.edgePlasticity.lastUsedQuery =
    graph.placed.map fun slot => (graph.edgePlasticity.row slot.index).lastUsedQuery
  finalized : next.finalized = true

theorem Staged.rebuilt (h : graph.Staged) : graph.Rebuilt graph.rebuildCsr := by
  have hkeys : ∀ slot ∈ placements graph.csr.pendingEdges, slot.source < graph.nodes.count :=
    fun slot hslot => (h.placement hslot).1
  have htargets : graph.rebuildCsr.csr.targets = graph.placed.map Placement.target :=
    fill_arrange 0 Placement.target hkeys
  -- Reading the targets back through the rows gives each slot with its own target.
  have hreverse : (edgeSlots graph.nodes.count graph.rebuildCsr.csr.offsets).map
      (fun slot => (graph.rebuildCsr.csr.targets.getD slot.2 0, slot.1, slot.2)) =
        graph.placed.zipIdx.map fun slot => (slot.1.target, slot.1.source, slot.2) := by
    rw [offsets_rebuildCsr, edgeSlots_offsets, htargets, List.map_map]
    apply List.map_congr_left
    intro slot hslot
    have hget : graph.placed[slot.2]? = some slot.1 := List.mk_mem_zipIdx_iff_getElem?.mp hslot
    simp only [Function.comp_apply, List.getD_eq_getElem?_getD, List.getElem?_map, hget,
      Option.map_some, Option.getD_some]
  have hrevKeys : ∀ slot ∈ graph.placed.zipIdx, slot.1.target < graph.nodes.count := by
    intro slot hslot
    exact (h.placed_lt (List.fst_mem_of_mem_zipIdx hslot)).2
  have hrevFirst : ((edgeSlots graph.nodes.count graph.rebuildCsr.csr.offsets).map
      fun slot => (graph.rebuildCsr.csr.targets.getD slot.2 0, slot.1, slot.2)).map Prod.fst =
        graph.placed.zipIdx.map fun slot => slot.1.target := by
    rw [hreverse, List.map_map]
    rfl
  have hrevFill {β : Type} (d : β) (f : Nat × Nat × Nat → β) :
      fill ((offsets graph.nodes.count (graph.placed.zipIdx.map fun slot => slot.1.target)).getLastD 0)
        d (cursorPositions graph.nodes.count (graph.placed.zipIdx.map fun slot => slot.1.target))
        (((edgeSlots graph.nodes.count graph.rebuildCsr.csr.offsets).map
          fun slot => (graph.rebuildCsr.csr.targets.getD slot.2 0, slot.1, slot.2)).map f) =
        graph.reversed.map fun slot => f (slot.1.target, slot.1.source, slot.2) := by
    rw [hreverse, List.map_map]
    exact fill_arrange d (fun slot => f (slot.1.target, slot.1.source, slot.2)) hrevKeys
  exact {
    nodes := rfl
    offsets := rfl
    targets := htargets
    weights := fill_arrange 0 (fun slot : Placement W => slot.edge.weight) hkeys
    inhibitory := fill_arrange false (fun slot : Placement W => slot.edge.inhibitory) hkeys
    relations := fill_arrange 0 (fun slot : Placement W => slot.edge.relation) hkeys
    directions := fill_arrange EdgeDirection.Forward (fun slot : Placement W => slot.edge.direction) hkeys
    causalStrengths := fill_arrange 0 (fun slot : Placement W => slot.edge.causalStrength) hkeys
    revOffsets := congrArg (Library.Buckets.offsets graph.nodes.count) hrevFirst
    revSources := by
      have hfill := hrevFill 0 fun entry => entry.2.1
      rw [← hrevFirst] at hfill
      exact hfill
    revEdgeIdx := by
      have hfill := hrevFill 0 fun entry => EdgeIdx.new entry.2.2
      rw [← hrevFirst] at hfill
      exact hfill
    pendingEdges := rfl
    originalWeight := fill_arrange 0 _ hkeys
    currentWeight := fill_arrange 0 _ hkeys
    strengthenCount := fill_arrange 0 _ hkeys
    weakenCount := fill_arrange 0 _ hkeys
    ltpApplied := fill_arrange false _ hkeys
    ltdApplied := fill_arrange false _ hkeys
    lastUsedQuery := fill_arrange 0 _ hkeys
    finalized := rfl }

end Graph

end M1nd.Core

namespace M1nd.Core

open M1nd.Library.Buckets

section Offsets

variable {W : Type} {n : Nat} {keys : List Nat} {csr : CsrGraph W}

theorem mem_edgeSlots {offsets : List Nat} {src j : Nat} :
    (src, j) ∈ edgeSlots n offsets ↔ src < n ∧
      j ∈ List.range' (offsets.getD src 0) (offsets.getD (src + 1) 0 - offsets.getD src 0) := by
  simp only [edgeSlots, List.mem_flatMap, List.mem_range, List.mem_map, Prod.mk.injEq]
  constructor
  · rintro ⟨_, hsrc, _, hj, rfl, rfl⟩
    exact ⟨hsrc, hj⟩
  · rintro ⟨hsrc, hj⟩
    exact ⟨src, hsrc, j, hj, rfl, rfl⟩

theorem CsrGraph.mem_outRange (hlength : csr.offsets.length = n + 1) {src j : Nat} :
    j ∈ csr.outRange src ↔ (src, j) ∈ edgeSlots n csr.offsets := by
  rw [mem_edgeSlots, outRange]
  by_cases h : csr.offsets.length ≤ src + 1
  · have hsrc : ¬ src < n := by omega
    simp [h, hsrc]
  · have hsrc : src < n := by omega
    simp [h, hsrc]

theorem CsrGraph.mem_inRange (hlength : csr.revOffsets.length = n + 1) {node r : Nat} :
    r ∈ csr.inRange node ↔ (node, r) ∈ edgeSlots n csr.revOffsets := by
  rw [mem_edgeSlots, inRange]
  by_cases h : csr.revOffsets.length ≤ node + 1
  · have hnode : ¬ node < n := by omega
    simp [h, hnode]
  · have hnode : node < n := by omega
    simp [h, hnode]

theorem offsets_pairwise : (offsets n keys).Pairwise (· ≤ ·) := by
  rw [offsets_eq_map, List.pairwise_map]
  refine List.pairwise_lt_range.imp fun {a b} hlt => ?_
  apply List.countP_mono_left
  intro key _ hkey
  simp only [decide_eq_true_eq] at hkey ⊢
  omega

theorem head_offsets : (offsets n keys)[0]? = some 0 := by
  have h : keys.countP (fun _ => false) = 0 := by simp
  simp [offsets_eq_map]

theorem getLast_offsets (hkeys : ∀ key ∈ keys, key < n) :
    (offsets n keys).getLast? = some keys.length := by
  have hall : keys.countP (· < n) = keys.length := by
    rw [List.countP_eq_length]
    simpa using hkeys
  rw [offsets_eq_map, List.range_succ, List.map_append, List.map_singleton, List.getLast?_concat,
    hall]

end Offsets

-- The offsets of an array of slots, and the parts they cut it into.
structure CutsInto (offsets : List Nat) (n slots : Nat) : Prop where
  length : offsets.length = n + 1
  first : offsets[0]? = some 0
  last : offsets.getLast? = some slots
  sorted : offsets.Pairwise (· ≤ ·)

theorem cutsInto_offsets {n : Nat} {keys : List Nat} (hkeys : ∀ key ∈ keys, key < n) :
    CutsInto (offsets n keys) n keys.length where
  length := length_offsets
  first := head_offsets
  last := getLast_offsets hkeys
  sorted := offsets_pairwise

namespace Graph

variable {W T : Type} {graph next : Graph W T}

theorem mem_harvestedSlots {csr : CsrGraph W} {src j : Nat} :
    (src, j) ∈ harvestedSlots csr ↔
      (src, j) ∈ edgeSlots (csr.offsets.length - 1) csr.offsets ∧
        ¬ (csr.directions.getD j .Forward = .Bidirectional ∧ csr.targets.getD j 0 < src) := by
  rw [harvestedSlots, List.mem_filter, decide_eq_true_iff]

-- The forward CSR, and one entry of every array for each of its slots.
structure Parallel (graph : Graph W T) : Prop where
  offsets : CutsInto graph.csr.offsets graph.nodes.count graph.csr.targets.length
  revOffsets : CutsInto graph.csr.revOffsets graph.nodes.count graph.csr.targets.length
  csr : graph.csr.weights.length = graph.csr.targets.length ∧
    graph.csr.inhibitory.length = graph.csr.targets.length ∧
    graph.csr.relations.length = graph.csr.targets.length ∧
    graph.csr.directions.length = graph.csr.targets.length ∧
    graph.csr.causalStrengths.length = graph.csr.targets.length
  reverse : graph.csr.revSources.length = graph.csr.targets.length ∧
    graph.csr.revEdgeIdx.length = graph.csr.targets.length
  plasticity : graph.edgePlasticity.originalWeight.length = graph.csr.targets.length ∧
    graph.edgePlasticity.currentWeight.length = graph.csr.targets.length ∧
    graph.edgePlasticity.strengthenCount.length = graph.csr.targets.length ∧
    graph.edgePlasticity.weakenCount.length = graph.csr.targets.length ∧
    graph.edgePlasticity.ltpApplied.length = graph.csr.targets.length ∧
    graph.edgePlasticity.ltdApplied.length = graph.csr.targets.length ∧
    graph.edgePlasticity.lastUsedQuery.length = graph.csr.targets.length

-- The reverse CSR is the transpose of the forward one: it names each slot once, and an entry
-- of a node names a slot that ends there, together with the node the slot starts at.
structure Transposed (graph : Graph W T) : Prop where
  bijection : graph.csr.revEdgeIdx.Perm (List.range graph.csr.targets.length)
  points : ∀ node < graph.nodes.count, ∀ r ∈ graph.csr.inRange node, ∃ j src,
    graph.csr.revEdgeIdx[r]? = some j ∧ graph.csr.revSources[r]? = some src ∧
      graph.csr.targets[j]? = some node ∧ j ∈ graph.csr.outRange src

theorem Parallel.numEdges_eq (h : graph.Parallel) :
    graph.csr.numEdges = graph.csr.targets.length := by
  rw [CsrGraph.numEdges, List.getLastD_eq_getLast?, h.offsets.last, Option.getD_some]

theorem Staged.reversed_perm (h : graph.Staged) : graph.reversed.Perm graph.placed.zipIdx :=
  arrange_perm fun _ hslot => (h.placed_lt (List.fst_mem_of_mem_zipIdx hslot)).2

variable [Zero W]

theorem Rebuilt.parallel (h : graph.Staged) (hnext : graph.Rebuilt next) : next.Parallel := by
  have hlength : graph.placed.length = (placements graph.csr.pendingEdges).length :=
    h.placed_perm.length_eq
  have hreversed : graph.reversed.length = graph.placed.length := by
    rw [h.reversed_perm.length_eq, List.length_zipIdx]
  constructor
  · rw [hnext.offsets, hnext.nodes, hnext.targets, List.length_map, hlength]
    have hsources : ∀ key ∈ (placements graph.csr.pendingEdges).map Placement.source,
        key < graph.nodes.count := by
      intro key hkey
      obtain ⟨slot, hslot, rfl⟩ := List.mem_map.mp hkey
      exact (h.placement hslot).1
    have hcuts := cutsInto_offsets hsources
    rwa [List.length_map] at hcuts
  · rw [hnext.revOffsets, hnext.nodes, hnext.targets, List.length_map]
    have htargets : ∀ key ∈ graph.placed.zipIdx.map fun slot => slot.1.target,
        key < graph.nodes.count := by
      intro key hkey
      obtain ⟨slot, hslot, rfl⟩ := List.mem_map.mp hkey
      exact (h.placed_lt (List.fst_mem_of_mem_zipIdx hslot)).2
    have hcuts := cutsInto_offsets htargets
    rwa [List.length_map, List.length_zipIdx] at hcuts
  · simp only [hnext.weights, hnext.inhibitory, hnext.relations, hnext.directions,
      hnext.causalStrengths, hnext.targets, List.length_map, and_self]
  · simp only [hnext.revSources, hnext.revEdgeIdx, hnext.targets, List.length_map, hreversed,
      and_self]
  · simp only [hnext.originalWeight, hnext.currentWeight, hnext.strengthenCount,
      hnext.weakenCount, hnext.ltpApplied, hnext.ltdApplied, hnext.lastUsedQuery, hnext.targets,
      List.length_map, and_self]

theorem Rebuilt.edgeSlots_eq (hnext : graph.Rebuilt next) :
    edgeSlots next.nodes.count next.csr.offsets =
      graph.placed.zipIdx.map fun slot => (slot.1.source, slot.2) := by
  rw [hnext.nodes, hnext.offsets, edgeSlots_offsets]
  rfl

theorem Rebuilt.transposed (h : graph.Staged) (hnext : graph.Rebuilt next)
    (hbound : next.csr.targets.length ≤ 2 ^ 32) : next.Transposed := by
  have hparallel := hnext.parallel h
  have hsize : graph.placed.length ≤ 2 ^ 32 := by
    rwa [hnext.targets, List.length_map] at hbound
  have hindex {slot : Placement W × Nat} (hslot : slot ∈ graph.placed.zipIdx) :
      EdgeIdx.new slot.2 = slot.2 := by
    have hlt := List.snd_lt_of_mem_zipIdx hslot
    exact Nat.mod_eq_of_lt (by omega)
  constructor
  · have hperm := h.reversed_perm.map fun slot => EdgeIdx.new slot.2
    rw [hnext.revEdgeIdx, hnext.targets, List.length_map]
    refine hperm.trans (List.Perm.of_eq ?_)
    rw [List.map_congr_left fun slot hslot => hindex hslot, List.range_eq_range',
      ← List.zipIdx_map_snd 0 graph.placed]
  · intro node hnode r hr
    rw [CsrGraph.mem_inRange hparallel.revOffsets.length, hnext.nodes, hnext.revOffsets,
      edgeSlots_offsets, List.mem_map] at hr
    obtain ⟨⟨⟨slot, j⟩, r⟩, hmem, hkeys⟩ := hr
    obtain ⟨rfl, rfl⟩ := Prod.mk.inj hkeys
    have hentry : graph.reversed[r]? = some (slot, j) := List.mk_mem_zipIdx_iff_getElem?.mp hmem
    have hplace : (slot, j) ∈ graph.placed.zipIdx :=
      h.reversed_perm.mem_iff.mp (List.mem_of_getElem? hentry)
    refine ⟨j, slot.source, ?_, ?_, ?_, ?_⟩
    · rw [hnext.revEdgeIdx, List.getElem?_map, hentry, Option.map_some, hindex hplace]
    · rw [hnext.revSources, List.getElem?_map, hentry, Option.map_some]
    · rw [hnext.targets, List.getElem?_map, List.mk_mem_zipIdx_iff_getElem?.mp hplace,
        Option.map_some]
    · rw [CsrGraph.mem_outRange hparallel.offsets.length, hnext.edgeSlots_eq]
      exact List.mem_map.mpr ⟨(slot, j), hplace, rfl⟩

end Graph

end M1nd.Core
