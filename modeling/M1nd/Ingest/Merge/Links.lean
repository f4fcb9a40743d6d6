import M1nd.Core.Snapshot.Coherent
import M1nd.Ingest.Merge
import Mathlib.Data.List.GetD
import Mathlib.Data.String.Basic

namespace M1nd.Ingest

open M1nd.Core
open M1nd.Library.Buckets

variable {W T : Type}

-- What holds in every graph that is built by the operations, and is kept by a merge.
structure Whole (graph : Graph W T) : Prop where
  sound : graph.Sound
  listed : graph.Listed
  named : graph.Named
  registered : graph.Registered

theorem whole_run [Zero W] (edits : List (GraphEdit W T)) : Whole (GraphEdit.run edits) := by
  let _ := exactValues W
  have hcoherent := GraphEdit.coherent_run W edits
  exact ⟨hcoherent.sound, hcoherent.tabled.listed, hcoherent.named, hcoherent.registered⟩

section Names

variable {graph : Graph W T} {i : Nat} {s : String}

def nodeName (graph : Graph W T) (i : Nat) : String :=
  (nodeExternalIds graph).getD i ""

theorem nodeExternalIds_spec (h : graph.Registered) :
    (nodeExternalIds graph).length = graph.nodes.count ∧
      ∀ (s : String) (i : Nat), (nodeExternalIds graph)[i]? = some s ↔
        graph.resolveId s = some i := by
  have hstep (ids : List String) (entry : Nat × Nat) (s : String)
      (hs : graph.strings.tryResolve entry.1 = some s) (_ : entry.2 < ids.length) :
      (Except.ok (ids.set entry.2 (resolveName graph entry.1)) : Except Unit (List String)) =
        .ok (ids.set entry.2 s) := by
    rw [resolveName, hs]
    rfl
  obtain ⟨ids, hids, hlength, hspec⟩ := h.externalIds_eq hstep
  have hfold : nodeExternalIds graph = ids := by
    have hpure := @List.foldlM_pure (Except Unit) _ _ _ _
      (fun (ids : List String) (entry : Nat × Nat) => ids.set entry.2 (resolveName graph entry.1))
      (List.replicate graph.nodes.count "") graph.idToNode.toList
    exact Except.ok.inj (hpure.symm.trans hids)
  rw [hfold]
  exact ⟨hlength, hspec⟩

theorem resolveId_nodeName (h : graph.Registered) (hi : i < graph.nodes.count) :
    graph.resolveId (nodeName graph i) = some i := by
  obtain ⟨hlength, hspec⟩ := nodeExternalIds_spec h
  rw [← hspec, nodeName, List.getD_eq_getElem?_getD, List.getElem?_eq_getElem (by omega)]
  rfl

theorem nodeName_of_resolveId (h : graph.Registered) (hs : graph.resolveId s = some i) :
    nodeName graph i = s := by
  rw [nodeName, List.getD_eq_getElem?_getD, ((nodeExternalIds_spec h).2 s i).mpr hs]
  rfl

theorem resolveId_lt (h : graph.Registered) (hs : graph.resolveId s = some i) :
    i < graph.nodes.count := by
  obtain ⟨handle, _, hi⟩ := h.resolveId_iff.mp hs
  exact (h.known handle i hi).1

theorem nodeName_inj (h : graph.Registered) {j : Nat} (hi : i < graph.nodes.count)
    (hj : j < graph.nodes.count) (he : nodeName graph i = nodeName graph j) : i = j :=
  Option.some.inj ((resolveId_nodeName h hi).symm.trans (he ▸ resolveId_nodeName h hj))

end Names

-- An arc of the CSR under the external ids of its ends.
structure Link (W : Type) where
  source : String
  target : String
  relation : String
  direction : EdgeDirection
  inhibitory : Bool
  weight : W
  causalStrength : W
deriving DecidableEq

namespace Link

def mirrored (link : Link W) : Link W :=
  { link with source := link.target, target := link.source }

def key (link : Link W) : EdgeKey :=
  canonicalEdgeKey link.source link.target link.relation link.direction link.inhibitory

def record (link : Link W) : EdgeRecord W :=
  ⟨link.key, link.weight, link.causalStrength⟩

def expand (link : Link W) : List (Link W) :=
  if link.direction = .Bidirectional then [link, link.mirrored] else [link]

end Link

variable [Zero W] {graph : Graph W T}

def linkOf (graph : Graph W T) (slot : Slot W) : Link W where
  source := nodeName graph slot.source
  target := nodeName graph slot.target
  relation := resolveName graph slot.relation
  direction := slot.direction
  inhibitory := slot.inhibitory
  weight := slot.weight
  causalStrength := slot.causalStrength

omit [Zero W] in
theorem linkOf_expand (slot : Slot W) :
    slot.expand.map (linkOf graph) = (linkOf graph slot).expand := by
  unfold Slot.expand Link.expand Slot.isBidirectional
  by_cases hdirection : slot.direction = .Bidirectional
  · have hlink : (linkOf graph slot).direction = .Bidirectional := hdirection
    rw [if_pos hlink, if_pos (decide_eq_true hdirection)]
    rfl
  · have hlink : ¬ (linkOf graph slot).direction = .Bidirectional := hdirection
    rw [if_neg hlink, decide_eq_false hdirection, if_neg Bool.false_ne_true]
    rfl

-- The slots of a graph without regard to its numbering.
def links (graph : Graph W T) : List (Link W) :=
  graph.slots.map (linkOf graph)

-- The slots that a merge reads.
def canonicalLinks (graph : Graph W T) : List (Link W) :=
  (graph.slots.filter Slot.isCanonical).map (linkOf graph)

-- Every id of the graph passes the test of a merge.
def ValidIds (graph : Graph W T) : Prop :=
  ∀ s i, graph.resolveId s = some i → isValidExternalId s = true

omit [Zero W] in
theorem ValidIds.nodeName (h : ValidIds graph) (hregistered : graph.Registered) {i : Nat}
    (hi : i < graph.nodes.count) : isValidExternalId (nodeName graph i) = true :=
  h _ i (resolveId_nodeName hregistered hi)

-- The slots node by node.
theorem slots_eq_flatMap (hoffsets : graph.csr.offsets.length = graph.nodes.count + 1) :
    graph.slots = (List.range graph.nodes.count).flatMap fun src =>
      (graph.csr.outRange src).map (graph.slotAt src) := by
  rw [Graph.slots, edgeSlots, hoffsets, Nat.add_sub_cancel, List.map_flatMap]
  refine List.flatMap_congr fun src hsrc => ?_
  have hsrc := List.mem_range.mp hsrc
  rw [CsrGraph.outRange, if_neg (by omega), List.map_map]
  rfl

theorem Whole.slot_lt (h : Whole graph) (hfinal : graph.finalized = true) {slot : Slot W}
    (hslot : slot ∈ graph.slots) :
    slot.source < graph.nodes.count ∧ slot.target < graph.nodes.count := by
  rw [slots_eq_flatMap (h.sound.finalized hfinal).1.offsets.length] at hslot
  obtain ⟨src, hsrc, hmem⟩ := List.mem_flatMap.mp hslot
  obtain ⟨j, hj, rfl⟩ := List.mem_map.mp hmem
  have hlt := h.listed.mem_outRange_lt hj
  have htarget : graph.csr.targets.getD j 0 < graph.nodes.count := by
    rw [List.getD_eq_getElem _ _ hlt]
    exact h.sound.targets _ (List.getElem_mem hlt)
  exact ⟨List.mem_range.mp hsrc, htarget⟩

theorem collectEdges_eq (h : Whole graph) (hfinal : graph.finalized = true)
    (hbound : graph.csr.targets.length ≤ 2 ^ 32) (hvalid : ValidIds graph) :
    collectEdges graph = (canonicalLinks graph).map Link.record := by
  have hoffsets := (h.sound.finalized hfinal).1.offsets.length
  rw [collectEdges, canonicalLinks, slots_eq_flatMap hoffsets, List.filter_flatMap,
    List.map_flatMap, List.map_flatMap]
  refine List.flatMap_congr fun src hsrc => ?_
  have hsource := hvalid.nodeName h.registered (List.mem_range.mp hsrc)
  rw [nodeName] at hsource
  rw [hsource, Bool.not_true, if_neg Bool.false_ne_true, List.filter_map, List.map_map,
    List.map_map, ← List.filterMap_eq_map, List.filterMap_filter]
  refine List.filterMap_congr fun j hj => ?_
  have hlt := h.listed.mem_outRange_lt hj
  have htarget : graph.csr.targets.getD j 0 < graph.nodes.count := by
    rw [List.getD_eq_getElem _ _ hlt]
    exact h.sound.targets _ (List.getElem_mem hlt)
  have htargetValid := hvalid.nodeName h.registered htarget
  rw [nodeName] at htargetValid
  have hmirror : isMirrorSlot graph src j = !(graph.slotAt src j).isCanonical := by
    simp only [isMirrorSlot, Slot.isCanonical, decide_not, Bool.not_not]
    rfl
  have hindex : EdgeIdx.new j = j := Nat.mod_eq_of_lt (by omega)
  rw [hmirror, htargetValid]
  cases hcanonical : (graph.slotAt src j).isCanonical with
  | false => simp [hcanonical]
  | true =>
      simp only [Bool.not_true, Bool.false_eq_true, if_false, Function.comp_apply, hcanonical,
        if_true, Option.some.injEq]
      simp only [edgeRecord, Link.record, Link.key, linkOf, Graph.slotAt, nodeName,
        CsrGraph.readWeight, hindex]

end M1nd.Ingest

namespace M1nd.Ingest

open M1nd.Core
open M1nd.Library.Buckets

variable {W T : Type} [Zero W] {graph : Graph W T}

-- An edge that waits for its slots, under the external ids of its ends.
def stagedLink (graph : Graph W T) (edge : PendingEdge W) : Link W where
  source := nodeName graph edge.source
  target := nodeName graph edge.target
  relation := resolveName graph edge.relation
  direction := edge.direction
  inhibitory := edge.inhibitory
  weight := edge.weight
  causalStrength := edge.causalStrength

def stagedLinks (graph : Graph W T) : List (Link W) :=
  graph.csr.pendingEdges.map (stagedLink graph)

-- A graph that was never finalized.
structure Fresh (graph : Graph W T) : Prop where
  whole : Whole graph
  finalized : graph.finalized = false
  numEdges : graph.csr.numEdges = 0

theorem Fresh.finalize_eq (h : Fresh graph) : graph.finalize = graph.rebuildCsr := by
  have hedges : ¬ 0 < graph.csr.numEdges := by
    rw [h.numEdges]
    exact Nat.lt_irrefl 0
  rw [Graph.finalize, h.finalized, if_neg Bool.false_ne_true, if_neg hedges]

-- The slots of the first finalize are those that the staged edges ask for.
theorem Fresh.links_perm (h : Fresh graph) :
    (links graph.finalize).Perm ((stagedLinks graph).flatMap Link.expand) := by
  have hstaged := h.whole.sound.staged
  have hperm := (hstaged.rebuilt.slots_perm hstaged).map (linkOf graph)
  rw [links, h.finalize_eq]
  refine hperm.trans (List.Perm.of_eq ?_)
  rw [Graph.stagedSlots, stagedLinks, List.map_flatMap, List.flatMap_map]
  have hfst : graph.csr.pendingEdges = graph.csr.pendingEdges.zipIdx.map Prod.fst :=
    (List.zipIdx_map_fst 0 _).symm
  conv_rhs => rw [hfst, List.flatMap_map]
  exact List.flatMap_congr fun indexed _ => linkOf_expand (indexed.1.slot _)

section Keys

omit [Zero W]

theorem canonicalEdgeKey_swap (source target relation : String) (inhibitory : Bool) :
    canonicalEdgeKey target source relation .Bidirectional inhibitory =
      canonicalEdgeKey source target relation .Bidirectional inhibitory := by
  unfold canonicalEdgeKey
  rcases lt_trichotomy source target with hlt | rfl | hlt
  · simp [hlt, not_lt_of_gt hlt]
  · rfl
  · simp [hlt, not_lt_of_gt hlt]

theorem Link.key_mirrored (link : Link W) (h : link.direction = .Bidirectional) :
    link.mirrored.key = link.key := by
  unfold Link.key Link.mirrored
  rw [h]
  exact canonicalEdgeKey_swap _ _ _ _

-- A key names its ends up to their order, and a direction.
theorem canonicalEdgeKey_eq {source target relation source' target' relation' : String}
    {direction direction' : EdgeDirection} {inhibitory inhibitory' : Bool}
    (h : canonicalEdgeKey source target relation direction inhibitory =
      canonicalEdgeKey source' target' relation' direction' inhibitory') :
    direction = direction' ∧ ((source = source' ∧ target = target') ∨
      direction = .Bidirectional ∧ source = target' ∧ target = source') := by
  have hkind (source target relation : String) (direction : EdgeDirection) (inhibitory : Bool) :
      (canonicalEdgeKey source target relation direction inhibitory).direction =
        if direction = .Bidirectional then 1 else 0 := by
    unfold canonicalEdgeKey
    split
    · rename_i hswap
      rw [if_pos hswap.1]
    · rfl
  have hdirection : direction = direction' := by
    have hcodes := congrArg EdgeKey.direction h
    rw [hkind, hkind] at hcodes
    cases direction <;> cases direction' <;> simp_all
  subst hdirection
  refine ⟨rfl, ?_⟩
  have hsource := congrArg EdgeKey.source h
  have htarget := congrArg EdgeKey.target h
  unfold canonicalEdgeKey at hsource htarget
  cases direction with
  | Forward =>
      simp only [reduceCtorEq, false_and, if_false] at hsource htarget
      exact .inl ⟨hsource, htarget⟩
  | Bidirectional =>
      simp only [true_and] at hsource htarget
      by_cases hswap : target < source
      · by_cases hswap' : target' < source'
        · simp only [if_pos hswap, if_pos hswap'] at hsource htarget
          exact .inl ⟨htarget, hsource⟩
        · simp only [if_pos hswap, if_neg hswap'] at hsource htarget
          exact .inr ⟨rfl, htarget, hsource⟩
      · by_cases hswap' : target' < source'
        · simp only [if_neg hswap, if_pos hswap'] at hsource htarget
          exact .inr ⟨rfl, hsource, htarget⟩
        · simp only [if_neg hswap, if_neg hswap'] at hsource htarget
          exact .inl ⟨hsource, htarget⟩

end Keys

-- No staged edge joins a node to itself in both directions.
def LoopFree (graph : Graph W T) : Prop :=
  ∀ edge ∈ graph.csr.pendingEdges, edge.direction = .Bidirectional → edge.source ≠ edge.target

def placementLink (graph : Graph W T) (placement : Placement W) : Link W :=
  linkOf graph (placement.slot (graph.edgePlasticity.row placement.index))

def isCanonicalOf (graph : Graph W T) (key : EdgeKey) (placement : Placement W) : Bool :=
  (placement.slot (graph.edgePlasticity.row placement.index)).isCanonical &&
    decide ((placementLink graph placement).key = key)

-- The canonical placements of a key start in one node.
theorem Fresh.source_of_key (h : Fresh graph) {key : EdgeKey} {slot slot' : Placement W}
    (hslot : slot ∈ placements graph.csr.pendingEdges)
    (hslot' : slot' ∈ placements graph.csr.pendingEdges)
    (hkey : isCanonicalOf graph key slot = true) (hkey' : isCanonicalOf graph key slot' = true) :
    slot.source = slot'.source := by
  have hstaged := h.whole.sound.staged
  obtain ⟨hsource, htarget⟩ := hstaged.placement hslot
  obtain ⟨hsource', htarget'⟩ := hstaged.placement hslot'
  rw [isCanonicalOf, Bool.and_eq_true, decide_eq_true_eq] at hkey hkey'
  obtain ⟨hcanonical, hkey⟩ := hkey
  obtain ⟨hcanonical', hkey'⟩ := hkey'
  obtain ⟨hdirection, hends⟩ := canonicalEdgeKey_eq (hkey.trans hkey'.symm)
  obtain ⟨hname, -⟩ | ⟨hboth, hname, hname'⟩ := hends
  · exact nodeName_inj h.whole.registered hsource hsource' hname
  · have hcross := nodeName_inj h.whole.registered hsource htarget' hname
    have hcross' := nodeName_inj h.whole.registered htarget hsource' hname'
    rw [Slot.isCanonical, decide_eq_true_eq] at hcanonical hcanonical'
    have hle : ¬ slot.target < slot.source := fun hlt => hcanonical ⟨hboth, hlt⟩
    have hle' : ¬ slot'.target < slot'.source :=
      fun hlt => hcanonical' ⟨hdirection.symm.trans hboth, hlt⟩
    change slot.source = slot'.target at hcross
    change slot.target = slot'.source at hcross'
    omega

-- The staged edges of a key start in one node.
def Aligned (graph : Graph W T) : Prop :=
  ∀ edge ∈ graph.csr.pendingEdges, ∀ edge' ∈ graph.csr.pendingEdges,
    (stagedLink graph edge).key = (stagedLink graph edge').key → edge.source = edge'.source

-- Of the placements of an edge the canonical one is kept.
theorem records_placements (hloop : LoopFree graph) {edge : PendingEdge W}
    (hedge : edge ∈ graph.csr.pendingEdges) (index : Nat) (key : EdgeKey) :
    ((edge.placements index).filter (isCanonicalOf graph key)).map
        (fun slot => (placementLink graph slot).record) =
      [(stagedLink graph edge).record].filter fun record => record.key = key := by
  have hrecord : (stagedLink graph edge).record.key = (stagedLink graph edge).key := rfl
  unfold PendingEdge.placements
  by_cases hboth : edge.direction = .Bidirectional
  · have hne := hloop edge hedge hboth
    have hmirrored : (placementLink graph ⟨edge.target, edge.source, index, edge⟩).record =
        (stagedLink graph edge).record := by
      have hkey := Link.key_mirrored (stagedLink graph edge) hboth
      exact congrArg (fun key => EdgeRecord.mk key edge.weight edge.causalStrength) hkey
    have hsame : (placementLink graph ⟨edge.source, edge.target, index, edge⟩).record =
        (stagedLink graph edge).record := rfl
    have hfirst : isCanonicalOf graph key ⟨edge.source, edge.target, index, edge⟩ =
        (decide (edge.source < edge.target) && decide ((stagedLink graph edge).key = key)) := by
      unfold isCanonicalOf
      congr 1
      simp only [Slot.isCanonical, Placement.slot, hboth, true_and, decide_eq_decide]
      omega
    have hsecond : isCanonicalOf graph key ⟨edge.target, edge.source, index, edge⟩ =
        (decide (edge.target < edge.source) && decide ((stagedLink graph edge).key = key)) := by
      have hmirroredKey : (placementLink graph ⟨edge.target, edge.source, index, edge⟩).key =
          (stagedLink graph edge).key := congrArg EdgeRecord.key hmirrored
      unfold isCanonicalOf
      rw [hmirroredKey]
      congr 1
      simp only [Slot.isCanonical, Placement.slot, hboth, true_and, decide_eq_decide]
      omega
    rw [if_pos hboth]
    simp only [List.filter_cons, List.filter_nil, hfirst, hsecond, hrecord]
    by_cases hkey : (stagedLink graph edge).key = key
    · obtain hlt | hlt := Nat.lt_or_gt_of_ne hne
      · simp [hlt, hkey, Nat.lt_asymm hlt, hsame]
      · simp [hlt, hkey, Nat.lt_asymm hlt, hmirrored]
    · simp [hkey]
  · have hcanonical : isCanonicalOf graph key ⟨edge.source, edge.target, index, edge⟩ =
        decide ((stagedLink graph edge).key = key) := by
      unfold isCanonicalOf
      simp only [Slot.isCanonical, Placement.slot, hboth, false_and, not_false_eq_true,
        decide_true, Bool.true_and]
      rfl
    rw [if_neg hboth]
    simp only [List.filter_cons, List.filter_nil, hcanonical, hrecord]
    by_cases hkey : (stagedLink graph edge).key = key
    · simp only [hkey, decide_true, if_true, List.map_cons, List.map_nil]
      rfl
    · simp only [hkey, decide_false, Bool.false_eq_true, if_false, List.map_nil]

theorem flatMap_filter_of_nil {α β : Type} {items : List α} {f : α → List β} {p : α → Bool}
    (h : ∀ item ∈ items, p item = false → f item = []) :
    (items.filter p).flatMap f = items.flatMap f := by
  induction items with
  | nil => rfl
  | cons item items ih =>
      have ih := ih fun other hother => h other (List.mem_cons_of_mem _ hother)
      cases hp : p item with
      | true => rw [List.filter_cons_of_pos hp, List.flatMap_cons, List.flatMap_cons, ih]
      | false =>
          rw [List.filter_cons_of_neg (by simp [hp]), List.flatMap_cons, ih,
            h item List.mem_cons_self hp, List.nil_append]

theorem Fresh.filter_placed (h : Fresh graph) (hloop : LoopFree graph) (haligned : Aligned graph)
    (key : EdgeKey) :
    graph.placed.filter (isCanonicalOf graph key) =
      graph.csr.pendingEdges.zipIdx.flatMap fun indexed =>
        (indexed.1.placements indexed.2).filter (isCanonicalOf graph key) := by
  have hstaged := h.whole.sound.staged
  have hmem {indexed : PendingEdge W × Nat} (hindexed : indexed ∈ graph.csr.pendingEdges.zipIdx) :
      indexed.1 ∈ graph.csr.pendingEdges := List.fst_mem_of_mem_zipIdx hindexed
  have hnil : ∀ indexed ∈ graph.csr.pendingEdges.zipIdx,
      decide ((stagedLink graph indexed.1).key = key) = false →
        (indexed.1.placements indexed.2).filter (isCanonicalOf graph key) = [] := by
    intro indexed hindexed hkey
    have hrecords := records_placements hloop (hmem hindexed) indexed.2 key
    have hkey : ¬ (stagedLink graph indexed.1).record.key = key := of_decide_eq_false hkey
    rw [List.filter_cons_of_neg (by simpa using hkey), List.filter_nil,
      List.map_eq_nil_iff] at hrecords
    exact hrecords
  have hnilSorted := fun indexed hindexed => hnil indexed
    ((List.mergeSort_perm graph.csr.pendingEdges.zipIdx
      fun a b => decide (a.1.source ≤ b.1.source)).mem_iff.mp hindexed)
  rw [Graph.placed, filter_arrange (fun _ hslot => (hstaged.placement hslot).1)
    fun slot hslot slot' hslot' hkey hkey' => h.source_of_key hslot hslot' hkey hkey',
    placements, List.filter_flatMap, ← flatMap_filter_of_nil hnil,
    ← flatMap_filter_of_nil hnilSorted]
  rw [filter_mergeSort]
  · intro a b c hab hbc
    simp only [decide_eq_true_eq] at hab hbc ⊢
    omega
  · intro a b
    simp only [Bool.or_eq_true, decide_eq_true_eq]
    omega
  · intro a ha b hb hkey hkey'
    have hsource := haligned _ (hmem ha) _ (hmem hb)
      ((of_decide_eq_true hkey).trans (of_decide_eq_true hkey').symm)
    exact decide_eq_true (Nat.le_of_eq hsource)

-- The first finalize keeps the edges of a key in their order.
theorem Fresh.records_finalize (h : Fresh graph) (hloop : LoopFree graph)
    (haligned : Aligned graph) (key : EdgeKey) :
    ((canonicalLinks graph.finalize).map Link.record).filter (fun record => record.key = key) =
      ((stagedLinks graph).map Link.record).filter fun record => record.key = key := by
  have hstaged := h.whole.sound.staged
  have hslots := hstaged.rebuilt.slots_eq
  have hleft : ((canonicalLinks graph.finalize).map Link.record).filter
      (fun record => record.key = key) =
      (graph.placed.filter (isCanonicalOf graph key)).map
        fun slot => (placementLink graph slot).record := by
    rw [h.finalize_eq, canonicalLinks, hslots]
    simp only [List.map_map, List.filter_map, List.filter_filter]
    refine congrArg (List.map _) (List.filter_congr fun slot _ => ?_)
    exact Bool.and_comm _ _
  have hfst : graph.csr.pendingEdges = graph.csr.pendingEdges.zipIdx.map Prod.fst :=
    (List.zipIdx_map_fst 0 _).symm
  rw [hleft, h.filter_placed hloop haligned, List.map_flatMap, stagedLinks, List.map_map]
  conv_rhs => rw [hfst, List.map_map, ← List.flatMap_singleton' (List.map _ _), List.flatMap_map,
    List.filter_flatMap]
  refine List.flatMap_congr fun indexed hindexed => ?_
  exact records_placements hloop (List.fst_mem_of_mem_zipIdx hindexed) indexed.2 key

end M1nd.Ingest
