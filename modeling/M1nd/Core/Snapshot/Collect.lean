import M1nd.Core.Graph.Refinalize
import M1nd.Core.Snapshot
import Mathlib.Data.List.TakeWhile

namespace M1nd.Core

open M1nd.Library.Buckets

variable {W F T : Type} [FiniteF32 W F]

def Slot.key (slot : Slot W) : EdgeSlotKey F :=
  ⟨slot.source, slot.target, slot.relation, slot.direction.code, slot.inhibitory,
    FiniteF32.get slot.causalStrength⟩

-- The slots of an edge with this key.
def EdgeSlotKey.expand (key : EdgeSlotKey F) : List (EdgeSlotKey F) :=
  if key.direction = 1 then [key, key.reversed] else [key]

theorem EdgeDirection.code_eq_one {direction : EdgeDirection} :
    direction.code = 1 ↔ direction = .Bidirectional := by
  cases direction <;> simp [EdgeDirection.code]

theorem EdgeDirection.code_le (direction : EdgeDirection) : direction.code ≤ 1 := by
  cases direction <;> simp [EdgeDirection.code]

theorem Slot.map_key_expand (slot : Slot W) : slot.expand.map Slot.key = slot.key.expand := by
  unfold Slot.expand EdgeSlotKey.expand Slot.isBidirectional
  by_cases hdirection : slot.direction = .Bidirectional
  · have hcode : (slot.key : EdgeSlotKey F).direction = 1 :=
      EdgeDirection.code_eq_one.mpr hdirection
    simp only [hdirection, decide_true, if_true, hcode]
    rfl
  · have hcode : ¬ (slot.key : EdgeSlotKey F).direction = 1 := fun h =>
      hdirection (EdgeDirection.code_eq_one.mp h)
    simp only [hdirection, decide_false, Bool.false_eq_true, if_false, hcode]
    rfl

section Sources

-- The slots are assigned one after the other.
theorem foldlM_assignSource (slots : List (Nat × Nat)) (assigned : List Nat)
    (hslots : slots.map Prod.snd = List.range' assigned.length slots.length) :
    slots.foldlM assignSource (assigned.map some ++ List.replicate slots.length none) =
      .ok ((assigned ++ slots.map Prod.fst).map some) := by
  induction slots generalizing assigned with
  | nil => simp; rfl
  | cons slot slots ih =>
      rw [List.map_cons, List.length_cons, List.range'_succ, List.cons.injEq] at hslots
      obtain ⟨hfirst, hrest⟩ := hslots
      have hstep : assignSource
          (assigned.map some ++ List.replicate (slots.length + 1) none) slot =
            .ok ((assigned ++ [slot.1]).map some ++ List.replicate slots.length none) := by
        have hfree : ¬ ((assigned.map some ++ List.replicate (slots.length + 1) none).length ≤
            slot.2 ∨ ((assigned.map some ++ List.replicate (slots.length + 1) none).getD
              slot.2 none).isSome) := by
          simp [hfirst, List.getD_eq_getElem?_getD]
        rw [assignSource, if_neg hfree]
        simp [hfirst, List.set_append_right, List.replicate_succ]
      rw [List.foldlM_cons, List.length_cons, hstep]
      have hlength : (assigned ++ [slot.1]).length = assigned.length + 1 := by simp
      have hnext := ih (assigned ++ [slot.1]) (by rw [hlength]; exact hrest)
      rw [List.append_assoc] at hnext
      exact hnext

variable {graph : Graph W T}

theorem flatMap_outRange (hcovered : graph.csr.offsets.length ≤ graph.nodes.count + 1) :
    ((List.range graph.nodes.count).flatMap fun source =>
      (graph.csr.outRange source).map fun slot => (source, slot)) =
        edgeSlots (graph.csr.offsets.length - 1) graph.csr.offsets := by
  obtain ⟨rest, hrest⟩ := Nat.exists_eq_add_of_le
    (show graph.csr.offsets.length - 1 ≤ graph.nodes.count by omega)
  have hbehind : ((List.range rest).map (graph.csr.offsets.length - 1 + ·)).flatMap (fun source =>
      (graph.csr.outRange source).map fun slot => (source, slot)) = [] := by
    rw [List.flatMap_eq_nil_iff]
    intro source hsource
    obtain ⟨i, -, rfl⟩ := List.mem_map.mp hsource
    rw [CsrGraph.outRange, if_pos (by omega), List.map_nil]
  rw [hrest, List.range_add, List.flatMap_append, hbehind, List.append_nil, edgeSlots]
  apply List.flatMap_congr
  intro source hsource
  rw [List.mem_range] at hsource
  rw [CsrGraph.outRange, if_neg (by omega)]

theorem edgeSlotSources_eq (h : graph.Listed)
    (hcovered : graph.csr.offsets.length ≤ graph.nodes.count + 1) :
    edgeSlotSources graph =
      .ok ((edgeSlots (graph.csr.offsets.length - 1) graph.csr.offsets).map Prod.fst) := by
  have hlength := h.length_edgeSlots
  have hnum := h.numEdges
  have hassigned := foldlM_assignSource
    (edgeSlots (graph.csr.offsets.length - 1) graph.csr.offsets) [] (by
      rw [h.indices, hlength, List.range_eq_range']
      rfl)
  rw [List.map_nil, List.nil_append, List.nil_append, hlength, ← hnum] at hassigned
  unfold edgeSlotSources
  simp only [flatMap_outRange hcovered, hassigned, bind, Except.bind]
  have hall : ¬ (((edgeSlots (graph.csr.offsets.length - 1) graph.csr.offsets).map Prod.fst).map
      some).any (fun source => source.isNone) = true := by
    simp
  rw [if_neg hall]
  simp [List.filterMap_map]

end Sources

section Queues

variable {graph : Graph W T}

-- The arrays of the slots lie side by side.
structure Graph.Tabled (graph : Graph W T) : Prop where
  listed : graph.Listed
  covered : graph.csr.offsets.length ≤ graph.nodes.count + 1
  relations : graph.csr.relations.length = graph.csr.targets.length
  directions : graph.csr.directions.length = graph.csr.targets.length
  inhibitory : graph.csr.inhibitory.length = graph.csr.targets.length
  causalStrengths : graph.csr.causalStrengths.length = graph.csr.targets.length

variable [Zero W]

def Graph.keys (graph : Graph W T) : List (EdgeSlotKey F) :=
  graph.slots.map Slot.key

theorem Graph.Tabled.length_keys (F : Type) [FiniteF32 W F] (h : graph.Tabled) :
    (graph.keys : List (EdgeSlotKey F)).length = graph.csr.numEdges := by
  rw [Graph.keys, Graph.slots, List.length_map, List.length_map, h.listed.length_edgeSlots,
    h.listed.numEdges]

theorem Graph.Tabled.edgeSlotKey_eq (h : graph.Tabled) {slot : Nat} {key : EdgeSlotKey F}
    (hkey : graph.keys[slot]? = some key) :
    edgeSlotKey graph
      ((edgeSlots (graph.csr.offsets.length - 1) graph.csr.offsets).map Prod.fst) slot =
        .ok key := by
  have hlt : slot < graph.csr.targets.length := by
    have hlength := (h.length_keys F).trans h.listed.numEdges
    have := (List.getElem?_eq_some_iff.mp hkey).1
    omega
  rw [Graph.keys, Graph.slots, List.getElem?_map, List.getElem?_map] at hkey
  cases hslot : (edgeSlots (graph.csr.offsets.length - 1) graph.csr.offsets)[slot]? with
  | none => simp [hslot] at hkey
  | some entry =>
      have hindex := (h.listed.snd_edgeSlots hslot).1
      simp only [hslot, Option.map_some, Option.some.injEq] at hkey
      have hnum : slot < graph.csr.numEdges := h.listed.numEdges ▸ hlt
      have hrelation : slot < graph.csr.relations.length := h.relations ▸ hlt
      have hdirection : slot < graph.csr.directions.length := h.directions ▸ hlt
      have hinhibitory : slot < graph.csr.inhibitory.length := h.inhibitory ▸ hlt
      have hstrength : slot < graph.csr.causalStrengths.length := h.causalStrengths ▸ hlt
      unfold edgeSlotKey
      simp only [List.getElem?_map, hslot, Option.map_some, List.getElem?_eq_getElem hlt,
        List.getElem?_eq_getElem hrelation, List.getElem?_eq_getElem hdirection,
        List.getElem?_eq_getElem hinhibitory, List.getElem?_eq_getElem hstrength, if_pos hnum]
      rw [← hkey]
      simp only [Slot.key, Graph.slotAt, hindex, List.getD_eq_getElem?_getD,
        List.getElem?_eq_getElem hlt, List.getElem?_eq_getElem hrelation,
        List.getElem?_eq_getElem hdirection, List.getElem?_eq_getElem hinhibitory,
        List.getElem?_eq_getElem hstrength, Option.getD_some]

variable [DecidableEq F]

-- The slots with a key, in their order.
def slotsOf (keys : List (EdgeSlotKey F)) (key : EdgeSlotKey F) : List Nat :=
  (List.range keys.length).filter fun slot => keys[slot]? = some key

theorem Graph.Tabled.edgeSlotQueues_eq (h : graph.Tabled) :
    edgeSlotQueues graph
      ((edgeSlots (graph.csr.offsets.length - 1) graph.csr.offsets).map Prod.fst) =
        .ok (slotsOf (graph.keys : List (EdgeSlotKey F))) := by
  have hpart (k : Nat) (hk : k ≤ (graph.keys : List (EdgeSlotKey F)).length) :
      (List.range k).foldlM
        (fun (queues : EdgeSlotKey F → List Nat) slot => do
          let key ← edgeSlotKey graph
            ((edgeSlots (graph.csr.offsets.length - 1) graph.csr.offsets).map Prod.fst) slot
          .ok (Function.update queues key (queues key ++ [slot])))
        (fun _ => []) =
          .ok fun key => (List.range k).filter fun slot => graph.keys[slot]? = some key := by
    induction k with
    | zero => rfl
    | succ k ih =>
        have hget := List.getElem?_eq_getElem (show k < graph.keys.length from hk)
        rw [List.range_succ, List.foldlM_append, ih (by omega)]
        simp only [bind, Except.bind, List.foldlM_cons, h.edgeSlotKey_eq hget, List.foldlM_nil]
        congr 1
        funext key
        by_cases he : graph.keys[k] = key
        · subst he
          simp [List.filter_append, hget]
        · have hne : key ≠ graph.keys[k] := fun h => he h.symm
          simp [List.filter_append, hget, he, hne]
  unfold edgeSlotQueues
  rw [← h.length_keys F]
  exact hpart _ (Nat.le_refl _)

end Queues

end M1nd.Core

namespace M1nd.Core

open M1nd.Library.Buckets

variable {W F T : Type} [FiniteF32 W F]

section Balance

theorem EdgeSlotKey.reversed_reversed (key : EdgeSlotKey F) : key.reversed.reversed = key := rfl

-- The keys are those of whole edges.
def Balanced (keys : Multiset (EdgeSlotKey F)) : Prop :=
  ∃ edges : List (EdgeSlotKey F), keys = ↑(edges.flatMap EdgeSlotKey.expand)

theorem EdgeSlotKey.mem_expand {key edge : EdgeSlotKey F} (h : key ∈ edge.expand) :
    (edge.expand : Multiset (EdgeSlotKey F)) = ↑key.expand := by
  unfold EdgeSlotKey.expand at h ⊢
  by_cases hdirection : edge.direction = 1
  · rw [if_pos hdirection] at h ⊢
    have hsame : key = edge ∨ key = edge.reversed := by simpa using h
    obtain rfl | rfl := hsame
    · rw [if_pos hdirection]
    · have hreversed : edge.reversed.direction = 1 := hdirection
      rw [if_pos hreversed, edge.reversed_reversed]
      exact Multiset.coe_eq_coe.mpr (List.Perm.swap _ _ _)
  · rw [if_neg hdirection] at h ⊢
    rw [List.mem_singleton.mp h, if_neg hdirection]

-- A slot can be taken out together with the other slot of its edge.
theorem Balanced.take {keys : Multiset (EdgeSlotKey F)} (h : Balanced keys) {key : EdgeSlotKey F}
    (hkey : key ∈ keys) :
    ∃ rest : Multiset (EdgeSlotKey F), Balanced rest ∧ keys = ↑key.expand + rest := by
  obtain ⟨edges, rfl⟩ := h
  rw [Multiset.mem_coe, List.mem_flatMap] at hkey
  obtain ⟨edge, hedge, hmem⟩ := hkey
  obtain ⟨before, after, rfl⟩ := List.append_of_mem hedge
  refine ⟨_, ⟨before ++ after, rfl⟩, ?_⟩
  rw [← EdgeSlotKey.mem_expand hmem]
  simp only [List.flatMap_append, List.flatMap_cons, ← Multiset.coe_add]
  rw [← Multiset.add_assoc, ← Multiset.add_assoc]
  congr 1
  exact Multiset.add_comm _ _

end Balance

section Collect

variable [DecidableEq F] [Zero W] {graph : Graph W T} {ids : List String}

-- The slots that the edges of a snapshot stand for.
def slotsIn (pairs : List (Nat × Option Nat)) : List Nat :=
  pairs.flatMap fun pair => pair.1 :: pair.2.toList

def keysAt (graph : Graph W T) (slots : List Nat) : List (EdgeSlotKey F) :=
  slots.filterMap fun slot => graph.keys[slot]?

-- An edge of the snapshot holds the names of its slot, and the weights of its one or two slots.
structure Written (graph : Graph W T) (ids : List String) (pair : Nat × Option Nat)
    (edge : EdgeSnapshotV4 F) : Prop where
  exists_key : ∃ key : EdgeSlotKey F, graph.keys[pair.1]? = some key ∧
    ids[key.source]? = some edge.sourceId ∧ ids[key.target]? = some edge.targetId ∧
    graph.strings.tryResolve key.relation = some edge.relation ∧ edge.direction = key.direction ∧
    edge.inhibitory = key.inhibitory ∧ edge.causalStrength = key.causalStrength ∧
    (key.direction = 1 ↔ pair.2.isSome) ∧ ∀ r ∈ pair.2, graph.keys[r]? = some key.reversed
  weights : (edge.originalWeight, edge.currentWeight) = slotWeights graph pair.1
  reverseOriginal : edge.reverseOriginalWeight =
    pair.2.map fun r => (slotWeights (F := F) graph r).1
  reverseCurrent : edge.reverseCurrentWeight =
    pair.2.map fun r => (slotWeights (F := F) graph r).2

-- What the loop over the slots has done by now.
structure Collecting (graph : Graph W T) (ids : List String) (state : Collected F)
    (pairs : List (Nat × Option Nat)) : Prop where
  edges : List.Forall₂ (Written graph ids) pairs state.edges
  consumed : ∀ slot, state.consumed slot = true ↔ slot ∈ slotsIn pairs
  nodup : (slotsIn pairs).Nodup
  keyed : ∀ slot ∈ slotsIn pairs, slot < graph.csr.numEdges
  queued : ∀ slot key, graph.keys[slot]? = some key → slot ∉ slotsIn pairs → slot ∈ state.queues key
  queues : ∀ key, ∀ slot ∈ state.queues key, graph.keys[slot]? = some key
  balanced : ∃ rest : List Nat, Balanced (keysAt graph rest : Multiset (EdgeSlotKey F)) ∧
    (slotsIn pairs ++ rest).Perm (List.range graph.csr.numEdges)

theorem exists_pop {queues : EdgeSlotKey F → List Nat} {key : EdgeSlotKey F} {consumed : Nat → Bool}
    {slot : Nat} (hmem : slot ∈ queues key) (hfree : consumed slot = false) :
    ∃ r rest, popUnconsumedSlot queues key consumed = some (r, Function.update queues key rest) ∧
      r ∈ queues key ∧ consumed r = false ∧ (∀ s ∈ rest, s ∈ queues key) ∧
      ∀ s ∈ queues key, consumed s = false → s = r ∨ s ∈ rest := by
  have hkept : ∀ s ∈ queues key, consumed s = false → s ∈ (queues key).dropWhile consumed := by
    intro s hs hfree
    rw [← List.takeWhile_append_dropWhile (p := consumed) (l := queues key)] at hs
    refine (List.mem_append.mp hs).resolve_left fun htake => ?_
    rw [List.mem_takeWhile_imp htake] at hfree
    exact absurd hfree nofun
  have hsub : (queues key).dropWhile consumed ⊆ queues key := List.dropWhile_subset _
  cases hdrop : (queues key).dropWhile consumed with
  | nil =>
      have hslot := hkept slot hmem hfree
      rw [hdrop] at hslot
      exact absurd hslot List.not_mem_nil
  | cons r rest =>
      rw [hdrop] at hkept hsub
      refine ⟨r, rest, ?_, hsub List.mem_cons_self, ?_, fun s hs => hsub (List.mem_cons_of_mem _ hs),
        fun s hs hfree => List.mem_cons.mp (hkept s hs hfree)⟩
      · rw [popUnconsumedSlot, hdrop]
      · have hne : (queues key).dropWhile consumed ≠ [] := by
          rw [hdrop]
          exact List.cons_ne_nil _ _
        have hhead := List.head_dropWhile_not consumed hne
        simpa only [hdrop, List.head_cons] using hhead

theorem slotsIn_concat (pairs : List (Nat × Option Nat)) (slot : Nat) (reverse : Option Nat) :
    slotsIn (pairs ++ [(slot, reverse)]) = slotsIn pairs ++ slot :: reverse.toList := by
  simp [slotsIn]

theorem filterMap_range_getElem? {α : Type} (items : List α) :
    ((List.range items.length).filterMap fun i => items[i]?) = items := by
  induction items with
  | nil => rfl
  | cons item items ih =>
      rw [List.length_cons, List.range_succ_eq_map, List.filterMap_cons, List.filterMap_map]
      simpa [Function.comp_def] using ih

-- The graph has what the edges of a snapshot refer to.
structure Graph.Spelled (F : Type) [FiniteF32 W F] (graph : Graph W T) (ids : List String) :
    Prop where
  tabled : graph.Tabled
  ends : ∀ key ∈ (graph.keys : List (EdgeSlotKey F)), key.source < ids.length ∧
    key.target < ids.length
  names : ∀ key ∈ (graph.keys : List (EdgeSlotKey F)), ∃ name,
    graph.strings.tryResolve key.relation = some name

omit [FiniteF32 W F] [DecidableEq F] [Zero W] in
theorem validateEdgePlasticitySlot_eq (h : graph.Listed) {slot : Nat}
    (hslot : slot < graph.csr.numEdges) : validateEdgePlasticitySlot graph slot = .ok () := by
  have hnum := h.numEdges
  have horiginal := h.synapses.originalWeight
  have hcurrent := h.synapses.currentWeight
  rw [validateEdgePlasticitySlot, if_neg (by omega)]

variable {state : Collected F} {pairs : List (Nat × Option Nat)}

omit [DecidableEq F] in
theorem Graph.Tabled.key_direction (h : graph.Tabled) {slot : Nat} {key : EdgeSlotKey F}
    (hkey : graph.keys[slot]? = some key) :
    key.direction = 1 ↔ graph.csr.directions.getD slot .Forward = .Bidirectional := by
  rw [Graph.keys, Graph.slots, List.getElem?_map, List.getElem?_map] at hkey
  cases hslot : (edgeSlots (graph.csr.offsets.length - 1) graph.csr.offsets)[slot]? with
  | none => simp [hslot] at hkey
  | some entry =>
      have hindex := (h.listed.snd_edgeSlots hslot).1
      simp only [hslot, Option.map_some, Option.some.injEq] at hkey
      rw [← hkey, ← EdgeDirection.code_eq_one, ← hindex]
      rfl

omit [DecidableEq F] in
-- The slots of a new edge of the snapshot are taken out of those that are left.
theorem Collecting.extend (h : Collecting graph ids state pairs) {pair : Nat × Option Nat}
    {edge : EdgeSnapshotV4 F} {queues : EdgeSlotKey F → List Nat} {consumed : Nat → Bool}
    {rest : List Nat} (hwritten : Written graph ids pair edge)
    (hconsumed : ∀ s, consumed s = true ↔ state.consumed s = true ∨ s ∈ pair.1 :: pair.2.toList)
    (hqueued : ∀ s key, s ∈ state.queues key → s ∉ pair.1 :: pair.2.toList →
      s ∉ slotsIn pairs → s ∈ queues key)
    (hqueues : ∀ key, ∀ s ∈ queues key, s ∈ state.queues key)
    (hbalanced : Balanced (keysAt graph rest : Multiset (EdgeSlotKey F)))
    (hperm : (slotsIn pairs ++ ((pair.1 :: pair.2.toList) ++ rest)).Perm
      (List.range graph.csr.numEdges)) :
    Collecting graph ids ⟨queues, consumed, state.edges ++ [edge]⟩ (pairs ++ [pair]) := by
  have hslots : slotsIn (pairs ++ [pair]) = slotsIn pairs ++ pair.1 :: pair.2.toList :=
    slotsIn_concat pairs pair.1 pair.2
  have hall := hperm
  rw [← List.append_assoc, ← hslots] at hall
  have hnodup := hall.nodup_iff.mpr List.nodup_range
  constructor
  case edges => exact List.rel_append h.edges (.cons hwritten .nil)
  case consumed =>
    intro s
    rw [hslots, List.mem_append, hconsumed, h.consumed]
  case nodup => exact (List.nodup_append.mp hnodup).1
  case keyed =>
    intro s hs
    exact List.mem_range.mp (hall.subset (List.mem_append_left _ hs))
  case queued =>
    intro s key hkey hs
    rw [hslots, List.mem_append, not_or] at hs
    exact hqueued s key (h.queued s key hkey hs.1) hs.2 hs.1
  case queues => exact fun key s hs => h.queues key s (hqueues key s hs)
  case balanced => exact ⟨rest, hbalanced, hall⟩

omit [DecidableEq F] in
-- A slot that is left, the key of its edge, and what is left without it.
theorem Collecting.left (h : Collecting graph ids state pairs) {slot : Nat} {key : EdgeSlotKey F}
    (hkey : graph.keys[slot]? = some key) (hslot : slot < graph.csr.numEdges)
    (hfresh : slot ∉ slotsIn pairs) :
    ∃ (rest : List Nat) (others : Multiset (EdgeSlotKey F)), Balanced others ∧
      ↑(key :: keysAt graph rest) = ↑key.expand + others ∧
      (slotsIn pairs ++ (slot :: rest)).Perm (List.range graph.csr.numEdges) := by
  obtain ⟨rest, hbalanced, hperm⟩ := h.balanced
  have hmem : slot ∈ rest := by
    have hin := hperm.symm.subset (List.mem_range.mpr hslot)
    exact (List.mem_append.mp hin).resolve_left hfresh
  have herase := List.perm_cons_erase hmem
  have hkeys : (keysAt graph rest : Multiset (EdgeSlotKey F)) =
      ↑(key :: keysAt graph (rest.erase slot)) := by
    refine Multiset.coe_eq_coe.mpr ((herase.filterMap _).trans (.of_eq ?_))
    rw [List.filterMap_cons, hkey]
    rfl
  have hmem' : key ∈ (keysAt graph rest : Multiset (EdgeSlotKey F)) := by
    rw [hkeys]
    exact List.mem_cons_self
  obtain ⟨others, hothers, hsplit⟩ := hbalanced.take hmem'
  refine ⟨rest.erase slot, others, hothers, hkeys.symm.trans hsplit, ?_⟩
  exact ((herase.symm).append_left _).trans hperm

theorem Collecting.collectSlot (h : Collecting graph ids state pairs)
    (hgraph : Graph.Spelled F graph ids) {slot : Nat} (hslot : slot < graph.csr.numEdges) :
    ∃ next more, collectSlot graph ids
        ((edgeSlots (graph.csr.offsets.length - 1) graph.csr.offsets).map Prod.fst) state slot =
          .ok next ∧ Collecting graph ids next (pairs ++ more) ∧ slot ∈ slotsIn (pairs ++ more) := by
  have hlength := hgraph.tabled.length_keys F
  unfold M1nd.Core.collectSlot
  by_cases hconsumed : state.consumed slot = true
  · rw [if_pos hconsumed]
    refine ⟨state, [], rfl, ?_, ?_⟩
    · rwa [List.append_nil]
    · rw [List.append_nil]
      exact (h.consumed slot).mp hconsumed
  · rw [if_neg hconsumed, validateEdgePlasticitySlot_eq hgraph.tabled.listed hslot]
    obtain ⟨key, hkey⟩ : ∃ key : EdgeSlotKey F, graph.keys[slot]? = some key :=
      ⟨_, List.getElem?_eq_getElem (by omega)⟩
    obtain ⟨hsource, htarget⟩ := hgraph.ends key (List.mem_of_getElem? hkey)
    obtain ⟨name, hname⟩ := hgraph.names key (List.mem_of_getElem? hkey)
    have hfresh : slot ∉ slotsIn pairs := fun hmem => hconsumed ((h.consumed slot).mpr hmem)
    obtain ⟨rest, others, hothers, hsplit, hperm⟩ := h.left hkey hslot hfresh
    have hupdate (s : Nat) : Function.update state.consumed slot true s = true ↔
        state.consumed s = true ∨ s = slot := by
      by_cases he : s = slot <;> simp [he]
    simp only [bind, Except.bind, hgraph.tabled.edgeSlotKey_eq hkey,
      List.getElem?_eq_getElem hsource, List.getElem?_eq_getElem htarget, hname, orPanic,
      collectReverse]
    by_cases hdirection : key.direction = 1
    · have hbidirectional := (hgraph.tabled.key_direction hkey).mp hdirection
      rw [EdgeSlotKey.expand, if_pos hdirection] at hsplit
      have hkeys : (keysAt graph rest : Multiset (EdgeSlotKey F)) = key.reversed ::ₘ others := by
        have hpair : (↑[key, key.reversed] : Multiset (EdgeSlotKey F)) + others =
            key ::ₘ (key.reversed ::ₘ others) := by
          rw [← Multiset.cons_coe, ← Multiset.cons_coe, Multiset.cons_add, Multiset.cons_add,
            Multiset.coe_nil, Multiset.zero_add]
        exact (Multiset.cons_inj_right key).mp (hsplit.trans hpair)
      -- The other slot of the edge is left, so that the queue of its key gives one.
      have hreverse : key.reversed ∈ keysAt graph rest := by
        rw [← Multiset.mem_coe, hkeys]
        exact Multiset.mem_cons_self _ _
      obtain ⟨r₀, hr₀, hkey₀⟩ := List.mem_filterMap.mp hreverse
      have hnodup := hperm.nodup_iff.mpr List.nodup_range
      have hleft (s : Nat) (hs : s ∈ rest) : s ∉ slotsIn pairs ∧ s ≠ slot := by
        refine ⟨fun hmem => ?_, ?_⟩
        · exact List.disjoint_of_nodup_append hnodup hmem (List.mem_cons_of_mem _ hs)
        · rintro rfl
          exact (List.nodup_cons.mp (List.nodup_append.mp hnodup).2.1).1 hs
      have hfree (s : Nat) (hs : s ∉ slotsIn pairs ∧ s ≠ slot) :
          Function.update state.consumed slot true s = false := by
        by_contra hne
        obtain hc | hc := (hupdate s).mp (Bool.not_eq_false _ ▸ hne)
        · exact hs.1 ((h.consumed s).mp hc)
        · exact hs.2 hc
      obtain ⟨r, queue, hpop, hr, hfree_r, hsub, hkept⟩ := exists_pop
        (h.queued r₀ key.reversed hkey₀ (hleft r₀ hr₀).1) (hfree r₀ (hleft r₀ hr₀))
      have hkey_r := h.queues key.reversed r hr
      have hr_lt : r < graph.csr.numEdges := hlength ▸ (List.getElem?_eq_some_iff.mp hkey_r).1
      have hfresh_r : r ∉ slotsIn pairs ∧ r ≠ slot := by
        refine ⟨fun hmem => ?_, fun he => ?_⟩
        · rw [(hupdate r).mpr (.inl ((h.consumed r).mpr hmem))] at hfree_r
          exact absurd hfree_r nofun
        · rw [(hupdate r).mpr (.inr he)] at hfree_r
          exact absurd hfree_r nofun
      have hr_rest : r ∈ rest := by
        have hin := hperm.symm.subset (List.mem_range.mpr hr_lt)
        obtain hin | hin := List.mem_append.mp hin
        · exact absurd hin hfresh_r.1
        · exact (List.mem_cons.mp hin).resolve_left hfresh_r.2
      have herase := List.perm_cons_erase hr_rest
      have hothers' : (keysAt graph (rest.erase r) : Multiset (EdgeSlotKey F)) = others := by
        have hcons : (keysAt graph rest : Multiset (EdgeSlotKey F)) =
            key.reversed ::ₘ ↑(keysAt graph (rest.erase r)) := by
          refine Multiset.coe_eq_coe.mpr ((herase.filterMap _).trans (.of_eq ?_))
          rw [List.filterMap_cons, hkey_r]
          rfl
        exact (Multiset.cons_inj_right key.reversed).mp (hcons.symm.trans hkeys)
      simp only [if_pos hbidirectional, hpop,
        validateEdgePlasticitySlot_eq hgraph.tabled.listed hr_lt]
      refine ⟨_, [(slot, some r)], rfl, ?_, ?_⟩
      · refine h.extend ?_ ?_ ?_ ?_ (hothers' ▸ hothers) ?_
        · refine ⟨⟨key, hkey, List.getElem?_eq_getElem hsource, List.getElem?_eq_getElem htarget,
            hname, rfl, rfl, rfl, by simp [hdirection], ?_⟩, rfl, rfl, rfl⟩
          rintro _ ⟨rfl⟩
          exact hkey_r
        · intro s
          by_cases he : s = r
          · simp [he]
          · rw [Function.update_of_ne he, hupdate]
            simp [he]
        · intro s other hs hnot hpairs
          simp only [Option.toList_some, List.mem_cons, List.not_mem_nil, or_false, not_or] at hnot
          by_cases he : other = key.reversed
          · subst he
            rw [Function.update_self]
            exact (hkept s hs (hfree s ⟨hpairs, hnot.1⟩)).resolve_left hnot.2
          · rwa [Function.update_of_ne he]
        · intro other s hs
          by_cases he : other = key.reversed
          · subst he
            rw [Function.update_self] at hs
            exact hsub s hs
          · rwa [Function.update_of_ne he] at hs
        · exact ((herase.symm.cons slot).append_left _).trans hperm
      · rw [slotsIn_concat]
        simp
    · have hforward : ¬ graph.csr.directions.getD slot .Forward = .Bidirectional := fun hb =>
        hdirection ((hgraph.tabled.key_direction hkey).mpr hb)
      rw [EdgeSlotKey.expand, if_neg hdirection] at hsplit
      have hkeys : (keysAt graph rest : Multiset (EdgeSlotKey F)) = others :=
        (Multiset.cons_inj_right key).mp hsplit
      simp only [if_neg hforward]
      refine ⟨_, [(slot, none)], rfl, ?_, ?_⟩
      · refine h.extend ?_ ?_ (fun s key hs _ _ => hs) (fun _ _ hs => hs)
          (hkeys ▸ hothers) hperm
        · refine ⟨⟨key, hkey, List.getElem?_eq_getElem hsource, List.getElem?_eq_getElem htarget,
            hname, rfl, rfl, rfl, by simp [hdirection], nofun⟩, rfl, rfl, rfl⟩
        · intro s
          rw [hupdate]
          simp
      · rw [slotsIn_concat]
        simp

-- The edges of the snapshot stand for the slots of the graph, each of them once.
theorem collectEdgeSnapshotsV4_eq (hgraph : Graph.Spelled F graph ids)
    (hbalanced : Balanced ((graph.keys : List (EdgeSlotKey F)) : Multiset (EdgeSlotKey F))) :
    ∃ (edges : List (EdgeSnapshotV4 F)) (pairs : List (Nat × Option Nat)),
      collectEdgeSnapshotsV4 graph ids = .ok edges ∧ List.Forall₂ (Written graph ids) pairs edges ∧
      (slotsIn pairs).Perm (List.range graph.csr.numEdges) := by
  have hlength := hgraph.tabled.length_keys F
  have hstart : Collecting graph ids
      ⟨slotsOf (graph.keys : List (EdgeSlotKey F)), fun _ => false, []⟩ [] := by
    have hall : keysAt graph (List.range graph.csr.numEdges) =
        (graph.keys : List (EdgeSlotKey F)) := by
      rw [keysAt, ← hlength]
      exact filterMap_range_getElem? _
    refine ⟨.nil, by simp [slotsIn], .nil, nofun, ?_, ?_, _, hall ▸ hbalanced, .refl _⟩
    · intro slot key hkey _
      refine List.mem_filter.mpr ⟨List.mem_range.mpr ?_, decide_eq_true hkey⟩
      exact (List.getElem?_eq_some_iff.mp hkey).1
    · intro key slot hslot
      exact of_decide_eq_true (List.mem_filter.mp hslot).2
  have hrun (k : Nat) (hk : k ≤ graph.csr.numEdges) : ∃ state pairs,
      (List.range k).foldlM (collectSlot graph ids
        ((edgeSlots (graph.csr.offsets.length - 1) graph.csr.offsets).map Prod.fst))
        ⟨slotsOf (graph.keys : List (EdgeSlotKey F)), fun _ => false, []⟩ = .ok state ∧
      Collecting graph ids state pairs ∧ ∀ slot < k, slot ∈ slotsIn pairs := by
    induction k with
    | zero => exact ⟨_, [], rfl, hstart, nofun⟩
    | succ k ih =>
        obtain ⟨state, pairs, hfold, hstate, hdone⟩ := ih (by omega)
        obtain ⟨next, more, hstep, hnext, hslot⟩ := hstate.collectSlot hgraph hk
        refine ⟨next, pairs ++ more, ?_, hnext, fun slot hlt => ?_⟩
        · rw [List.range_succ, List.foldlM_append, hfold]
          simp only [bind, Except.bind, List.foldlM_cons, hstep, List.foldlM_nil]
          rfl
        · by_cases he : slot = k
          · exact he ▸ hslot
          · have hmem := hdone slot (by omega)
            unfold slotsIn at hmem ⊢
            rw [List.flatMap_append]
            exact List.mem_append_left _ hmem
  obtain ⟨state, pairs, hfold, hstate, hdone⟩ := hrun _ (Nat.le_refl _)
  refine ⟨state.edges, pairs, ?_, hstate.edges, ?_⟩
  · unfold collectEdgeSnapshotsV4
    simp only [bind, Except.bind, edgeSlotSources_eq hgraph.tabled.listed hgraph.tabled.covered,
      hgraph.tabled.edgeSlotQueues_eq, hfold]
  · refine (List.perm_ext_iff_of_nodup hstate.nodup List.nodup_range).mpr fun slot => ?_
    rw [List.mem_range]
    exact ⟨hstate.keyed slot, hdone slot⟩

end Collect

end M1nd.Core
