import M1nd.Core.Snapshot.Collect
import M1nd.Core.Snapshot.Load

namespace M1nd.Core

open M1nd.Library.Buckets
open M1nd.Library.Checks
open M1nd.Library.Runs

variable {W F T : Type} [FiniteF32 W F] {graph next last : Graph W T}

-- The nodes and their names stay as they are.
structure Graph.SameNames (graph next : Graph W T) : Prop where
  nodes : next.nodes = graph.nodes
  idToNode : next.idToNode = graph.idToNode
  strings : next.strings = graph.strings

theorem Graph.SameNames.refl (graph : Graph W T) : graph.SameNames graph :=
  ⟨rfl, rfl, rfl⟩

theorem Graph.SameNames.trans (h : graph.SameNames next) (h' : next.SameNames last) :
    graph.SameNames last :=
  ⟨h'.nodes.trans h.nodes, h'.idToNode.trans h.idToNode, h'.strings.trans h.strings⟩

theorem Graph.SameNames.resolveId (h : graph.SameNames next) (s : String) :
    next.resolveId s = graph.resolveId s := by
  unfold Graph.resolveId
  rw [h.strings, h.idToNode]

theorem Graph.SameNames.nodeView (h : graph.SameNames next) (i : Nat) :
    next.nodeView i = graph.nodeView i := by
  unfold Graph.nodeView Graph.resolveNodeProvenance
  rw [h.strings, h.nodes]

theorem Graph.Tabled.rewritten (h : graph.Tabled) (hnext : graph.Rewritten next) : next.Tabled where
  listed := h.listed.rewritten hnext
  covered := by
    rw [hnext.offsets, hnext.count]
    exact h.covered
  relations := by
    rw [hnext.field CsrGraph.relations fun _ => rfl, hnext.targets]
    exact h.relations
  directions := by
    rw [hnext.field CsrGraph.directions fun _ => rfl, hnext.targets]
    exact h.directions
  inhibitory := by
    rw [hnext.field CsrGraph.inhibitory fun _ => rfl, hnext.targets]
    exact h.inhibitory
  causalStrengths := by
    rw [hnext.field CsrGraph.causalStrengths fun _ => rfl, hnext.targets]
    exact h.causalStrengths

-- The weights a slot gets back.
def Slot.reweighed (originalWeight currentWeight : F) (slot : Slot W) : Slot W :=
  { slot with
    weight := FiniteF32.new currentWeight
    synapse := {
      slot.synapse with
      originalWeight := FiniteF32.new originalWeight
      currentWeight := FiniteF32.new currentWeight } }

section Slot

variable [Zero W]

theorem restoreEdgeSlot_of_lt (h : graph.Tabled) {slot : Nat} (hslot : slot < graph.csr.numEdges)
    (originalWeight currentWeight : F) :
    ∃ next, restoreEdgeSlot graph slot originalWeight currentWeight = .ok next ∧
      graph.SameNames next ∧ graph.Rewritten next ∧
      next.slots = graph.slots.modify slot (Slot.reweighed originalWeight currentWeight) := by
  have hnum := h.listed.numEdges
  have hweights := h.listed.weights
  have horiginal := h.listed.synapses.originalWeight
  have hcurrent := h.listed.synapses.currentWeight
  have hlt : ¬ graph.csr.weights.length ≤ slot := by omega
  unfold restoreEdgeSlot
  rw [validateEdgePlasticitySlot_eq h.listed hslot]
  simp only [bind, Except.bind, if_neg hlt]
  refine ⟨_, rfl, ⟨rfl, rfl, rfl⟩, ⟨rfl, rfl, List.length_set, fun size hsize => ?_, rfl⟩, ?_⟩
  · exact ⟨List.length_set.trans hsize.originalWeight, List.length_set.trans hsize.currentWeight,
      hsize.strengthenCount, hsize.weakenCount, hsize.ltpApplied, hsize.ltdApplied,
      hsize.lastUsedQuery⟩
  · refine h.listed.slots_modify rfl fun src j hj => ?_
    by_cases he : slot = j
    · subst he
      have hw : slot < graph.csr.weights.length := by omega
      have ho : slot < graph.edgePlasticity.originalWeight.length := by omega
      have hc : slot < graph.edgePlasticity.currentWeight.length := by omega
      simp [Graph.slotAt, Slot.reweighed, EdgePlasticity.row, hw, ho, hc]
    · simp [Graph.slotAt, EdgePlasticity.row, he]

end Slot

section Step

variable [DecidableEq F] [Zero W] {state : Restoring W F T} {rest : List Nat}

-- What a slot holds of a snapshot.
def Slot.held (slot : Slot W) : EdgeSlotKey F × F × F :=
  (slot.key, FiniteF32.get slot.synapse.originalWeight, FiniteF32.get slot.weight)

-- The slots that have not been given their weights back, each in the queue of its key.
structure Waiting (state : Restoring W F T) (rest : List Nat) : Prop where
  tabled : state.graph.Tabled
  nodup : rest.Nodup
  bounded : ∀ j ∈ rest, j < state.graph.csr.numEdges
  free : ∀ j ∈ rest, state.consumed j = false
  queued : ∀ j ∈ rest, ∀ key, state.graph.keys[j]? = some key → j ∈ state.queues key
  queues : ∀ key, ∀ j ∈ state.queues key, state.graph.keys[j]? = some key ∧
    (state.consumed j = false → j ∈ rest)

omit [DecidableEq F] in
theorem keys_modify {slot : Nat} {originalWeight currentWeight : F}
    (hslots : next.slots = graph.slots.modify slot (Slot.reweighed originalWeight currentWeight)) :
    (next.keys : List (EdgeSlotKey F)) = graph.keys := by
  unfold Graph.keys
  rw [hslots]
  apply List.ext_getElem?
  intro i
  rw [List.getElem?_map, List.getElem?_map, List.getElem?_modify]
  cases graph.slots[i]? with
  | none => rfl
  | some old =>
      by_cases he : slot = i
      · simp only [he, Option.map_some, if_true]
        rfl
      · simp only [he, Option.map_some, if_false]
        rfl

theorem Waiting.restoreKey (h : Waiting state rest) {key : EdgeSlotKey F}
    (hkey : key ∈ keysAt state.graph rest) (originalWeight currentWeight : F) (reason : String) :
    ∃ r next, restoreKey state key originalWeight currentWeight reason = .ok next ∧
      r ∈ rest ∧ state.graph.keys[r]? = some key ∧ Waiting next (rest.erase r) ∧
      state.graph.SameNames next.graph ∧ state.graph.Rewritten next.graph ∧ next.graph.slots =
        state.graph.slots.modify r (Slot.reweighed originalWeight currentWeight) := by
  obtain ⟨j, hj, hkey_j⟩ := List.mem_filterMap.mp hkey
  obtain ⟨r, queue, hpop, hr, hfree, hsub, hkept⟩ := exists_pop (h.queued j hj key hkey_j)
    (h.free j hj)
  obtain ⟨hkey_r, hrest⟩ := h.queues key r hr
  have hr_rest := hrest hfree
  obtain ⟨restored, hrestored, hnames, hrewritten, hslots⟩ := restoreEdgeSlot_of_lt h.tabled
    (h.bounded r hr_rest) originalWeight currentWeight
  have hkeys := keys_modify hslots
  have herase (i : Nat) : i ∈ rest.erase r ↔ i ≠ r ∧ i ∈ rest := h.nodup.mem_erase_iff
  have hconsumed (i : Nat) : Function.update state.consumed r true i = false ↔
      i ≠ r ∧ state.consumed i = false := by
    by_cases he : i = r <;> simp [he]
  have hqueue (other : EdgeSlotKey F) (i : Nat) :
      i ∈ Function.update state.queues key queue other ↔
        if other = key then i ∈ queue else i ∈ state.queues other := by
    by_cases he : other = key <;> simp [he]
  refine ⟨r, ⟨restored, Function.update state.queues key queue,
    Function.update state.consumed r true⟩, ?_, hr_rest, hkey_r, ?_, hnames, hrewritten, hslots⟩
  · unfold M1nd.Core.restoreKey
    rw [hpop]
    simp only [orCorrupt, bind, Except.bind, hrestored]
  · constructor
    case tabled => exact h.tabled.rewritten hrewritten
    case nodup => exact h.nodup.erase r
    case bounded =>
      intro i hi
      rw [hrewritten.numEdges]
      exact h.bounded i ((herase i).mp hi).2
    case free =>
      intro i hi
      obtain ⟨hne, hi⟩ := (herase i).mp hi
      exact (hconsumed i).mpr ⟨hne, h.free i hi⟩
    case queued =>
      intro i hi other hother
      rw [hkeys] at hother
      obtain ⟨hne, hi⟩ := (herase i).mp hi
      have hmem := h.queued i hi other hother
      refine (hqueue other i).mpr ?_
      by_cases he : other = key
      · subst he
        rw [if_pos rfl]
        exact (hkept i hmem (h.free i hi)).resolve_left hne
      · rw [if_neg he]
        exact hmem
    case queues =>
      intro other i hi
      have hmem : i ∈ state.queues other := by
        have hold := (hqueue other i).mp hi
        by_cases he : other = key
        · subst he
          rw [if_pos rfl] at hold
          exact hsub i hold
        · rwa [if_neg he] at hold
      obtain ⟨hother, hrest⟩ := h.queues other i hmem
      refine ⟨hkeys ▸ hother, fun hfree => ?_⟩
      obtain ⟨hne, hfree⟩ := (hconsumed i).mp hfree
      exact (herase i).mpr ⟨hne, hrest hfree⟩

end Step

section Demands

variable [DecidableEq F] [Zero W] {state : Restoring W F T} {rest : List Nat}

-- The weights a snapshot has for one slot, and the error where no slot is left for them.
structure Demand (F : Type) where
  key : EdgeSlotKey F
  originalWeight : F
  currentWeight : F
  reason : String

def Demand.held (demand : Demand F) : EdgeSlotKey F × F × F :=
  (demand.key, demand.originalWeight, demand.currentWeight)

def Demand.Finite (W : Type) [FiniteF32 W F] (demand : Demand F) : Prop :=
  FiniteF32.isFinite W demand.originalWeight = true ∧
    FiniteF32.isFinite W demand.currentWeight = true

def Restoring.meet (state : Restoring W F T) (demand : Demand F) :
    Except SnapshotError (Restoring W F T) :=
  restoreKey state demand.key demand.originalWeight demand.currentWeight demand.reason

-- What the slot at a place holds.
def Graph.heldAt (graph : Graph W T) (j : Nat) : Option (EdgeSlotKey F × F × F) :=
  graph.slots[j]?.map Slot.held

omit [DecidableEq F] in
theorem heldAt_modify_of_ne {slot : Nat} {originalWeight currentWeight : F}
    (hslots : next.slots = graph.slots.modify slot (Slot.reweighed originalWeight currentWeight))
    {j : Nat} (hne : j ≠ slot) : next.heldAt j = (graph.heldAt j : Option (EdgeSlotKey F × F × F)) := by
  unfold Graph.heldAt
  rw [hslots, List.getElem?_modify]
  simp [Ne.symm hne]

omit [DecidableEq F] in
theorem heldAt_modify_self {slot : Nat} {originalWeight currentWeight : F} {key : EdgeSlotKey F}
    (hslots : next.slots = graph.slots.modify slot (Slot.reweighed originalWeight currentWeight))
    (hkey : graph.keys[slot]? = some key) (horiginal : FiniteF32.isFinite W originalWeight = true)
    (hcurrent : FiniteF32.isFinite W currentWeight = true) :
    next.heldAt slot = some (key, originalWeight, currentWeight) := by
  rw [Graph.keys, List.getElem?_map] at hkey
  obtain ⟨old, hold, rfl⟩ := Option.map_eq_some_iff.mp hkey
  have hnew : next.slots[slot]? = some (old.reweighed originalWeight currentWeight) := by
    rw [hslots, List.getElem?_modify, hold]
    simp
  rw [Graph.heldAt, hnew, Option.map_some, Slot.held]
  simp only [Slot.reweighed, FiniteF32.get_new _ horiginal, FiniteF32.get_new _ hcurrent]
  rfl

omit [DecidableEq F] in
theorem keysAt_congr (h : (next.keys : List (EdgeSlotKey F)) = graph.keys) (slots : List Nat) :
    (keysAt next slots : List (EdgeSlotKey F)) = keysAt graph slots := by
  unfold keysAt
  rw [h]

-- The demands are met one after the other, by as many of the slots that wait.
theorem Waiting.foldlM_meet (h : Waiting state rest) (todo : List (Demand F))
    (others : Multiset (EdgeSlotKey F)) (hfinite : ∀ demand ∈ todo, demand.Finite W)
    (hkeys : (↑(todo.map Demand.key) : Multiset (EdgeSlotKey F)) + others =
      ↑(keysAt state.graph rest : List (EdgeSlotKey F))) :
    ∃ next used left, todo.foldlM Restoring.meet state = .ok next ∧ rest.Perm (used ++ left) ∧
      Waiting next left ∧ state.graph.SameNames next.graph ∧ state.graph.Rewritten next.graph ∧
      (↑(keysAt next.graph left : List (EdgeSlotKey F)) : Multiset (EdgeSlotKey F)) = others ∧
      used.map next.graph.heldAt = todo.map (fun demand => some demand.held) ∧
      ∀ j, j ∉ used → next.graph.heldAt j = (state.graph.heldAt j : Option (EdgeSlotKey F × F × F)) := by
  induction todo generalizing state rest with
  | nil =>
      rw [List.map_nil, Multiset.coe_nil, Multiset.zero_add] at hkeys
      exact ⟨state, [], rest, rfl, .refl _, h, .refl _, .refl _, hkeys.symm, rfl, fun _ _ => rfl⟩
  | cons demand todo ih =>
      rw [List.map_cons, ← Multiset.cons_coe, Multiset.cons_add] at hkeys
      have hmem : demand.key ∈ keysAt state.graph rest := by
        rw [← Multiset.mem_coe, ← hkeys]
        exact Multiset.mem_cons_self _ _
      obtain ⟨r, mid, hmid, hr, hkey, hwaiting, hnames, hrewritten, hslots⟩ := h.restoreKey hmem
        demand.originalWeight demand.currentWeight demand.reason
      have hsame := keys_modify hslots
      have herase := List.perm_cons_erase hr
      have hleft : (↑(todo.map Demand.key) : Multiset (EdgeSlotKey F)) + others =
          ↑(keysAt mid.graph (rest.erase r) : List (EdgeSlotKey F)) := by
        have hcons : (↑(keysAt state.graph rest : List (EdgeSlotKey F)) : Multiset (EdgeSlotKey F)) =
            demand.key ::ₘ ↑(keysAt state.graph (rest.erase r)) := by
          refine Multiset.coe_eq_coe.mpr ((herase.filterMap _).trans (.of_eq ?_))
          rw [List.filterMap_cons, hkey]
          rfl
        rw [keysAt_congr hsame]
        exact (Multiset.cons_inj_right demand.key).mp (hkeys.trans hcons)
      obtain ⟨next, used, left, hnext, hperm, hdone, hnames', hrewritten', hothers, hused, hkept⟩ :=
        ih hwaiting (fun other hother => hfinite other (List.mem_cons_of_mem _ hother)) hleft
      have hfresh : r ∉ used := by
        intro hin
        have hnot := h.nodup.not_mem_erase (a := r)
        exact hnot (hperm.mem_iff.mpr (List.mem_append_left _ hin))
      refine ⟨next, r :: used, left, ?_, herase.trans (hperm.cons r), hdone, hnames.trans hnames',
        hrewritten.trans hrewritten', hothers, ?_, fun j hj => ?_⟩
      · rw [List.foldlM_cons, Restoring.meet, hmid]
        exact hnext
      · obtain ⟨horiginal, hcurrent⟩ := hfinite demand List.mem_cons_self
        rw [List.map_cons, List.map_cons, hused, hkept r hfresh,
          heldAt_modify_self hslots hkey horiginal hcurrent]
        rfl
      · rw [List.mem_cons, not_or] at hj
        rw [hkept j hj.2, heldAt_modify_of_ne hslots hj.1]

end Demands

end M1nd.Core
