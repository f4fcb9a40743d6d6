import M1nd.Core.Snapshot.Restore

namespace M1nd.Core

open M1nd.Library.Buckets
open M1nd.Library.Checks
open M1nd.Library.Runs

variable {W F T : Type} [FiniteF32 W F] {graph next : Graph W T} {edge : EdgeSnapshotV4 F}
  {edges : List (EdgeSnapshotV4 F)} {nodes : List (NodeSnapshot F T)}

-- A record of an edge that is accepted: finite numbers, and a reverse slot exactly where the
-- edge goes both ways.
structure EdgeSnapshotV4.WellFormed (W : Type) [FiniteF32 W F] (edge : EdgeSnapshotV4 F) :
    Prop where
  originalWeight : FiniteF32.isFinite W edge.originalWeight = true
  currentWeight : FiniteF32.isFinite W edge.currentWeight = true
  causalStrength : FiniteF32.isFinite W edge.causalStrength = true
  reverse : edge.direction = 0 ∧ edge.reverseOriginalWeight = none ∧
      edge.reverseCurrentWeight = none ∨
    edge.direction = 1 ∧ ∃ original current, edge.reverseOriginalWeight = some original ∧
      edge.reverseCurrentWeight = some current ∧ FiniteF32.isFinite W original = true ∧
      FiniteF32.isFinite W current = true

theorem EdgeSnapshotV4.WellFormed.validate (format : SnapshotFormat) (h : edge.WellFormed W) :
    validateV4Edge W format edge = .ok () := by
  unfold validateV4Edge
  obtain ⟨hdirection, horiginal, hcurrent⟩ | ⟨hdirection, original, current, horiginal, hcurrent,
    hfinite, hfinite'⟩ := h.reverse
  · simp [hdirection, horiginal, hcurrent, h.originalWeight, h.currentWeight, h.causalStrength]
  · simp [hdirection, horiginal, hcurrent, h.originalWeight, h.currentWeight, h.causalStrength,
      hfinite, hfinite']

-- The key a record of an edge is looked up with.
def EdgeSnapshotV4.key (edge : EdgeSnapshotV4 F) (graph : Graph W T) : EdgeSlotKey F where
  source := (graph.resolveId edge.sourceId).getD 0
  target := (graph.resolveId edge.targetId).getD 0
  relation := (graph.strings.lookup edge.relation).getD 0
  direction := edge.direction
  inhibitory := edge.inhibitory
  causalStrength := edge.causalStrength

def EdgeSnapshotV4.demands (format : SnapshotFormat) (graph : Graph W T)
    (edge : EdgeSnapshotV4 F) : List (Demand F) :=
  ⟨edge.key graph, edge.originalWeight, edge.currentWeight,
    format.noSlot edge.sourceId edge.targetId edge.relation⟩ ::
    if edge.direction = 1 then
      match edge.reverseOriginalWeight, edge.reverseCurrentWeight with
      | some original, some current => [⟨(edge.key graph).reversed, original, current,
          format.noReverseSlot edge.sourceId edge.targetId⟩]
      | _, _ => []
    else []

-- The names of a record are those of the graph.
structure EdgeSnapshotV4.Named (edge : EdgeSnapshotV4 F) (graph : Graph W T) : Prop where
  source : (graph.resolveId edge.sourceId).isSome = true
  target : (graph.resolveId edge.targetId).isSome = true
  relation : (graph.strings.lookup edge.relation).isSome = true

omit [FiniteF32 W F] in
theorem EdgeSnapshotV4.demands_congr (format : SnapshotFormat) (h : graph.SameNames next) :
    edge.demands format next = edge.demands format graph := by
  have hkey : edge.key next = edge.key graph := by
    unfold EdgeSnapshotV4.key
    rw [h.resolveId, h.resolveId, h.strings]
  unfold EdgeSnapshotV4.demands
  rw [hkey]

omit [FiniteF32 W F] in
theorem EdgeSnapshotV4.Named.congr (h : edge.Named graph) (hnames : graph.SameNames next) :
    edge.Named next where
  source := by
    rw [hnames.resolveId]
    exact h.source
  target := by
    rw [hnames.resolveId]
    exact h.target
  relation := by
    rw [hnames.strings]
    exact h.relation

theorem EdgeSnapshotV4.WellFormed.demands_finite (format : SnapshotFormat)
    (h : edge.WellFormed W) : ∀ demand ∈ edge.demands format graph, demand.Finite W := by
  unfold EdgeSnapshotV4.demands
  refine List.forall_mem_cons.mpr ⟨⟨h.originalWeight, h.currentWeight⟩, ?_⟩
  obtain ⟨hdirection, horiginal, hcurrent⟩ | ⟨hdirection, original, current, horiginal, hcurrent,
    hfinite, hfinite'⟩ := h.reverse
  · simp [hdirection]
  · simp only [hdirection, if_true, horiginal, hcurrent, List.mem_singleton]
    rintro _ rfl
    exact ⟨hfinite, hfinite'⟩

section Flatten

variable [DecidableEq F] {state next : Restoring W F T}

theorem sameNames_meet {demand : Demand F} (h : state.meet demand = .ok next) :
    state.graph.SameNames next.graph := by
  unfold Restoring.meet restoreKey at h
  obtain ⟨⟨slot, queues⟩, -, h⟩ := bind_eq_ok.mp h
  obtain ⟨restored, hrestored, h⟩ := bind_eq_ok.mp h
  obtain rfl := Except.ok.inj h
  unfold restoreEdgeSlot at hrestored
  obtain ⟨-, -, hrestored⟩ := bind_eq_ok.mp hrestored
  split at hrestored
  · exact absurd hrestored nofun
  · obtain rfl := Except.ok.inj hrestored
    exact ⟨rfl, rfl, rfl⟩

theorem sameNames_foldlM_meet {todo : List (Demand F)}
    (h : todo.foldlM Restoring.meet state = .ok next) : state.graph.SameNames next.graph :=
  replay_invariant (fun _ (next : Restoring W F T) => state.graph.SameNames next.graph)
    (.refl _) (fun _ _ _ _ hnames hstep => hnames.trans (sameNames_meet hstep)) h

-- Restoring an edge meets its demands.
theorem restoreEdge_eq (format : SnapshotFormat) (hedge : edge.WellFormed W)
    (hnamed : edge.Named state.graph) :
    restoreEdge format state edge =
      (edge.demands format state.graph).foldlM Restoring.meet state := by
  obtain ⟨source, hsource⟩ := Option.isSome_iff_exists.mp hnamed.source
  obtain ⟨target, htarget⟩ := Option.isSome_iff_exists.mp hnamed.target
  obtain ⟨relation, hrelation⟩ := Option.isSome_iff_exists.mp hnamed.relation
  unfold restoreEdge EdgeSnapshotV4.demands EdgeSnapshotV4.key
  simp only [hsource, htarget, hrelation, orCorrupt, Option.getD_some, bind, Except.bind,
    List.foldlM_cons, Restoring.meet]
  cases restoreKey state ⟨source, target, relation, edge.direction, edge.inhibitory,
      edge.causalStrength⟩ edge.originalWeight edge.currentWeight
      (format.noSlot edge.sourceId edge.targetId edge.relation) with
  | error error => rfl
  | ok mid =>
      obtain ⟨hdirection, -⟩ | ⟨hdirection, original, current, horiginal, hcurrent, -⟩ :=
        hedge.reverse
      · simp only [hdirection, Nat.zero_ne_one, if_false, List.foldlM_nil]
        rfl
      · simp only [hdirection, if_true, horiginal, hcurrent, orPanic_some, List.foldlM_cons,
          List.foldlM_nil, bind_pure]
        rfl

theorem foldlM_restoreEdge_eq (format : SnapshotFormat) (hnames : graph.SameNames state.graph)
    (hedges : ∀ edge ∈ edges, edge.WellFormed W ∧ edge.Named graph) :
    edges.foldlM (restoreEdge format) state =
      (edges.flatMap (EdgeSnapshotV4.demands format graph)).foldlM Restoring.meet state := by
  induction edges generalizing state with
  | nil => rfl
  | cons edge edges ih =>
      obtain ⟨hedge, hnamed⟩ := hedges edge List.mem_cons_self
      rw [List.foldlM_cons, restoreEdge_eq format hedge (hnamed.congr hnames),
        EdgeSnapshotV4.demands_congr format hnames, List.flatMap_cons, List.foldlM_append]
      cases hmid : (edge.demands format graph).foldlM Restoring.meet state with
      | error error => rfl
      | ok mid =>
          exact ih (hnames.trans (sameNames_foldlM_meet hmid)) fun other hother =>
            hedges other (List.mem_cons_of_mem _ hother)

end Flatten

section Rebuilt

variable [Zero W] {pending : PendingEdge W}

theorem Graph.Rebuilt.tabled {staged : Graph W T} (h : staged.Staged)
    (hnext : staged.Rebuilt next) : next.Tabled where
  listed := hnext.listed h
  covered := by
    rw [hnext.offsets, hnext.nodes, length_offsets]
  relations := by
    rw [hnext.relations, hnext.targets, List.length_map, List.length_map]
  directions := by
    rw [hnext.directions, hnext.targets, List.length_map, List.length_map]
  inhibitory := by
    rw [hnext.inhibitory, hnext.targets, List.length_map, List.length_map]
  causalStrengths := by
    rw [hnext.causalStrengths, hnext.targets, List.length_map, List.length_map]

def PendingEdge.key (pending : PendingEdge W) : EdgeSlotKey F :=
  ⟨pending.source, pending.target, pending.relation, pending.direction.code, pending.inhibitory,
    FiniteF32.get pending.causalStrength⟩

-- The keys of the slots that the staged edges get.
theorem map_key_stagedSlots (graph : Graph W T) (first : Nat) :
    (graph.stagedSlots first).map Slot.key =
      graph.csr.pendingEdges.flatMap fun pending => (pending.key : EdgeSlotKey F).expand := by
  rw [Graph.stagedSlots, List.map_flatMap]
  have hfst : graph.csr.pendingEdges = graph.csr.pendingEdges.zipIdx.map Prod.fst :=
    (List.zipIdx_map_fst 0 _).symm
  conv_rhs => rw [hfst, List.flatMap_map]
  apply List.flatMap_congr
  intro indexed _
  rw [Slot.map_key_expand]
  rfl

theorem Graph.Rebuilt.keys_perm {staged : Graph W T} (h : staged.Staged)
    (hnext : staged.Rebuilt next) : (next.keys : List (EdgeSlotKey F)).Perm
      (staged.csr.pendingEdges.flatMap fun pending => pending.key.expand) := by
  rw [← map_key_stagedSlots staged 0]
  exact (hnext.slots_perm h).map Slot.key

omit [Zero W] in
-- A record demands the slots of the edge that was staged for it.
theorem EdgeSnapshotV4.Stages.map_key_demands (format : SnapshotFormat)
    (h : edge.Stages graph pending) (hedge : edge.WellFormed W) (hfaithful : graph.strings.Faithful) :
    (edge.demands format graph).map Demand.key = (pending.key : EdgeSlotKey F).expand := by
  have hlookup := hfaithful.lookup.mpr h.relation
  have hkey : edge.key graph = pending.key := by
    unfold EdgeSnapshotV4.key PendingEdge.key
    rw [h.source, h.target, hlookup, h.inhibitory, h.causalStrength, h.direction,
      FiniteF32.get_new _ hedge.causalStrength]
    obtain ⟨hdirection, -⟩ | ⟨hdirection, -⟩ := hedge.reverse
    · simp [hdirection, EdgeDirection.code]
    · simp [hdirection, EdgeDirection.code]
  have hdirection : (pending.key : EdgeSlotKey F).direction = edge.direction := by
    rw [← hkey]
    rfl
  unfold EdgeSnapshotV4.demands EdgeSlotKey.expand
  rw [hkey, hdirection]
  obtain ⟨hforward, -⟩ | ⟨hboth, original, current, horiginal, hcurrent, -⟩ := hedge.reverse
  · simp [hforward]
  · simp [hboth, horiginal, hcurrent]

omit [Zero W] in
theorem EdgeSnapshotV4.Stages.named (h : edge.Stages graph pending)
    (hfaithful : graph.strings.Faithful) : edge.Named graph where
  source := by rw [h.source]; rfl
  target := by rw [h.target]; rfl
  relation := by rw [hfaithful.lookup.mpr h.relation]; rfl

omit [Zero W] in
theorem named_of_stages {staged : List (PendingEdge W)} (hfaithful : graph.strings.Faithful)
    (h : List.Forall₂ (fun edge pending => EdgeSnapshotV4.Stages edge graph pending) edges staged) :
    ∀ edge ∈ edges, edge.Named graph := by
  induction h with
  | nil => exact nofun
  | cons hstages _ ih => exact List.forall_mem_cons.mpr ⟨hstages.named hfaithful, ih⟩

omit [Zero W] in
theorem map_key_flatMap_demands (format : SnapshotFormat) {staged : List (PendingEdge W)}
    (hfaithful : graph.strings.Faithful) (hedges : ∀ edge ∈ edges, edge.WellFormed W)
    (h : List.Forall₂ (fun edge pending => EdgeSnapshotV4.Stages edge graph pending) edges staged) :
    (edges.flatMap (EdgeSnapshotV4.demands format graph)).map Demand.key =
      staged.flatMap fun pending => (pending.key : EdgeSlotKey F).expand := by
  induction h with
  | nil => rfl
  | cons hstages _ ih =>
      obtain ⟨hedge, hrest⟩ := List.forall_mem_cons.mp hedges
      rw [List.flatMap_cons, List.map_append, List.flatMap_cons, ih hrest,
        hstages.map_key_demands format hedge hfaithful]

variable [DecidableEq F]

-- What an encoded graph becomes once it is loaded: the nodes of the records, and slots that
-- hold what the records demand.
structure Loaded (format : SnapshotFormat) (graph : Graph W T) (nodes : List (NodeSnapshot F T))
    (edges : List (EdgeSnapshotV4 F)) : Prop where
  registered : graph.Registered
  count : graph.nodes.count = nodes.length
  externalIds : ∀ (s : String) (i : Nat),
    graph.resolveId s = some i ↔ nodes[i]?.map NodeSnapshot.externalId = some s
  views : ∀ (i : Nat) (node : NodeSnapshot F T), nodes[i]? = some node →
    graph.nodeView i = node.view W
  named : ∀ edge ∈ edges, edge.Named graph
  held : (graph.slots.map Slot.held).Perm
    ((edges.flatMap (EdgeSnapshotV4.demands format graph)).map Demand.held)
  finalized : graph.finalized = true

omit [DecidableEq F] in
theorem Loading.finalize_eq {graph : Graph W T} (h : Loading graph nodes) :
    graph.finalize = graph.rebuildCsr := by
  have hslots := h.noSlots
  rw [Graph.finalize, h.unfinalized, if_neg Bool.false_ne_true, if_neg (by omega)]

-- The staged edges are finalized, and every slot gets the weights of its record.
theorem Staging.restored (format : SnapshotFormat) (h : Staging graph nodes edges)
    (hedges : ∀ edge ∈ edges, edge.WellFormed W) :
    ∃ sources queues state, edgeSlotSources graph.finalize = .ok sources ∧
      edgeSlotQueues graph.finalize sources = .ok queues ∧
      edges.foldlM (restoreEdge format)
        (⟨graph.finalize, queues, fun _ => false⟩ : Restoring W F T) = .ok state ∧
      Loaded format state.graph nodes edges := by
  rw [h.loading.finalize_eq]
  have hstaged := h.loading.kept.sound.staged
  have hrebuilt := hstaged.rebuilt
  have htabled := hrebuilt.tabled hstaged
  have hfaithful := h.loading.registered.faithful
  have hnames : graph.SameNames graph.rebuildCsr := ⟨rfl, rfl, rfl⟩
  have hnamed := named_of_stages hfaithful h.staged
  have hkeys := map_key_flatMap_demands format hfaithful hedges h.staged
  have hlength := htabled.length_keys F
  have hall : keysAt graph.rebuildCsr (List.range graph.rebuildCsr.csr.numEdges) =
      (graph.rebuildCsr.keys : List (EdgeSlotKey F)) := by
    rw [keysAt, ← hlength]
    exact filterMap_range_getElem? _
  have hwaiting : Waiting (⟨graph.rebuildCsr, slotsOf (graph.rebuildCsr.keys : List (EdgeSlotKey F)),
      fun _ => false⟩ : Restoring W F T) (List.range graph.rebuildCsr.csr.numEdges) := by
    constructor
    case tabled => exact htabled
    case nodup => exact List.nodup_range
    case bounded => exact fun j hj => List.mem_range.mp hj
    case free => exact fun _ _ => rfl
    case queued =>
      intro j hj key hkey
      refine List.mem_filter.mpr ⟨?_, decide_eq_true hkey⟩
      rwa [hlength]
    case queues =>
      intro key j hj
      obtain ⟨hj, hkey⟩ := List.mem_filter.mp hj
      rw [hlength] at hj
      exact ⟨of_decide_eq_true hkey, fun _ => hj⟩
  obtain ⟨state, used, left, hrun, hperm, hdone, hsame, hrewritten, hleft, hused, -⟩ :=
    hwaiting.foldlM_meet (edges.flatMap (EdgeSnapshotV4.demands format graph)) 0
    (by
      intro demand hdemand
      obtain ⟨edge, hedge, hdemand⟩ := List.mem_flatMap.mp hdemand
      exact (hedges edge hedge).demands_finite format demand hdemand)
    (by
      rw [hkeys, hall, Multiset.add_zero]
      exact Multiset.coe_eq_coe.mpr (hrebuilt.keys_perm hstaged).symm)
  have hnone : left = [] := by
    rw [List.eq_nil_iff_forall_not_mem]
    intro j hj
    have hlt := hdone.bounded j hj
    rw [← hdone.tabled.length_keys F] at hlt
    have hmem : (state.graph.keys : List (EdgeSlotKey F))[j] ∈ keysAt state.graph left :=
      List.mem_filterMap.mpr ⟨j, hj, List.getElem?_eq_getElem hlt⟩
    rw [← Multiset.mem_coe, hleft] at hmem
    exact Multiset.notMem_zero _ hmem
  rw [hnone, List.append_nil] at hperm
  have hnames' : graph.SameNames state.graph := hnames.trans hsame
  refine ⟨_, _, state, edgeSlotSources_eq htabled.listed htabled.covered,
    htabled.edgeSlotQueues_eq, ?_, ?_⟩
  · rw [foldlM_restoreEdge_eq format hnames fun edge hedge => ⟨hedges edge hedge, hnamed edge hedge⟩]
    exact hrun
  · constructor
    case registered =>
      exact h.loading.registered.extends hnames'.nodes hnames'.idToNode
        (hnames'.strings ▸ hfaithful) (hnames'.strings ▸ .refl _)
    case count =>
      rw [hnames'.nodes]
      exact h.loading.count
    case externalIds =>
      intro s i
      rw [hnames'.resolveId]
      exact h.loading.externalIds s i
    case views =>
      intro i node hnode
      rw [hnames'.nodeView]
      exact h.loading.views i node hnode
    case named => exact fun edge hedge => (hnamed edge hedge).congr hnames'
    case held =>
      have hslots : state.graph.slots.map Slot.held =
          ((List.range graph.rebuildCsr.csr.numEdges).filterMap state.graph.heldAt :
            List (EdgeSlotKey F × F × F)) := by
        have hcount : state.graph.slots.length = graph.rebuildCsr.csr.numEdges := by
          rw [← hrewritten.numEdges, ← hdone.tabled.length_keys F, Graph.keys, List.length_map]
        have hget := congrArg (List.map (Slot.held : Slot W → EdgeSlotKey F × F × F))
          (filterMap_range_getElem? state.graph.slots)
        rw [List.map_filterMap, hcount] at hget
        exact hget.symm
      have hmet : used.filterMap state.graph.heldAt =
          (edges.flatMap (EdgeSnapshotV4.demands format graph)).map Demand.held := by
        have hmap := congrArg (List.filterMap id) hused
        rw [List.filterMap_map, List.filterMap_map] at hmap
        simpa [Function.comp_def] using hmap
      have hdemands : edges.flatMap (EdgeSnapshotV4.demands format state.graph) =
          edges.flatMap (EdgeSnapshotV4.demands format graph) :=
        List.flatMap_congr fun edge _ => EdgeSnapshotV4.demands_congr format hnames'
      rw [hslots, hdemands, ← hmet]
      exact hperm.filterMap _
    case finalized => exact hrewritten.finalized

end Rebuilt

end M1nd.Core
