import M1nd.Core.Plasticity
import M1nd.Core.Snapshot.Codec

namespace M1nd.Core

open M1nd.Library.Checks
open M1nd.Library.Loops

variable {W F T : Type} [FiniteF32 W F] [DecidableEq F] [Zero W] {graph loaded : Graph W T}
  {snapshot : GraphSnapshotV4 F T} {ids : List String} {pairs : List (Nat × Option Nat)}

section Encoded

-- The records of a snapshot are the nodes and the slots of the graph.
structure Encodes (graph : Graph W T) (snapshot : GraphSnapshotV4 F T) (ids : List String)
    (pairs : List (Nat × Option Nat)) : Prop where
  version : snapshot.version = SNAPSHOT_VERSION
  externalIds : ∀ (s : String) (i : Nat), ids[i]? = some s ↔ graph.resolveId s = some i
  count : snapshot.nodes.length = graph.nodes.count
  length : ids.length = graph.nodes.count
  nodes : ∀ (i : Nat) (node : NodeSnapshot F T), snapshot.nodes[i]? = some node →
    ids[i]? = some node.externalId ∧ node.Records (graph.nodeView i)
  edges : List.Forall₂ (Written graph ids) pairs snapshot.edges
  slots : (slotsIn pairs).Perm (List.range graph.csr.numEdges)

theorem Graph.Coherent.spelled (h : graph.Coherent F) (hids : ids.length = graph.nodes.count) :
    Graph.Spelled F graph ids where
  tabled := h.tabled
  ends key hkey := by
    obtain ⟨slot, hslot, rfl⟩ := List.mem_map.mp hkey
    obtain ⟨hsource, htarget, -⟩ := h.slot_lt hslot
    exact ⟨hids ▸ hsource, hids ▸ htarget⟩
  names key hkey := by
    obtain ⟨slot, hslot, rfl⟩ := List.mem_map.mp hkey
    exact (h.slot_lt hslot).2.2

-- A graph without staged edges has a snapshot.
theorem Graph.Coherent.encodes (h : graph.Coherent F) (hpending : graph.csr.pendingEdges = []) :
    ∃ (snapshot : GraphSnapshotV4 F T) (ids : List String) (pairs : List (Nat × Option Nat)),
      graphSnapshot graph = .ok snapshot ∧ Encodes graph snapshot ids pairs := by
  obtain ⟨ids, hread, hlength, hids⟩ := h.registered.nodeToExtId_eq
  obtain ⟨nodes, hnodes, hcount, hrecords⟩ := h.registered.nodes_eq (F := F) hlength
  obtain ⟨edges, pairs, hedges, hwritten, hslots⟩ :=
    collectEdgeSnapshotsV4_eq (h.spelled hlength) h.balanced
  refine ⟨⟨SNAPSHOT_VERSION, nodes, edges⟩, ids, pairs, ?_, rfl, hids, hcount, hlength, hrecords,
    hwritten, hslots⟩
  rw [graphSnapshot, hpending, hread]
  simp only [List.isEmpty_nil, Bool.not_true, Bool.false_eq_true, if_false, bind_eq_ok,
    Except.ok.injEq, exists_eq_left', hnodes, hedges]

theorem pendingEdges_of_graphSnapshot (hsnapshot : graphSnapshot graph = .ok snapshot) :
    graph.csr.pendingEdges = [] := by
  unfold graphSnapshot at hsnapshot
  split at hsnapshot
  · cases hsnapshot
  · rename_i hpending
    simpa using hpending

end Encoded

section Load

variable {pair : Nat × Option Nat} {edge : EdgeSnapshotV4 F}

omit [DecidableEq F] in
-- A record that was written is accepted.
theorem Written.wellFormed (h : Written graph ids pair edge) : edge.WellFormed W := by
  obtain ⟨key, hkey, -, -, -, hdirection, -, hstrength, hboth, -⟩ := h.exists_key
  obtain ⟨slot, -, rfl⟩ := List.mem_map.mp (List.mem_of_getElem? hkey)
  obtain ⟨horiginal, hcurrent⟩ := Prod.mk.inj h.weights
  have hreverse := h.reverseOriginal
  have hreverse' := h.reverseCurrent
  constructor
  case originalWeight => exact horiginal ▸ FiniteF32.isFinite_get _
  case currentWeight => exact hcurrent ▸ FiniteF32.isFinite_get _
  case causalStrength => exact hstrength ▸ FiniteF32.isFinite_get _
  case reverse =>
    cases hpair : pair.2 with
    | none =>
        rw [hpair] at hboth hreverse hreverse'
        refine .inl ⟨?_, hreverse, hreverse'⟩
        have hcode : slot.direction.code ≠ 1 := fun hcode => Bool.false_ne_true (hboth.mp hcode)
        have hle := EdgeDirection.code_le slot.direction
        rw [hdirection]
        change slot.direction.code = 0
        omega
    | some r =>
        rw [hpair] at hboth hreverse hreverse'
        refine .inr ⟨hdirection.trans (hboth.mpr rfl), _, _, hreverse, hreverse', ?_, ?_⟩
        · exact FiniteF32.isFinite_get _
        · exact FiniteF32.isFinite_get _

omit [DecidableEq F] in
theorem exists_written {edges : List (EdgeSnapshotV4 F)}
    (h : List.Forall₂ (Written graph ids) pairs edges) :
    ∀ edge ∈ edges, ∃ pair, Written graph ids pair edge := by
  induction h with
  | nil => exact fun _ hmem => absurd hmem List.not_mem_nil
  | cons hwritten _ ih => exact List.forall_mem_cons.mpr ⟨⟨_, hwritten⟩, ih⟩

omit [DecidableEq F] in
theorem Encodes.nodup (h : Encodes graph snapshot ids pairs) :
    (snapshot.nodes.map NodeSnapshot.externalId).Nodup := by
  have hids : snapshot.nodes.map NodeSnapshot.externalId = ids := by
    apply List.ext_getElem?
    intro i
    rw [List.getElem?_map]
    cases hnode : snapshot.nodes[i]? with
    | none =>
        rw [List.getElem?_eq_none_iff, h.count, ← h.length] at hnode
        exact (List.getElem?_eq_none hnode).symm
    | some node => exact (h.nodes i node hnode).1.symm
  rw [hids, List.nodup_iff_getElem?_ne_getElem?]
  intro i j hij hj hsame
  rw [List.getElem?_eq_getElem hj] at hsame
  have hi := (h.externalIds _ i).mp hsame
  rw [(h.externalIds _ j).mp (List.getElem?_eq_getElem hj)] at hi
  exact absurd (Option.some.inj hi) (by omega)

variable [FiniteF64 T] {format : SnapshotFormat}

omit [DecidableEq F] [Zero W] in
theorem pendingEdges_foldlM_buildNode {nodes : List (NodeSnapshot F T)}
    (hpending : graph.csr.pendingEdges = [])
    (hnext : nodes.foldlM (buildNode format) graph = .ok loaded) :
    loaded.csr.pendingEdges = [] := by
  refine foldlM_invariant (fun graph : Graph W T => graph.csr.pendingEdges = []) hpending ?_ hnext
  intro graph hgraph node _ next hnode
  obtain ⟨-, -, id, -, rfl⟩ := buildNode_eq_ok.mp hnode
  obtain ⟨strings, he⟩ | ⟨nodes, strings, idToNode, -, he⟩ := graph.addNode_cases node.externalId
    node.label (u8ToNodeType node.nodeType) node.tags node.lastModified
    (FiniteF32.new node.changeFrequency)
  · rw [he, Graph.setNodeProvenance]
    split <;> exact hgraph
  · rw [he, Graph.setNodeProvenance]
    split <;> exact hgraph

-- A snapshot with nodes is loaded where its numbers are finite.
theorem Encodes.load (format : SnapshotFormat) (h : Encodes graph snapshot ids pairs)
    (hfinite : snapshot.Finite W) (hnodes : snapshot.nodes ≠ []) :
    ∃ loaded : Graph W T, graphFromSnapshotV4 format snapshot = .ok loaded ∧
      Loaded format loaded snapshot.nodes snapshot.edges := by
  have hwell : ∀ edge ∈ snapshot.edges, edge.WellFormed W := by
    intro edge hedge
    obtain ⟨pair, hwritten⟩ := exists_written h.edges edge hedge
    exact hwritten.wellFormed
  obtain ⟨built, hbuilt, hloading⟩ := loading_new.foldlM_buildNode format hfinite h.nodup
  rw [List.nil_append] at hloading
  have hstaging : Staging built snapshot.nodes ([] : List (EdgeSnapshotV4 F)) := by
    refine ⟨hloading, ?_⟩
    rw [pendingEdges_foldlM_buildNode rfl hbuilt]
    exact .nil
  have hresolves : ∀ (i : Nat) (s : String), ids[i]? = some s →
      (built.resolveId s).isSome = true := by
    intro i s hs
    have hlt : i < snapshot.nodes.length := by
      rw [h.count, ← h.length]
      exact (List.getElem?_eq_some_iff.mp hs).1
    have hid := (h.nodes i _ (List.getElem?_eq_getElem hlt)).1
    have hbuilt : built.resolveId s = some i := by
      rw [hloading.externalIds, List.getElem?_eq_getElem hlt, Option.map_some]
      exact hid.symm.trans hs
    rw [hbuilt]
    rfl
  obtain ⟨staged, hstaged, hdone⟩ := hstaging.foldlM_buildEdge format fun edge hedge => by
    obtain ⟨pair, hwritten⟩ := exists_written h.edges edge hedge
    obtain ⟨key, -, hsource, htarget, -⟩ := hwritten.exists_key
    exact ⟨hresolves _ _ hsource, hresolves _ _ htarget⟩
  rw [List.nil_append] at hdone
  obtain ⟨sources, queues, state, hsources, hqueues, hrun, hloaded⟩ := hdone.restored format hwell
  refine ⟨state.graph, ?_, hloaded⟩
  have hvalid : snapshot.edges.forM (validateV4Edge W format) = .ok () :=
    forM_eq_ok.mpr fun edge hedge => (hwell edge hedge).validate format
  rw [graphFromSnapshotV4, if_neg (not_not.mpr h.version), if_neg (by simpa using hnodes)]
  simp only [hvalid, hbuilt, hstaged, hsources, hqueues, hrun, bind_eq_ok, Except.ok.injEq,
    exists_eq_left', exists_unit, and_self]

-- The finalized graph without nodes.
theorem loaded_new (format : SnapshotFormat) :
    Loaded format (Graph.new : Graph W T).finalize ([] : List (NodeSnapshot F T)) [] := by
  have hstaging : Staging (Graph.new : Graph W T) ([] : List (NodeSnapshot F T)) [] :=
    ⟨loading_new, .nil⟩
  obtain ⟨sources, queues, state, -, -, hrun, hloaded⟩ :=
    hstaging.restored format fun _ hmem => absurd hmem List.not_mem_nil
  rw [← Except.ok.inj hrun] at hloaded
  exact hloaded

theorem Graph.Coherent.numEdges_eq_zero (h : graph.Coherent F) (hcount : graph.nodes.count = 0) :
    graph.csr.numEdges = 0 := by
  have hcovered := h.tabled.covered
  have hnone : graph.csr.offsets.length - 1 = 0 := by omega
  rw [h.tabled.listed.numEdges, ← h.tabled.listed.length_edgeSlots, hnone]
  rfl

-- The snapshot of a graph without nodes.
theorem Encodes.load_nil (format : SnapshotFormat) (h : Encodes graph snapshot ids pairs)
    (hgraph : graph.Coherent F) (hnodes : snapshot.nodes = []) : snapshot.edges = [] ∧
      graphFromSnapshotV4 format snapshot =
        .ok (if format.finalizesEmpty then Graph.new.finalize else (Graph.new : Graph W T)) := by
  have hcount : graph.nodes.count = 0 := by rw [← h.count, hnodes, List.length_nil]
  have hslots := h.slots
  rw [hgraph.numEdges_eq_zero hcount, List.range_zero, List.perm_nil] at hslots
  have hedges : snapshot.edges = [] := by
    have hedges := h.edges
    cases pairs with
    | nil => exact List.forall₂_nil_left_iff.mp hedges
    | cons pair pairs => cases hslots
  refine ⟨hedges, ?_⟩
  rw [graphFromSnapshotV4, if_neg (not_not.mpr h.version), hnodes, hedges]
  rfl

theorem Encodes.load_json (h : Encodes graph snapshot ids pairs) (hgraph : graph.Coherent F)
    (hfinite : snapshot.Finite W) :
    ∃ loaded : Graph W T, graphFromSnapshotV4 jsonFormat snapshot = .ok loaded ∧
      Loaded jsonFormat loaded snapshot.nodes snapshot.edges := by
  by_cases hnodes : snapshot.nodes = []
  · obtain ⟨hedges, hload⟩ := h.load_nil jsonFormat hgraph hnodes
    refine ⟨_, hload, ?_⟩
    rw [hnodes, hedges]
    exact loaded_new jsonFormat
  · exact h.load jsonFormat hfinite hnodes

-- No number that is not finite is loaded.
theorem finite_of_graphFromSnapshotV4
    (hloaded : graphFromSnapshotV4 format snapshot = .ok loaded) : snapshot.Finite W := by
  unfold graphFromSnapshotV4 at hloaded
  split at hloaded
  · cases hloaded
  · split at hloaded
    · rename_i hempty
      rw [GraphSnapshotV4.Finite, List.isEmpty_iff.mp hempty]
      exact fun _ hmem => absurd hmem List.not_mem_nil
    · obtain ⟨-, -, hloaded⟩ := bind_eq_ok.mp hloaded
      obtain ⟨nodes, hnodes, -⟩ := bind_eq_ok.mp hloaded
      exact finite_of_foldlM_buildNode hnodes

end Load

section Recovery

theorem u8ToNodeType_nodeTypeToU8 (nodeType : NodeType) :
    u8ToNodeType (nodeTypeToU8 nodeType) = nodeType ↔ ∀ v : UInt8, nodeType = .Custom v → v < 156 := by
  have hall : ∀ n : Fin 256, u8ToNodeType (100 + UInt8.ofFin n) = .Custom (UInt8.ofFin n) ↔
      UInt8.ofFin n < 156 := by decide +kernel
  cases nodeType with
  | Custom v =>
      simp only [nodeTypeToU8, NodeType.Custom.injEq, forall_eq']
      exact hall v.toFin
  | _ => simp [nodeTypeToU8, u8ToNodeType]

-- What a graph has to be like for its snapshot to tell all of it: a custom type that leaves room
-- for the 100 before it in a u8, a finite time, a last line where there is a first one, and
-- weights that are read at their slots through a u32.
structure Graph.Storable [FiniteF64 T] (graph : Graph W T) : Prop where
  nodeTypes : ∀ v : UInt8, .Custom v ∈ graph.nodes.nodeType → v < 156
  timestamps : ∀ t ∈ graph.nodes.lastModified, FiniteF64.isFinite t = true
  provenance : ∀ provenance ∈ graph.nodes.provenance,
    0 < provenance.lineStart → 0 < provenance.lineEnd
  weights : graph.readViews = graph.edgeViews

variable [FiniteF64 T] {format : SnapshotFormat}

-- A record that is loaded gives its node back.
theorem NodeSnapshot.Records.view_eq_iff (hregistered : graph.Registered) {i : Nat}
    {node : NodeSnapshot F T} (h : node.Records (graph.nodeView i)) :
    node.view W = graph.nodeView i ↔
      (∀ v : UInt8, graph.nodes.nodeType[i]? = some (.Custom v) → v < 156) ∧
        ∀ provenance, graph.nodes.provenance[i]? = some provenance →
          0 < provenance.lineStart → 0 < provenance.lineEnd := by
  obtain ⟨nodeType, htype, hcode⟩ := Option.map_eq_some_iff.mp h.nodeType
  obtain ⟨frequency, hfrequency, hget⟩ := Option.map_eq_some_iff.mp h.changeFrequency
  have htype' : graph.nodes.nodeType[i]? = some nodeType := htype
  have hview : graph.nodeView i = ⟨some node.label, some nodeType, some (node.tags.map some),
      some node.lastModified, some frequency, node.provenance⟩ := by
    change NodeView.mk _ _ _ _ _ _ = _
    rw [NodeView.mk.injEq]
    exact ⟨h.label, htype, h.tags, h.lastModified, hfrequency, h.provenance⟩
  have hstored : node.provenance.stored = node.provenance ↔
      ∀ provenance, graph.nodes.provenance[i]? = some provenance →
        0 < provenance.lineStart → 0 < provenance.lineEnd := by
    rw [← hregistered.stored_resolve]
    change _ ↔ (graph.nodeView i).provenance.stored = (graph.nodeView i).provenance
    rw [h.provenance]
  have hcustom : u8ToNodeType node.nodeType = nodeType ↔
      ∀ v : UInt8, graph.nodes.nodeType[i]? = some (.Custom v) → v < 156 := by
    rw [← hcode, u8ToNodeType_nodeTypeToU8, htype']
    simp only [Option.some.injEq]
  rw [hview, NodeSnapshot.view, NodeView.mk.injEq, ← hget, FiniteF32.new_get, ← hstored, ← hcustom]
  simp only [Option.some.injEq, true_and]

-- What is true of the entries of an array is true of all that lie in it.
theorem forall_mem_iff_getElem? {α : Type} {items : List α} {n : Nat} (hlength : items.length = n)
    {p : α → Prop} : (∀ a ∈ items, p a) ↔ ∀ i < n, ∀ a, items[i]? = some a → p a := by
  constructor
  · exact fun h i _ a ha => h a (List.mem_of_getElem? ha)
  · intro h a ha
    obtain ⟨i, hi⟩ := List.mem_iff_getElem?.mp ha
    exact h i (hlength ▸ (List.getElem?_eq_some_iff.mp hi).1) a hi

theorem Encodes.finite_iff (h : Encodes graph snapshot ids pairs) (hregistered : graph.Registered) :
    snapshot.Finite W ↔ ∀ t ∈ graph.nodes.lastModified, FiniteF64.isFinite t = true := by
  rw [GraphSnapshotV4.Finite, forall_mem_iff_getElem? h.count,
    forall_mem_iff_getElem? hregistered.lastModified]
  refine forall_congr' fun i => forall_congr' fun hi => ?_
  rw [← h.count] at hi
  have hnode := List.getElem?_eq_getElem hi
  generalize snapshot.nodes[i] = node at hnode
  have hrecords := (h.nodes i node hnode).2
  have htime : graph.nodes.lastModified[i]? = some node.lastModified := hrecords.lastModified
  obtain ⟨frequency, -, hget⟩ := Option.map_eq_some_iff.mp hrecords.changeFrequency
  rw [hnode, htime]
  simp only [Option.some.injEq, forall_eq', NodeSnapshot.Finite, ← hget, FiniteF32.isFinite_get,
    and_true]

theorem Encodes.recovers_iff (h : Encodes graph snapshot ids pairs) (hgraph : graph.Coherent F)
    (hloaded : Loaded format loaded snapshot.nodes snapshot.edges) :
    graph.Recovers loaded ↔ (∀ v : UInt8, .Custom v ∈ graph.nodes.nodeType → v < 156) ∧
      (∀ provenance ∈ graph.nodes.provenance, 0 < provenance.lineStart → 0 < provenance.lineEnd) ∧
      graph.readViews = graph.edgeViews := by
  have hexternalIds : ∀ (s : String) (i : Nat), loaded.resolveId s = some i ↔ ids[i]? = some s := by
    intro s i
    rw [hloaded.externalIds]
    cases hnode : snapshot.nodes[i]? with
    | none =>
        rw [List.getElem?_eq_none_iff, h.count, ← h.length] at hnode
        rw [List.getElem?_eq_none hnode, Option.map_none]
    | some node => rw [(h.nodes i node hnode).1, Option.map_some]
  have hedges : loaded.edgeViews = graph.readViews :=
    hloaded.edgeViews_eq hgraph.tabled h.edges h.slots fun s i hs => (hexternalIds s i).mpr hs
  have hnodes : (∀ i < graph.numNodes, loaded.nodeView i = graph.nodeView i) ↔
      (∀ v : UInt8, .Custom v ∈ graph.nodes.nodeType → v < 156) ∧
        ∀ provenance ∈ graph.nodes.provenance, 0 < provenance.lineStart → 0 < provenance.lineEnd := by
    have htypes : (∀ v : UInt8, .Custom v ∈ graph.nodes.nodeType → v < 156) ↔
        ∀ i < graph.nodes.count, ∀ v : UInt8, graph.nodes.nodeType[i]? = some (.Custom v) → v < 156 := by
      have hall := forall_mem_iff_getElem? hgraph.registered.nodeType
        (p := fun nodeType => ∀ v : UInt8, nodeType = .Custom v → v < 156)
      constructor
      · exact fun hv i hi v hget => hv v (List.mem_of_getElem? hget)
      · intro hv v hmem
        exact hall.mpr (fun i hi nodeType hget w hw => hv i hi w (hw ▸ hget)) _ hmem v rfl
    rw [htypes, forall_mem_iff_getElem? hgraph.registered.provenance, ← forall₂_and]
    refine forall_congr' fun i => forall_congr' fun hi => ?_
    rw [Graph.numNodes, ← h.count] at hi
    have hnode := List.getElem?_eq_getElem hi
    generalize snapshot.nodes[i] = node at hnode
    rw [hloaded.views i node hnode]
    exact (h.nodes i node hnode).2.view_eq_iff hgraph.registered
  rw [← and_assoc, ← hnodes, ← hedges]
  constructor
  · exact fun hrecovers => ⟨hrecovers.nodes, hrecovers.edges⟩
  · rintro ⟨hnodes, hedges⟩
    refine ⟨hloaded.count.trans h.count, fun s => ?_, hnodes, hedges⟩
    apply Option.ext
    intro i
    rw [hexternalIds, h.externalIds]

omit [DecidableEq F] in
-- Up to 2 ^ 32 slots the weights are read where they lie.
theorem Graph.Coherent.readViews_eq (h : graph.Coherent F) (hbound : graph.csr.numEdges ≤ 2 ^ 32) :
    graph.readViews = graph.edgeViews := by
  rw [Graph.readViews, Graph.edgeViews, Graph.slots, List.map_map]
  refine congrArg _ (List.map_congr_left fun slot hslot => ?_)
  obtain ⟨i, hi⟩ := List.mem_iff_getElem?.mp hslot
  obtain ⟨hindex, hlt⟩ := h.tabled.listed.snd_edgeSlots hi
  have hread : EdgeIdx.new slot.2 = slot.2 := by
    rw [h.tabled.listed.numEdges] at hbound
    exact Nat.mod_eq_of_lt (by omega)
  rw [Function.comp_apply, hread]
  rfl

end Recovery

section Json

variable [FiniteF64 T] {serde : SerdeJson F T} {data : List UInt8}

theorem Encodes.decode_json (h : Encodes graph snapshot ids pairs)
    (hreads : serde.ReadsBack W snapshot data) :
    decodeGraphJson serde data = .ok loaded ↔
      graphFromSnapshotV4 jsonFormat snapshot = .ok loaded :=
  decodeGraphJson_eq_ok hreads h.version finite_of_graphFromSnapshotV4

omit [FiniteF64 T] in
theorem encodeGraphJson_eq [FiniteF64 T] (hsnapshot : graphSnapshot graph = .ok snapshot)
    (hreads : serde.ReadsBack W snapshot data) : encodeGraphJson serde graph = .ok data := by
  rw [encodeGraphJson, hsnapshot]
  exact mapError_eq_ok.mpr hreads.written

theorem Graph.Coherent.storable_of_recovers (hgraph : graph.Coherent F)
    (hpending : graph.csr.pendingEdges = [])
    (hserde : ∀ snapshot, graphSnapshot graph = .ok snapshot →
      ∃ data, serde.ReadsBack W snapshot data)
    (hdata : encodeGraphJson serde graph = .ok data) (hloaded : decodeGraphJson serde data = .ok loaded)
    (hrecovers : graph.Recovers loaded) : graph.Storable := by
  obtain ⟨snapshot, ids, pairs, hsnapshot, hencodes⟩ := hgraph.encodes hpending
  obtain ⟨written, hreads⟩ := hserde snapshot hsnapshot
  obtain rfl := Except.ok.inj ((encodeGraphJson_eq hsnapshot hreads).symm.trans hdata)
  have hload := (hencodes.decode_json hreads).mp hloaded
  have hfinite := finite_of_graphFromSnapshotV4 hload
  obtain ⟨loaded', hload', hdone⟩ := hencodes.load_json hgraph hfinite
  obtain rfl := Except.ok.inj (hload.symm.trans hload')
  obtain ⟨htypes, hprovenance, hweights⟩ := (hencodes.recovers_iff hgraph hdone).mp hrecovers
  exact ⟨htypes, (hencodes.finite_iff hgraph.registered).mp hfinite, hprovenance, hweights⟩

theorem Graph.Coherent.exists_recovers (hgraph : graph.Coherent F)
    (hpending : graph.csr.pendingEdges = [])
    (hserde : ∀ snapshot, graphSnapshot graph = .ok snapshot →
      ∃ data, serde.ReadsBack W snapshot data) (hstorable : graph.Storable) :
    ∃ data, encodeGraphJson serde graph = .ok data ∧
      ∃ loaded : Graph W T, decodeGraphJson serde data = .ok loaded ∧ graph.Recovers loaded := by
  obtain ⟨snapshot, ids, pairs, hsnapshot, hencodes⟩ := hgraph.encodes hpending
  obtain ⟨data, hreads⟩ := hserde snapshot hsnapshot
  have hfinite := (hencodes.finite_iff hgraph.registered).mpr hstorable.timestamps
  obtain ⟨loaded, hload, hdone⟩ := hencodes.load_json hgraph hfinite
  refine ⟨data, encodeGraphJson_eq hsnapshot hreads, loaded, (hencodes.decode_json hreads).mpr hload, ?_⟩
  exact (hencodes.recovers_iff hgraph hdone).mpr
    ⟨hstorable.nodeTypes, hstorable.provenance, hstorable.weights⟩

-- A graph is told by its JSON snapshot exactly where it is storable.
theorem decodeGraphJson_recovers_iff (edits : List (GraphEdit W T))
    (hpending : (GraphEdit.run edits).csr.pendingEdges = []) (serde : SerdeJson F T)
    (hserde : ∀ snapshot, graphSnapshot (GraphEdit.run edits) = .ok snapshot →
      ∃ data, serde.ReadsBack W snapshot data) :
    (∃ data, encodeGraphJson serde (GraphEdit.run edits) = .ok data ∧
      ∃ loaded : Graph W T, decodeGraphJson serde data = .ok loaded ∧
        (GraphEdit.run edits).Recovers loaded) ↔ (GraphEdit.run edits).Storable := by
  have hgraph := GraphEdit.coherent_run F edits
  constructor
  · rintro ⟨data, hdata, loaded, hloaded, hrecovers⟩
    exact hgraph.storable_of_recovers hpending hserde hdata hloaded hrecovers
  · exact hgraph.exists_recovers hpending hserde

end Json

section Examples

-- A codec that knows one snapshot and its text.
def textSerde (text : String) (snapshot : GraphSnapshotV4 Nat Nat) : SerdeJson Nat Nat where
  toVec _ := .ok text.toUTF8.toList
  versionPeek _ := .ok snapshot.version
  graphSnapshotV4 _ := .ok snapshot
  graphSnapshotV3 _ := .error "missing field weight"

theorem textSerde_readsBack (text : String) (snapshot : GraphSnapshotV4 Nat Nat) :
    let _ := exactValues Nat
    (textSerde text snapshot).ReadsBack Nat snapshot text.toUTF8.toList := by
  intro _
  exact ⟨rfl, rfl, fun _ => rfl, fun _ h => (Except.ok.inj h).symm⟩

deriving instance DecidableEq for NodeSnapshot, EdgeSnapshotV4, GraphSnapshotV4

def learnedCall : List (GraphEdit Nat Nat) :=
  [.operate (.addNode "a" "A" (.Custom 7) ["t"] 5 0), .operate (.addNode "b" "B" .File [] 6 1),
    .operate (.addEdge 0 1 "calls" 3 .Bidirectional false 2), .operate .finalize,
    .operate (.storeWeight 0 9)]

def learnedSnapshot : GraphSnapshotV4 Nat Nat where
  version := 4
  nodes := [⟨"a", "A", 107, ["t"], 5, 0, .default⟩, ⟨"b", "B", 0, [], 6, 1, .default⟩]
  edges := [⟨"a", "b", "calls", 3, 9, some 3, some 3, 1, false, 2⟩]

def learnedText : String :=
  "\x7b\"version\":4,\"nodes\":[\x7b\"external_id\":\"a\",\"label\":\"A\",\"node_type\":107," ++
    "\"tags\":[\"t\"],\"last_modified\":5.0,\"change_frequency\":0.0\x7d," ++
    "\x7b\"external_id\":\"b\",\"label\":\"B\",\"node_type\":0,\"tags\":[],\"last_modified\":6.0," ++
    "\"change_frequency\":1.0\x7d],\"edges\":[\x7b\"source_id\":\"a\",\"target_id\":\"b\"," ++
    "\"relation\":\"calls\",\"original_weight\":3.0,\"current_weight\":9.0," ++
    "\"reverse_original_weight\":3.0,\"reverse_current_weight\":3.0,\"direction\":1," ++
    "\"inhibitory\":false,\"causal_strength\":2.0\x7d]\x7d"

theorem textSerde_reads (text : String) {graph : Graph Nat Nat} {snapshot : GraphSnapshotV4 Nat Nat} :
    let _ := exactValues Nat
    (graphSnapshot graph).toOption = some snapshot → ∀ other, graphSnapshot graph = .ok other →
      ∃ data, (textSerde text snapshot).ReadsBack Nat other data := by
  intro _ hsnapshot other hother
  rw [hother] at hsnapshot
  obtain rfl := Option.some.inj hsnapshot
  exact ⟨_, textSerde_readsBack text other⟩

theorem decodeGraphJson_learnedCall :
    let _ := exactValues Nat
    ∃ data, encodeGraphJson (textSerde learnedText learnedSnapshot) (GraphEdit.run learnedCall) =
        .ok data ∧
      ∃ loaded : Graph Nat Nat,
        decodeGraphJson (textSerde learnedText learnedSnapshot) data = .ok loaded ∧
        (GraphEdit.run learnedCall).Recovers loaded := by
  intro _
  have htypes : (GraphEdit.run learnedCall).nodes.nodeType = [.Custom 7, .File] := by decide +kernel
  refine (decodeGraphJson_recovers_iff learnedCall (List.isEmpty_iff.mp (by decide +kernel)) _
    (textSerde_reads learnedText (by decide +kernel))).mpr ⟨?_, fun _ _ => rfl, ?_, ?_⟩
  · intro v hv
    rw [htypes] at hv
    simp only [List.mem_cons, NodeType.Custom.injEq, reduceCtorEq, List.not_mem_nil, or_false] at hv
    rw [hv]
    decide
  · decide +kernel
  · exact (GraphEdit.coherent_run Nat learnedCall).readViews_eq (by decide +kernel)

-- A custom type for which a u8 has no room above 100.
def customNode : List (GraphEdit Nat Nat) :=
  [.operate (.addNode "a" "A" (.Custom 200) [] 5 0), .operate .finalize]

def customSnapshot : GraphSnapshotV4 Nat Nat where
  version := 4
  nodes := [⟨"a", "A", 44, [], 5, 0, .default⟩]
  edges := []

def customText : String :=
  "\x7b\"version\":4,\"nodes\":[\x7b\"external_id\":\"a\",\"label\":\"A\",\"node_type\":44," ++
    "\"tags\":[],\"last_modified\":5.0,\"change_frequency\":0.0\x7d],\"edges\":[]\x7d"

theorem decodeGraphJson_customNode :
    let _ := exactValues Nat
    (GraphEdit.run customNode).finalized = true ∧ (GraphEdit.run customNode).csr.pendingEdges = [] ∧
      ¬ ∃ data, encodeGraphJson (textSerde customText customSnapshot) (GraphEdit.run customNode) =
          .ok data ∧
        ∃ loaded : Graph Nat Nat,
          decodeGraphJson (textSerde customText customSnapshot) data = .ok loaded ∧
          (GraphEdit.run customNode).Recovers loaded := by
  intro _
  have hpending : (GraphEdit.run customNode).csr.pendingEdges = [] :=
    List.isEmpty_iff.mp (by decide +kernel)
  refine ⟨by decide +kernel, hpending, ?_⟩
  rintro ⟨data, hdata, loaded, hloaded, hrecovers⟩
  have hstorable := (GraphEdit.coherent_run Nat customNode).storable_of_recovers hpending
    (textSerde_reads customText (by decide +kernel)) hdata hloaded hrecovers
  have hlt := hstorable.nodeTypes 200 (by decide +kernel)
  exact absurd hlt (by decide)

end Examples

end M1nd.Core
