import M1nd.Core.Snapshot.Theorems

namespace M1nd.Core

open M1nd.Library.Checks
open M1nd.Library.Loops

variable {W F T : Type} [FiniteF32 W F] [DecidableEq F] {graph next : Graph W T}
  {snapshot : GraphSnapshotV4 F T} {format format' : SnapshotFormat}

section Formats

omit [DecidableEq F] in
theorem validateV4Edge_congr {edge : EdgeSnapshotV4 F} :
    validateV4Edge W format edge = .ok () ↔ validateV4Edge W format' edge = .ok () := by
  unfold validateV4Edge
  dsimp only
  split
  · simp only [reduceCtorEq]
  · split
    · simp only [reduceCtorEq]
    · split <;> simp only [reduceCtorEq]

omit [DecidableEq F] in
theorem restoreKey_congr [DecidableEq F] {state state' : Restoring W F T} {key : EdgeSlotKey F}
    {originalWeight currentWeight : F} {reason reason' : String} :
    restoreKey state key originalWeight currentWeight reason = .ok state' ↔
      restoreKey state key originalWeight currentWeight reason' = .ok state' := by
  simp only [restoreKey, bind_eq_ok, orCorrupt_eq_ok]

theorem restoreEdge_congr {state state' : Restoring W F T} {edge : EdgeSnapshotV4 F} :
    restoreEdge format state edge = .ok state' ↔ restoreEdge format' state edge = .ok state' := by
  simp only [restoreEdge, bind_eq_ok, orCorrupt_eq_ok]
  refine exists_congr fun source => and_congr_right fun _ => ?_
  refine exists_congr fun target => and_congr_right fun _ => ?_
  refine exists_congr fun relation => and_congr_right fun _ => ?_
  refine exists_congr fun _ => and_congr restoreKey_congr ?_
  split
  · simp only [bind_eq_ok]
    refine exists_congr fun _ => and_congr_right fun _ => ?_
    exact exists_congr fun _ => and_congr_right fun _ => restoreKey_congr
  · exact Iff.rfl

variable [FiniteF64 T] [Zero W]

-- Only the texts of the errors depend on the format where there are nodes.
theorem graphFromSnapshotV4_congr (hnodes : snapshot.nodes ≠ []) :
    graphFromSnapshotV4 format snapshot = .ok graph ↔
      graphFromSnapshotV4 format' snapshot = .ok graph := by
  have hempty : ¬ snapshot.nodes.isEmpty = true := by simpa using hnodes
  by_cases hversion : snapshot.version = SNAPSHOT_VERSION
  · rw [graphFromSnapshotV4, graphFromSnapshotV4, if_neg (not_not.mpr hversion), if_neg hempty,
      if_neg (not_not.mpr hversion), if_neg hempty]
    simp only [bind_eq_ok, exists_unit]
    have hvalid : snapshot.edges.forM (validateV4Edge W format) = .ok () ↔
        snapshot.edges.forM (validateV4Edge W format') = .ok () :=
      forM_eq_ok.trans ((forall₂_congr fun edge _ => validateV4Edge_congr).trans forM_eq_ok.symm)
    refine and_congr hvalid ?_
    refine exists_congr fun built => and_congr ?_ ?_
    · exact foldlM_congr_ok fun node _ _ _ => buildNode_eq_ok.trans buildNode_eq_ok.symm
    · refine exists_congr fun staged => and_congr ?_ ?_
      · exact foldlM_congr_ok fun edge _ _ _ => buildEdge_eq_ok.trans buildEdge_eq_ok.symm
      · refine exists_congr fun sources => and_congr_right fun _ => ?_
        refine exists_congr fun queues => and_congr_right fun _ => ?_
        refine exists_congr fun state => and_congr ?_ Iff.rfl
        exact foldlM_congr_ok fun edge _ _ _ => restoreEdge_congr
  · rw [graphFromSnapshotV4, graphFromSnapshotV4, if_pos hversion, if_pos hversion]
    simp only [reduceCtorEq]

end Formats

section Agreement

variable [FiniteF64 T] [Zero W] {ids : List String} {pairs : List (Nat × Option Nat)}
  {serde : SerdeJson F T} {bincode : Bincode F T}

-- Two loaded graphs with the same nodes, the same slots, the same offsets and the same flag.
structure Graph.Agrees (graph next : Graph W T) : Prop extends graph.Recovers next where
  finalized : next.finalized = graph.finalized
  offsets : next.csr.offsets = graph.csr.offsets

omit [FiniteF32 W F] [DecidableEq F] [FiniteF64 T] in
theorem Graph.Agrees.refl (graph : Graph W T) : graph.Agrees graph :=
  ⟨⟨rfl, fun _ => rfl, fun _ _ => rfl, rfl⟩, rfl, rfl⟩

-- What each codec has written of the graph is loaded, and the two graphs agree.
def Graph.CodecsAgree (serde : SerdeJson F T) (bincode : Bincode F T) (graph : Graph W T) : Prop :=
  ∃ json, encodeGraphJson serde graph = .ok json ∧
    ∃ binary, encodeGraphBin bincode graph = .ok binary ∧
    ∃ fromJson : Graph W T, decodeGraphJson serde json = .ok fromJson ∧
    ∃ fromBinary : Graph W T, decodeGraphBin bincode binary = .ok fromBinary ∧
      fromJson.Agrees fromBinary

omit [FiniteF64 T] in
theorem encodeGraphBin_eq {data : List UInt8} (hsnapshot : graphSnapshot graph = .ok snapshot)
    (hreads : bincode.ReadsBack snapshot data) : encodeGraphBin bincode graph = .ok data := by
  rw [encodeGraphBin, hsnapshot]
  exact mapError_eq_ok.mpr hreads.written

-- With nodes both codecs load one graph, without them only JSON loads a finalized one.
theorem Encodes.codecsAgree_iff (h : Encodes graph snapshot ids pairs) (hgraph : graph.Coherent F)
    (hsnapshot : graphSnapshot graph = .ok snapshot) {json binary : List UInt8}
    (hserde : serde.ReadsBack W snapshot json) (hbincode : bincode.ReadsBack snapshot binary) :
    graph.CodecsAgree serde bincode ↔
      0 < graph.numNodes ∧ (∀ t ∈ graph.nodes.lastModified, FiniteF64.isFinite t = true) ∧
        bincode.claimedBytes snapshot ≤ DECODE_LIMIT_BYTES := by
  have hcount : 0 < graph.numNodes ↔ snapshot.nodes ≠ [] := by
    rw [Graph.numNodes, ← h.count, List.length_pos_iff]
  rw [hcount, ← h.finite_iff hgraph.registered, Graph.CodecsAgree,
    encodeGraphJson_eq hsnapshot hserde, encodeGraphBin_eq hsnapshot hbincode]
  simp only [Except.ok.injEq, exists_eq_left', h.decode_json hserde,
    decodeGraphBin_eq_ok hbincode h.version]
  constructor
  · rintro ⟨fromJson, hjson, fromBinary, ⟨hwithin, hbinary⟩, hagrees⟩
    refine ⟨?_, finite_of_graphFromSnapshotV4 hjson, hwithin⟩
    intro hnodes
    rw [(h.load_nil jsonFormat hgraph hnodes).2, Except.ok.injEq] at hjson
    rw [(h.load_nil binaryFormat hgraph hnodes).2, Except.ok.injEq] at hbinary
    have hflag := hagrees.finalized
    rw [← hjson, ← hbinary] at hflag
    exact Bool.false_ne_true hflag
  · rintro ⟨hnodes, hfinite, hwithin⟩
    obtain ⟨loaded, hload, -⟩ := h.load jsonFormat hfinite hnodes
    exact ⟨loaded, hload, loaded, ⟨hwithin, (graphFromSnapshotV4_congr hnodes).mp hload⟩,
      .refl loaded⟩

theorem Graph.Coherent.codecsAgree_iff (hgraph : graph.Coherent F)
    (hserde : ∀ snapshot, graphSnapshot graph = .ok snapshot →
      ∃ data, serde.ReadsBack W snapshot data)
    (hbincode : ∀ snapshot, graphSnapshot graph = .ok snapshot →
      ∃ data, bincode.ReadsBack snapshot data) :
    graph.CodecsAgree serde bincode ↔
      graph.csr.pendingEdges = [] ∧ 0 < graph.numNodes ∧
        (∀ t ∈ graph.nodes.lastModified, FiniteF64.isFinite t = true) ∧
        ∀ snapshot, graphSnapshot graph = .ok snapshot →
          bincode.claimedBytes snapshot ≤ DECODE_LIMIT_BYTES := by
  by_cases hpending : graph.csr.pendingEdges = []
  · obtain ⟨snapshot, ids, pairs, hsnapshot, hencodes⟩ := hgraph.encodes hpending
    obtain ⟨json, hjson⟩ := hserde snapshot hsnapshot
    obtain ⟨binary, hbinary⟩ := hbincode snapshot hsnapshot
    rw [hencodes.codecsAgree_iff hgraph hsnapshot hjson hbinary, hsnapshot]
    simp only [hpending, true_and, Except.ok.injEq, forall_eq']
  · constructor
    · rintro ⟨json, hjson, -⟩
      obtain ⟨snapshot, hsnapshot, -⟩ := bind_eq_ok.mp hjson
      exact absurd (pendingEdges_of_graphSnapshot hsnapshot) hpending
    · exact fun h => absurd h.1 hpending

end Agreement

section Examples

-- A codec that knows one snapshot and its bytes.
def bytesBincode (data : List UInt8) (snapshot : GraphSnapshotV4 Nat Nat) : Bincode Nat Nat where
  claimedBytes _ := data.length
  encodeToVec _ := .ok data
  decodeVersion _ := .ok snapshot.version
  graphSnapshotV4 read :=
    if read.length ≤ DECODE_LIMIT_BYTES then .ok (snapshot, read.length)
    else .error "LimitExceeded"
  graphSnapshotV3 _ := .error "UnexpectedEnd"

theorem bytesBincode_readsBack (data : List UInt8) (snapshot : GraphSnapshotV4 Nat Nat) :
    (bytesBincode data snapshot).ReadsBack snapshot data := by
  refine ⟨rfl, rfl, fun hwithin => if_pos hwithin, fun hbeyond => ⟨_, if_neg ?_⟩⟩
  exact not_le.mpr hbeyond

theorem bytesBincode_reads (data : List UInt8) {graph : Graph Nat Nat}
    {snapshot : GraphSnapshotV4 Nat Nat} :
    let _ := exactValues Nat
    (graphSnapshot graph).toOption = some snapshot → ∀ other, graphSnapshot graph = .ok other →
      ∃ written, (bytesBincode data snapshot).ReadsBack other written := by
  intro _ hsnapshot other hother
  rw [hother] at hsnapshot
  obtain rfl := Option.some.inj hsnapshot
  exact ⟨data, bytesBincode_readsBack data other⟩

def learnedBytes : List UInt8 :=
  [4, 0, 0, 0, 2, 0, 0, 0, 0, 0, 0, 0, 1, 0, 0, 0, 0, 0, 0, 0, 97, 1, 0, 0, 0, 0, 0, 0, 0, 65, 107,
    1, 0, 0, 0, 0, 0, 0, 0, 1, 0, 0, 0, 0, 0, 0, 0, 116, 0, 0, 0, 0, 0, 0, 20, 64, 0, 0, 0, 0, 0, 0,
    0, 0, 0, 0, 1, 0, 0, 0, 0, 0, 0, 0, 98, 1, 0, 0, 0, 0, 0, 0, 0, 66, 0, 0, 0, 0, 0, 0, 0, 0, 0,
    0, 0, 0, 0, 0, 0, 24, 64, 0, 0, 128, 63, 0, 0, 0, 0, 0, 0, 1, 0, 0, 0, 0, 0, 0, 0, 1, 0, 0, 0,
    0, 0, 0, 0, 97, 1, 0, 0, 0, 0, 0, 0, 0, 98, 5, 0, 0, 0, 0, 0, 0, 0, 99, 97, 108, 108, 115, 0, 0,
    64, 64, 0, 0, 16, 65, 1, 0, 0, 64, 64, 1, 0, 0, 64, 64, 1, 0, 0, 0, 0, 64]

-- The graph without nodes, which only JSON finalizes again.
def emptyRun : List (GraphEdit Nat Nat) :=
  [.operate .finalize]

def emptySnapshot : GraphSnapshotV4 Nat Nat where
  version := 4
  nodes := []
  edges := []

def emptyText : String :=
  "\x7b\"version\":4,\"nodes\":[],\"edges\":[]\x7d"

def emptyBytes : List UInt8 :=
  [4, 0, 0, 0, 0, 0, 0, 0, 0, 0, 0, 0, 0, 0, 0, 0, 0, 0, 0, 0]

end Examples

end M1nd.Core
