import M1nd.Core.Layer.Reads
import M1nd.Core.Neighbors
import M1nd.Core.Snapshot.Agreement

namespace M1nd.Core

open M1nd.Library.Checks
open M1nd.Library.Loops

variable {W F T : Type} [Zero W] {graph next : Graph W T}

-- What edits lead to.
def Graph.Built (graph : Graph W T) : Prop := ∃ edits, GraphEdit.run edits = graph

-- Names and nodes correspond, each slot of a node ends at a node and has a relation, and the
-- reverse ranges list the edges of the forward ones.
structure Graph.WellFormed (graph : Graph W T) : Prop where
  known : ∀ id node, graph.resolveId id = some node → node < graph.nodes.count
  named : ∀ node < graph.nodes.count, ∃ id, graph.resolveId id = some node ∧
    ∀ other, graph.resolveId other = some node → other = id
  slots : ∀ node, ∀ j ∈ graph.csr.outRange node, node < graph.nodes.count ∧
    (∃ target < graph.nodes.count, graph.csr.targets[j]? = some target) ∧
    (∃ relation, relationName graph j = some relation) ∧
    ∃ weight, graph.csr.weights[j]? = some weight
  reflected : graph.Reflected

theorem Graph.Built.wellFormed (h : graph.Built) : graph.WellFormed := by
  obtain ⟨edits, rfl⟩ := h
  let := exactValues W
  have hcoherent := GraphEdit.coherent_run W edits
  have hbrowsable := GraphEdit.browsable_run W edits
  have hregistered := hcoherent.registered
  constructor
  case known =>
    intro id node hnode
    obtain ⟨handle, -, hnode⟩ := hregistered.resolveId_iff.mp hnode
    exact (hregistered.known handle node hnode).1
  case named =>
    intro node hnode
    obtain ⟨handle, hhandle⟩ := hregistered.total node hnode
    have hspelled := (hregistered.known handle node hhandle).2
    refine ⟨_, hregistered.resolveId_iff.mpr ⟨handle, List.getElem?_eq_getElem hspelled, hhandle⟩, ?_⟩
    intro other hother
    obtain ⟨handle', hname, hnode⟩ := hregistered.resolveId_iff.mp hother
    obtain rfl := hregistered.unique _ _ node hhandle hnode
    exact Option.some.inj (hname.symm.trans (List.getElem?_eq_getElem hspelled))
  case slots =>
    intro node j hj
    obtain ⟨handle, relation, target, hhandle, hrelation, htarget⟩ := hbrowsable.readable node j hj
    have hlt := hcoherent.tabled.listed.mem_outRange_lt hj
    have hweight : j < (GraphEdit.run edits).csr.weights.length :=
      hcoherent.tabled.listed.weights.symm ▸ hlt
    refine ⟨?_, ⟨target, ?_, htarget⟩, ⟨relation, ?_⟩, _, List.getElem?_eq_getElem hweight⟩
    · by_contra hge
      have hnone : (GraphEdit.run edits).csr.offsets.length ≤ node + 1 :=
        hcoherent.sound.covered.trans (Nat.succ_le_succ (not_lt.mp hge))
      rw [CsrGraph.outRange, if_pos hnone] at hj
      exact List.not_mem_nil hj
    · exact hcoherent.sound.targets target (List.mem_of_getElem? htarget)
    · rw [relationName, hhandle, Option.bind_some, hrelation]
  case reflected => exact GraphEdit.reflected_run W edits

section Steps

theorem Graph.Built.apply (h : graph.Built) (edit : GraphEdit W T) : (edit.apply graph).Built := by
  obtain ⟨edits, rfl⟩ := h
  exact ⟨edits ++ [edit], by rw [GraphEdit.run, List.foldl_append]; rfl⟩

theorem set_getD {α : Type} (items : List α) (i : Nat) (d : α) :
    items.set i (items.getD i d) = items := by
  by_cases hi : i < items.length
  · rw [List.getD_eq_getElem _ _ hi, List.set_getElem_self]
  · exact List.set_eq_of_length_le (not_lt.mp hi)

variable [FiniteF32 W F] [FiniteF64 T] {format : SnapshotFormat}

theorem Graph.Built.buildNode (h : graph.Built) {node : NodeSnapshot F T}
    (hnext : buildNode format graph node = .ok next) : next.Built := by
  obtain ⟨-, -, id, -, rfl⟩ := buildNode_eq_ok.mp hnext
  exact (h.apply (.operate (.addNode _ _ _ _ _ _))).apply (.setNodeProvenance id node.provenance)

omit [FiniteF64 T] in
theorem Graph.Built.buildEdge (h : graph.Built) {edge : EdgeSnapshotV4 F}
    (hnext : buildEdge format graph edge = .ok next) : next.Built := by
  obtain ⟨source, -, target, -, idx, -, rfl⟩ := buildEdge_eq_ok.mp hnext
  exact h.apply (.operate (.addEdge source target _ _ _ _ _))

-- Both weights of a slot are stored, and the rest of its record stays.
omit [FiniteF64 T] in
theorem Graph.Built.restoreEdgeSlot (h : graph.Built) {slot : Nat} {originalWeight currentWeight : F}
    (hnext : restoreEdgeSlot graph slot originalWeight currentWeight = .ok next) : next.Built := by
  obtain ⟨-, -, hnext⟩ := bind_eq_ok.mp hnext
  split at hnext
  · cases hnext
  · rename_i hlt
    obtain ⟨edits, hedits⟩ := h
    have hslot : slot < graph.csr.targets.length := by
      rw [← hedits, ← (GraphEdit.coherent_run F edits).tabled.listed.weights, hedits]
      exact not_le.mp hlt
    have hstored : (GraphEdit.operate (.storeSynapse slot { graph.edgePlasticity.row slot with
        originalWeight := FiniteF32.new originalWeight
        currentWeight := FiniteF32.new currentWeight })).apply
          ((GraphEdit.operate (.storeWeight slot (FiniteF32.new currentWeight))).apply graph) =
            next := by
      rw [← Except.ok.inj hnext]
      simp only [GraphEdit.apply, GraphOp.apply, if_pos hslot, CsrGraph.storeWeight,
        EdgePlasticity.store, EdgePlasticity.row, set_getD]
    exact hstored ▸ ((Graph.Built.apply ⟨edits, hedits⟩ _).apply _)

variable [DecidableEq F]

omit [FiniteF64 T] in
theorem Graph.Built.restoreEdge {state after : Restoring W F T} (h : state.graph.Built)
    {edge : EdgeSnapshotV4 F} (hnext : restoreEdge format state edge = .ok after) :
    after.graph.Built := by
  have hkey : ∀ (state after : Restoring W F T) key (originalWeight currentWeight : F) reason,
      state.graph.Built → restoreKey state key originalWeight currentWeight reason = .ok after →
        after.graph.Built := by
    intro state after key originalWeight currentWeight reason h hnext
    obtain ⟨⟨slot, queues⟩, -, hnext⟩ := bind_eq_ok.mp hnext
    obtain ⟨restored, hrestored, hnext⟩ := bind_eq_ok.mp hnext
    rw [← Except.ok.inj hnext]
    exact h.restoreEdgeSlot hrestored
  obtain ⟨source, -, hnext⟩ := bind_eq_ok.mp hnext
  obtain ⟨target, -, hnext⟩ := bind_eq_ok.mp hnext
  obtain ⟨relation, -, hnext⟩ := bind_eq_ok.mp hnext
  obtain ⟨forward, hforward, hnext⟩ := bind_eq_ok.mp hnext
  have hbuilt := hkey _ _ _ _ _ _ h hforward
  split at hnext
  · obtain ⟨originalWeight, -, hnext⟩ := bind_eq_ok.mp hnext
    obtain ⟨currentWeight, -, hnext⟩ := bind_eq_ok.mp hnext
    exact hkey _ _ _ _ _ _ hbuilt hnext
  · rw [← Except.ok.inj hnext]
    exact hbuilt

theorem built_of_graphFromSnapshotV4 {snapshot : GraphSnapshotV4 F T}
    (hnext : graphFromSnapshotV4 format snapshot = .ok next) : next.Built := by
  have hnew : (Graph.new : Graph W T).Built := ⟨[], rfl⟩
  unfold graphFromSnapshotV4 at hnext
  split at hnext
  · cases hnext
  · split at hnext
    · split at hnext
      · rw [← Except.ok.inj hnext]
        split
        · exact hnew.apply (.operate .finalize)
        · exact hnew
      · cases hnext
    · obtain ⟨-, -, hnext⟩ := bind_eq_ok.mp hnext
      obtain ⟨nodes, hnodes, hnext⟩ := bind_eq_ok.mp hnext
      obtain ⟨edges, hedges, hnext⟩ := bind_eq_ok.mp hnext
      obtain ⟨sources, -, hnext⟩ := bind_eq_ok.mp hnext
      obtain ⟨queues, -, hnext⟩ := bind_eq_ok.mp hnext
      obtain ⟨state, hstate, hnext⟩ := bind_eq_ok.mp hnext
      have hnodes := foldlM_invariant Graph.Built hnew (fun _ h _ _ _ => h.buildNode) hnodes
      have hedges := foldlM_invariant Graph.Built hnodes (fun _ h _ _ _ => h.buildEdge) hedges
      rw [← Except.ok.inj hnext]
      exact foldlM_invariant (fun state : Restoring W F T => state.graph.Built)
        (hedges.apply (.operate .finalize)) (fun _ h _ _ _ => h.restoreEdge) hstate

end Steps

section Codecs

variable [FiniteF32 W F] [FiniteF64 T] [DecidableEq F]

-- Whatever the bytes and the decoder, a graph that is loaded is one that edits lead to.
theorem decodeGraph_wellFormed (serde : SerdeJson F T) (bincode : Bincode F T)
    (data : List UInt8) (graph : Graph W T)
    (hgraph : decodeGraphJson serde data = .ok graph ∨ decodeGraphBin bincode data = .ok graph) :
    graph.Built ∧ graph.WellFormed := by
  have hbuilt : graph.Built := by
    obtain hgraph | hgraph := hgraph
    all_goals
      obtain ⟨version, -, hgraph⟩ := bind_eq_ok.mp hgraph
      obtain ⟨snapshot, -, hgraph⟩ := bind_eq_ok.mp hgraph
      exact built_of_graphFromSnapshotV4 hgraph
  exact ⟨hbuilt, hbuilt.wellFormed⟩

theorem decodeGraph_wellFormed_call :
    let _ := exactValues Nat
    let serde := textSerde "" ⟨4, [⟨"a", "A", 0, [], 5, 0, .default⟩,
      ⟨"b", "B", 0, [], 6, 1, .default⟩], [⟨"a", "b", "calls", 3, 9, none, none, 0, false, 2⟩]⟩
    ∃ graph : Graph Nat Nat, decodeGraphJson serde [] = .ok graph ∧ graph.Built ∧
      graph.WellFormed := by
  intro _ serde
  have hread : (decodeGraphJson (W := Nat) serde []).toBool = true := by decide +kernel
  cases hgraph : decodeGraphJson (W := Nat) serde [] with
  | error error =>
      rw [hgraph] at hread
      cases hread
  | ok graph =>
      exact ⟨graph, rfl, decodeGraph_wellFormed serde (bytesBincode [] ⟨4, [], []⟩) [] graph
        (.inl hgraph)⟩

end Codecs

end M1nd.Core
