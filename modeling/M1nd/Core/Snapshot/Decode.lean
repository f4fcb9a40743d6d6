import M1nd.Core.Snapshot
import M1nd.Library.Checks

namespace M1nd.Core

open M1nd.Library.Checks

-- What the JSON and the binary codec do differently when they rebuild a graph: the texts of
-- their errors, and whether the graph of an empty snapshot is finalized.
structure SnapshotFormat where
  unsupportedVersion : Nat → String
  edgesButNoNodes : String
  unknownDirection : Nat → String
  nonFiniteEdge : String → String → String
  forwardWithReverse : String
  missingReverse : String
  nonFiniteNode : String → String
  sourceMissing : String → String
  targetMissing : String → String
  sourceDisappeared : String → String
  targetDisappeared : String → String
  relationDisappeared : String → String
  noSlot : String → String → String → String
  noReverseSlot : String → String → String
  finalizesEmpty : Bool

def jsonFormat : SnapshotFormat where
  unsupportedVersion version := s!"unsupported JSON graph snapshot version {version}"
  edgesButNoNodes := "graph snapshot has edges but no nodes"
  unknownDirection direction := s!"unknown edge direction {direction}"
  nonFiniteEdge source target := s!"non-finite persisted edge state for {source} -> {target}"
  forwardWithReverse := "forward edge unexpectedly contains reverse-slot state"
  missingReverse := "bidirectional edge is missing one or both reverse-slot weights"
  nonFiniteNode node := s!"non-finite node state for {node}"
  sourceMissing source := s!"snapshot edge source {source} is missing"
  targetMissing target := s!"snapshot edge target {target} is missing"
  sourceDisappeared source := s!"snapshot edge source {source} disappeared"
  targetDisappeared target := s!"snapshot edge target {target} disappeared"
  relationDisappeared relation := s!"snapshot edge relation {relation} disappeared"
  noSlot source target relation :=
    s!"persisted edge {source} -> {target} ({relation}) has no CSR slot"
  noReverseSlot source target :=
    s!"persisted bidirectional edge {source} -> {target} has no reverse CSR slot"
  finalizesEmpty := true

def binaryFormat : SnapshotFormat where
  unsupportedVersion version := s!"unsupported binary graph snapshot version {version}"
  edgesButNoNodes := "binary graph snapshot has edges but no nodes"
  unknownDirection direction := s!"unknown binary edge direction {direction}"
  nonFiniteEdge source target := s!"non-finite binary edge state for {source} -> {target}"
  forwardWithReverse := "forward binary edge unexpectedly contains reverse-slot state"
  missingReverse := "bidirectional binary edge is missing reverse-slot weights"
  nonFiniteNode node := s!"non-finite binary node state for {node}"
  sourceMissing source := s!"binary snapshot edge source {source} is missing"
  targetMissing target := s!"binary snapshot edge target {target} is missing"
  sourceDisappeared source := s!"binary snapshot source {source} disappeared"
  targetDisappeared target := s!"binary snapshot target {target} disappeared"
  relationDisappeared relation := s!"binary snapshot relation {relation} disappeared"
  noSlot source target relation := s!"binary edge {source} -> {target} ({relation}) has no CSR slot"
  noReverseSlot source target :=
    s!"binary bidirectional edge {source} -> {target} has no reverse CSR slot"
  finalizesEmpty := false

section Decode

variable {W F T : Type} [FiniteF32 W F] [FiniteF64 T] [DecidableEq F]

def validateV4Edge (W : Type) [FiniteF32 W F] (format : SnapshotFormat) (edge : EdgeSnapshotV4 F) :
    Except SnapshotError Unit :=
  let isFinite : F → Bool := FiniteF32.isFinite W
  if 1 < edge.direction then
    .error (.CorruptState (format.unknownDirection edge.direction))
  else if !isFinite edge.originalWeight || !isFinite edge.currentWeight ||
      !isFinite edge.causalStrength || edge.reverseOriginalWeight.any (fun value => !isFinite value) ||
      edge.reverseCurrentWeight.any fun value => !isFinite value then
    .error (.CorruptState (format.nonFiniteEdge edge.sourceId edge.targetId))
  else
    match edge.direction, edge.reverseOriginalWeight, edge.reverseCurrentWeight with
    | 0, none, none => .ok ()
    | 0, _, _ => .error (.CorruptState format.forwardWithReverse)
    | _, some _, some _ => .ok ()
    | _, _, _ => .error (.CorruptState format.missingReverse)

def orGraphError {α : Type} (value : Except GraphError α) : Except SnapshotError α :=
  value.mapError .Graph

def buildNode (format : SnapshotFormat) (graph : Graph W T) (node : NodeSnapshot F T) :
    Except SnapshotError (Graph W T) :=
  if !FiniteF64.isFinite node.lastModified || !FiniteF32.isFinite W node.changeFrequency then
    .error (.CorruptState (format.nonFiniteNode node.externalId))
  else do
    let (added, graph) := graph.addNode node.externalId node.label (u8ToNodeType node.nodeType)
      node.tags node.lastModified (FiniteF32.new node.changeFrequency)
    let nodeId ← orGraphError added
    .ok (graph.setNodeProvenance nodeId node.provenance)

def orCorrupt {α : Type} (value : Option α) (reason : String) : Except SnapshotError α :=
  match value with
  | some value => .ok value
  | none => .error (.CorruptState reason)

def buildEdge (format : SnapshotFormat) (graph : Graph W T) (edge : EdgeSnapshotV4 F) :
    Except SnapshotError (Graph W T) := do
  let source ← orCorrupt (graph.resolveId edge.sourceId) (format.sourceMissing edge.sourceId)
  let target ← orCorrupt (graph.resolveId edge.targetId) (format.targetMissing edge.targetId)
  let (added, graph) := graph.addEdge source target edge.relation
    (FiniteF32.new edge.originalWeight)
    (if edge.direction = 1 then .Bidirectional else .Forward) edge.inhibitory
    (FiniteF32.new edge.causalStrength)
  let _ ← orGraphError added
  .ok graph

-- The weights have been checked to be finite, so that their bits are those of the finite values.
def restoreEdgeSlot (graph : Graph W T) (slot : Nat) (originalWeight currentWeight : F) :
    Except SnapshotError (Graph W T) := do
  validateEdgePlasticitySlot graph slot
  if graph.csr.weights.length ≤ slot then .error .Panicked
  else .ok {
    graph with
    edgePlasticity := {
      graph.edgePlasticity with
      originalWeight :=
        graph.edgePlasticity.originalWeight.set slot (FiniteF32.new originalWeight)
      currentWeight :=
        graph.edgePlasticity.currentWeight.set slot (FiniteF32.new currentWeight) }
    csr := { graph.csr with weights := graph.csr.weights.set slot (FiniteF32.new currentWeight) } }

structure Restoring (W F T : Type) where
  graph : Graph W T
  queues : EdgeSlotKey F → List Nat
  consumed : Nat → Bool

-- The next slot of a key gets the weights.
def restoreKey (state : Restoring W F T) (key : EdgeSlotKey F) (originalWeight currentWeight : F)
    (reason : String) : Except SnapshotError (Restoring W F T) := do
  let (slot, queues) ← orCorrupt (popUnconsumedSlot state.queues key state.consumed) reason
  let graph ← restoreEdgeSlot state.graph slot originalWeight currentWeight
  .ok ⟨graph, queues, Function.update state.consumed slot true⟩

def restoreEdge (format : SnapshotFormat) (state : Restoring W F T) (edge : EdgeSnapshotV4 F) :
    Except SnapshotError (Restoring W F T) := do
  let source ← orCorrupt (state.graph.resolveId edge.sourceId)
    (format.sourceDisappeared edge.sourceId)
  let target ← orCorrupt (state.graph.resolveId edge.targetId)
    (format.targetDisappeared edge.targetId)
  let relation ← orCorrupt (state.graph.strings.lookup edge.relation)
    (format.relationDisappeared edge.relation)
  let key : EdgeSlotKey F :=
    ⟨source, target, relation, edge.direction, edge.inhibitory, edge.causalStrength⟩
  let state ← restoreKey state key edge.originalWeight edge.currentWeight
    (format.noSlot edge.sourceId edge.targetId edge.relation)
  if edge.direction = 1 then
    let originalWeight ← orPanic edge.reverseOriginalWeight
    let currentWeight ← orPanic edge.reverseCurrentWeight
    restoreKey state key.reversed originalWeight currentWeight
      (format.noReverseSlot edge.sourceId edge.targetId)
  else .ok state

variable [Zero W]

def graphFromSnapshotV4 (format : SnapshotFormat) (snapshot : GraphSnapshotV4 F T) :
    Except SnapshotError (Graph W T) :=
  if snapshot.version ≠ SNAPSHOT_VERSION then
    .error (.CorruptState (format.unsupportedVersion snapshot.version))
  else if snapshot.nodes.isEmpty then
    if snapshot.edges.isEmpty then
      .ok (if format.finalizesEmpty then Graph.new.finalize else .new)
    else .error (.CorruptState format.edgesButNoNodes)
  else do
    snapshot.edges.forM (validateV4Edge W format)
    let graph ← snapshot.nodes.foldlM (buildNode format) Graph.new
    let graph ← snapshot.edges.foldlM (buildEdge format) graph
    let graph := graph.finalize
    let sources ← edgeSlotSources graph
    let queues ← edgeSlotQueues graph sources
    let state ← snapshot.edges.foldlM (restoreEdge format) ⟨graph, queues, fun _ => false⟩
    .ok state.graph

end Decode

section Accepted

variable {W F T : Type} {format : SnapshotFormat} {graph next : Graph W T}

@[simp]
theorem orPanic_some {α : Type} (a : α) : orPanic (some a) = .ok a := rfl

theorem orPanic_eq_ok {α : Type} {value : Option α} {a : α} :
    orPanic value = .ok a ↔ value = some a := by
  cases value <;> simp [orPanic]

theorem orCorrupt_eq_ok {α : Type} {value : Option α} {reason : String} {a : α} :
    orCorrupt value reason = .ok a ↔ value = some a := by
  cases value <;> simp [orCorrupt]

theorem orGraphError_eq_ok {α : Type} {value : Except GraphError α} {a : α} :
    orGraphError value = .ok a ↔ value = .ok a :=
  mapError_eq_ok

variable [FiniteF32 W F]

theorem buildNode_eq_ok [FiniteF64 T] {node : NodeSnapshot F T} :
    buildNode format graph node = .ok next ↔
      FiniteF64.isFinite node.lastModified = true ∧
        FiniteF32.isFinite W node.changeFrequency = true ∧
        ∃ id, (graph.addNode node.externalId node.label (u8ToNodeType node.nodeType) node.tags
          node.lastModified (FiniteF32.new node.changeFrequency)).1 = .ok id ∧
          (graph.addNode node.externalId node.label (u8ToNodeType node.nodeType) node.tags
            node.lastModified (FiniteF32.new node.changeFrequency)).2.setNodeProvenance id
              node.provenance = next := by
  unfold buildNode
  cases FiniteF64.isFinite node.lastModified with
  | false => simp
  | true =>
      cases FiniteF32.isFinite W node.changeFrequency with
      | false => simp
      | true =>
          simp only [Bool.not_true, Bool.or_self, Bool.false_eq_true, if_false, bind_eq_ok,
            orGraphError_eq_ok, Except.ok.injEq, true_and]

theorem buildEdge_eq_ok {edge : EdgeSnapshotV4 F} :
    buildEdge format graph edge = .ok next ↔
      ∃ source, graph.resolveId edge.sourceId = some source ∧
        ∃ target, graph.resolveId edge.targetId = some target ∧
        ∃ idx, (graph.addEdge source target edge.relation (FiniteF32.new edge.originalWeight)
          (if edge.direction = 1 then .Bidirectional else .Forward) edge.inhibitory
          (FiniteF32.new edge.causalStrength)).1 = .ok idx ∧
          (graph.addEdge source target edge.relation (FiniteF32.new edge.originalWeight)
            (if edge.direction = 1 then .Bidirectional else .Forward) edge.inhibitory
            (FiniteF32.new edge.causalStrength)).2 = next := by
  unfold buildEdge
  simp only [bind_eq_ok, orCorrupt_eq_ok, orGraphError_eq_ok, Except.ok.injEq]

end Accepted

end M1nd.Core
