import M1nd.Core.Graph

namespace M1nd.Core

-- The finite f32 values that a graph holds, among all the values that a file can hold.
class FiniteF32 (W : Type) (F : outParam Type) where
  new : F → W
  get : W → F
  isFinite : F → Bool
  isFinite_get : ∀ w, isFinite (get w) = true
  new_get : ∀ w, new (get w) = w
  get_new : ∀ f, isFinite f = true → get (new f) = f

class FiniteF64 (T : Type) where
  isFinite : T → Bool

def SNAPSHOT_VERSION : Nat := 4

def LEGACY_SNAPSHOT_VERSION : Nat := 3

inductive SnapshotError
  | CorruptState (reason : String)
  | Graph (error : GraphError)
  | Serde (reason : String)
  | PersistenceFailed (reason : String)
  | Panicked
deriving DecidableEq

-- Indexing behind the end of a vector panics.
def orPanic {α : Type} (value : Option α) : Except SnapshotError α :=
  match value with
  | some value => .ok value
  | none => .error .Panicked

section Provenance

-- The snapshot and the input of a node's provenance have these fields, too.
structure ResolvedNodeProvenance where
  sourcePath : Option String
  lineStart : Option Nat
  lineEnd : Option Nat
  excerpt : Option String
  «namespace» : Option String
  canonical : Bool
deriving DecidableEq

def ResolvedNodeProvenance.default : ResolvedNodeProvenance where
  sourcePath := none
  lineStart := none
  lineEnd := none
  excerpt := none
  «namespace» := none
  canonical := false

-- An empty string is dropped.
def StringInterner.internNonEmpty (interner : StringInterner) (value : Option String) :
    Option Nat × StringInterner :=
  match value.filter fun value => !value.isEmpty with
  | some value => (interner.getOrIntern value).map some id
  | none => (none, interner)

namespace Graph

variable {W T : Type}

def resolveId (graph : Graph W T) (externalId : String) : Option Nat := do
  let interned ← graph.strings.lookup externalId
  graph.idToNode[interned]?

def setNodeProvenance (graph : Graph W T) (node : Nat) (provenance : ResolvedNodeProvenance) :
    Graph W T :=
  if graph.nodes.count ≤ node then graph
  else
    let (sourcePath, strings) := graph.strings.internNonEmpty provenance.sourcePath
    let (excerpt, strings) := strings.internNonEmpty provenance.excerpt
    let (space, strings) := strings.internNonEmpty provenance.namespace
    { graph with
      strings := strings
      nodes := {
        graph.nodes with
        provenance := graph.nodes.provenance.set node {
          sourcePath := sourcePath
          lineStart := provenance.lineStart.getD 0
          lineEnd := (provenance.lineEnd.or provenance.lineStart).getD 0
          excerpt := excerpt
          «namespace» := space
          canonical := provenance.canonical } } }

def resolveNodeProvenance (graph : Graph W T) (node : Nat) : ResolvedNodeProvenance :=
  if graph.nodes.count ≤ node then .default
  else
    let provenance := graph.nodes.provenance.getD node .default
    { sourcePath := provenance.sourcePath.bind graph.strings.tryResolve
      lineStart := if 0 < provenance.lineStart then some provenance.lineStart else none
      lineEnd := if 0 < provenance.lineEnd then some provenance.lineEnd else none
      excerpt := provenance.excerpt.bind graph.strings.tryResolve
      «namespace» := provenance.namespace.bind graph.strings.tryResolve
      canonical := provenance.canonical }

end Graph

end Provenance

section Snapshots

structure NodeSnapshot (F T : Type) where
  externalId : String
  label : String
  nodeType : UInt8
  tags : List String
  lastModified : T
  changeFrequency : F
  provenance : ResolvedNodeProvenance

structure EdgeSnapshotV4 (F : Type) where
  sourceId : String
  targetId : String
  relation : String
  originalWeight : F
  currentWeight : F
  reverseOriginalWeight : Option F
  reverseCurrentWeight : Option F
  direction : Nat
  inhibitory : Bool
  causalStrength : F

structure GraphSnapshotV4 (F T : Type) where
  version : Nat
  nodes : List (NodeSnapshot F T)
  edges : List (EdgeSnapshotV4 F)

structure EdgeSnapshotV3 (F : Type) where
  sourceId : String
  targetId : String
  relation : String
  weight : F
  direction : Nat
  inhibitory : Bool
  causalStrength : F

structure GraphSnapshotV3 (F T : Type) where
  version : Nat
  nodes : List (NodeSnapshot F T)
  edges : List (EdgeSnapshotV3 F)

def EdgeSnapshotV3.toV4 {F : Type} (value : EdgeSnapshotV3 F) : EdgeSnapshotV4 F :=
  let reverseWeight := if value.direction = 1 then some value.weight else none
  { sourceId := value.sourceId
    targetId := value.targetId
    relation := value.relation
    originalWeight := value.weight
    currentWeight := value.weight
    reverseOriginalWeight := reverseWeight
    reverseCurrentWeight := reverseWeight
    direction := value.direction
    inhibitory := value.inhibitory
    causalStrength := value.causalStrength }

-- The sum is one of u8.
def nodeTypeToU8 : NodeType → UInt8
  | .File => 0
  | .Directory => 1
  | .Function => 2
  | .Class => 3
  | .Struct => 4
  | .Enum => 5
  | .Type => 6
  | .Module => 7
  | .Reference => 8
  | .Concept => 9
  | .Material => 10
  | .Process => 11
  | .Product => 12
  | .Supplier => 13
  | .Regulatory => 14
  | .System => 15
  | .Cost => 16
  | .Custom v => 100 + v

def u8ToNodeType (v : UInt8) : NodeType :=
  if v = 0 then .File
  else if v = 1 then .Directory
  else if v = 2 then .Function
  else if v = 3 then .Class
  else if v = 4 then .Struct
  else if v = 5 then .Enum
  else if v = 6 then .Type
  else if v = 7 then .Module
  else if v = 8 then .Reference
  else if v = 9 then .Concept
  else if v = 10 then .Material
  else if v = 11 then .Process
  else if v = 12 then .Product
  else if v = 13 then .Supplier
  else if v = 14 then .Regulatory
  else if v = 15 then .System
  else if v = 16 then .Cost
  else if 100 ≤ v then .Custom (v - 100)
  else .Custom v

def EdgeDirection.code : EdgeDirection → Nat
  | .Forward => 0
  | .Bidirectional => 1

structure EdgeSlotKey (F : Type) where
  source : Nat
  target : Nat
  relation : Nat
  direction : Nat
  inhibitory : Bool
  causalStrength : F
deriving DecidableEq

def EdgeSlotKey.reversed {F : Type} (key : EdgeSlotKey F) : EdgeSlotKey F :=
  { key with source := key.target, target := key.source }

end Snapshots

section Encode

variable {W F T : Type} [FiniteF32 W F] [DecidableEq F]

-- Each slot gets the node whose range it lies in.
def assignSource (sources : List (Option Nat)) (slot : Nat × Nat) :
    Except SnapshotError (List (Option Nat)) :=
  if sources.length ≤ slot.2 ∨ (sources.getD slot.2 none).isSome then
    .error (.CorruptState "CSR edge ranges are overlapping or out of bounds")
  else .ok (sources.set slot.2 (some slot.1))

def edgeSlotSources (graph : Graph W T) : Except SnapshotError (List Nat) := do
  let slots := (List.range graph.nodes.count).flatMap fun source =>
    (graph.csr.outRange source).map fun slot => (source, slot)
  let sources ← slots.foldlM assignSource (List.replicate graph.csr.numEdges none)
  if sources.any fun source => source.isNone then
    .error (.CorruptState "CSR offsets leave one or more edge slots without a source")
  else .ok (sources.filterMap id)

def edgeSlotKey (graph : Graph W T) (sources : List Nat) (slot : Nat) :
    Except SnapshotError (EdgeSlotKey F) :=
  let csr := graph.csr
  match sources[slot]?, csr.targets[slot]?, csr.relations[slot]?, csr.directions[slot]?,
      csr.inhibitory[slot]?, csr.causalStrengths[slot]? with
  | some source, some target, some relation, some direction, some inhibitory, some strength =>
      if slot < csr.numEdges then
        .ok ⟨source, target, relation, direction.code, inhibitory, FiniteF32.get strength⟩
      else .error (.CorruptState s!"CSR edge slot {slot} is structurally incomplete")
  | _, _, _, _, _, _ => .error (.CorruptState s!"CSR edge slot {slot} is structurally incomplete")

-- The slots of each key, in their order.
def edgeSlotQueues (graph : Graph W T) (sources : List Nat) :
    Except SnapshotError (EdgeSlotKey F → List Nat) :=
  (List.range graph.csr.numEdges).foldlM
    (fun queues slot => do
      let key ← edgeSlotKey graph sources slot
      .ok (Function.update queues key (queues key ++ [slot])))
    fun _ => []

def popUnconsumedSlot (queues : EdgeSlotKey F → List Nat) (key : EdgeSlotKey F)
    (consumed : Nat → Bool) : Option (Nat × (EdgeSlotKey F → List Nat)) :=
  match (queues key).dropWhile consumed with
  | [] => none
  | slot :: rest => some (slot, Function.update queues key rest)

def validateEdgePlasticitySlot (graph : Graph W T) (slot : Nat) : Except SnapshotError Unit :=
  if graph.edgePlasticity.originalWeight.length ≤ slot ∨
      graph.edgePlasticity.currentWeight.length ≤ slot then
    .error (.CorruptState s!"edge plasticity slot {slot} is missing")
  else .ok ()

structure Collected (F : Type) where
  queues : EdgeSlotKey F → List Nat
  consumed : Nat → Bool
  edges : List (EdgeSnapshotV4 F)

variable [Zero W]

-- What the slots of an edge hold: the original weight, and the weight that is read with a u32.
def slotWeights (graph : Graph W T) (slot : Nat) : F × F :=
  (FiniteF32.get (graph.edgePlasticity.originalWeight.getD slot 0),
    FiniteF32.get (graph.csr.readWeight (EdgeIdx.new slot)))

def collectReverse (graph : Graph W T) (slot : Nat) (key : EdgeSlotKey F)
    (state : Collected F) : Except SnapshotError (Option (F × F) × Collected F) :=
  if graph.csr.directions.getD slot .Forward = .Bidirectional then
    match popUnconsumedSlot state.queues key.reversed state.consumed with
    | none =>
        .error (.CorruptState s!"bidirectional edge slot {slot} has no exact reverse CSR mirror")
    | some (reverseSlot, queues) => do
        validateEdgePlasticitySlot graph reverseSlot
        .ok (some (slotWeights graph reverseSlot), {
          state with
          queues := queues
          consumed := Function.update state.consumed reverseSlot true })
  else .ok (none, state)

def collectSlot (graph : Graph W T) (nodeToExtId : List String) (sources : List Nat)
    (state : Collected F) (slot : Nat) : Except SnapshotError (Collected F) :=
  if state.consumed slot then .ok state
  else do
    validateEdgePlasticitySlot graph slot
    let key ← edgeSlotKey graph sources slot
    match nodeToExtId[key.source]?, nodeToExtId[key.target]? with
    | some sourceId, some targetId => do
        let (reverse, state) ← collectReverse graph slot key
          { state with consumed := Function.update state.consumed slot true }
        let relation ← orPanic (graph.strings.tryResolve key.relation)
        let (originalWeight, currentWeight) := slotWeights graph slot
        .ok { state with
          edges := state.edges ++ [{
            sourceId := sourceId
            targetId := targetId
            relation := relation
            originalWeight := originalWeight
            currentWeight := currentWeight
            reverseOriginalWeight := reverse.map Prod.fst
            reverseCurrentWeight := reverse.map Prod.snd
            direction := key.direction
            inhibitory := key.inhibitory
            causalStrength := key.causalStrength }] }
    | _, _ => .error (.CorruptState s!"edge slot {slot} points outside the node table")

def collectEdgeSnapshotsV4 (graph : Graph W T) (nodeToExtId : List String) :
    Except SnapshotError (List (EdgeSnapshotV4 F)) := do
  let sources ← edgeSlotSources graph
  let queues ← edgeSlotQueues graph sources
  let state ← (List.range graph.csr.numEdges).foldlM (collectSlot graph nodeToExtId sources)
    ⟨queues, fun _ => false, []⟩
  .ok state.edges

-- The external id of each node, read off the map from the handles of the ids to the nodes.
def nodeToExtId (graph : Graph W T) : Except SnapshotError (List String) :=
  graph.idToNode.toList.foldlM
    (fun ids entry => do
      let externalId ← orPanic (graph.strings.tryResolve entry.1)
      if entry.2 < ids.length then .ok (ids.set entry.2 externalId) else .error .Panicked)
    (List.replicate graph.nodes.count "")

def nodeSnapshot (graph : Graph W T) (nodeToExtId : List String) (i : Nat) :
    Except SnapshotError (NodeSnapshot F T) := do
  let externalId ← orPanic nodeToExtId[i]?
  let labelHandle ← orPanic graph.nodes.label[i]?
  let label ← orPanic (graph.strings.tryResolve labelHandle)
  let tagHandles ← orPanic graph.nodes.tags[i]?
  let tags ← tagHandles.mapM fun tag => orPanic (graph.strings.tryResolve tag)
  let nodeType ← orPanic graph.nodes.nodeType[i]?
  let lastModified ← orPanic graph.nodes.lastModified[i]?
  let changeFrequency ← orPanic graph.nodes.changeFrequency[i]?
  .ok {
    externalId := externalId
    label := label
    nodeType := nodeTypeToU8 nodeType
    tags := tags
    lastModified := lastModified
    changeFrequency := FiniteF32.get changeFrequency
    provenance := graph.resolveNodeProvenance i }

-- The snapshot that both codecs write.
def graphSnapshot (graph : Graph W T) : Except SnapshotError (GraphSnapshotV4 F T) := do
  if !graph.csr.pendingEdges.isEmpty then
    .error (.CorruptState "cannot snapshot a graph with unfinalized pending edges")
  else
    let ids ← nodeToExtId graph
    let nodes ← (List.range graph.nodes.count).mapM (nodeSnapshot graph ids)
    let edges ← collectEdgeSnapshotsV4 graph ids
    .ok ⟨SNAPSHOT_VERSION, nodes, edges⟩

end Encode

end M1nd.Core
