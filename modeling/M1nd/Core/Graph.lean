import M1nd.Library.Buckets
import Std.Data.ExtTreeMap
import Mathlib.Algebra.GroupWithZero.Nat

namespace M1nd.Core

open M1nd.Library.Buckets

-- Nodes, interned strings and slots are named by their indices.

-- An edge index is a u32, and the casts to it drop the higher bits.
def EdgeIdx.new (slot : Nat) : Nat := slot % 2 ^ 32

inductive EdgeDirection
  | Forward
  | Bidirectional
deriving DecidableEq

inductive NodeType
  | File
  | Directory
  | Function
  | Class
  | Struct
  | Enum
  | Type
  | Module
  | Reference
  | Concept
  | Material
  | Process
  | Product
  | Supplier
  | Regulatory
  | System
  | Cost
  | Custom (v : UInt8)
deriving DecidableEq

structure StringInterner where
  strings : List String
  index : Std.ExtTreeMap String Nat

namespace StringInterner

def new : StringInterner where
  strings := []
  index := ∅

def getOrIntern (interner : StringInterner) (s : String) : Nat × StringInterner :=
  match interner.index[s]? with
  | some idx => (idx, interner)
  | none =>
      (interner.strings.length, {
        strings := interner.strings ++ [s]
        index := interner.index.insert s interner.strings.length })

def tryResolve (interner : StringInterner) (idx : Nat) : Option String :=
  interner.strings[idx]?

def lookup (interner : StringInterner) (s : String) : Option Nat :=
  interner.index[s]?

-- The handles of a list of strings, interned one after the other.
def internAll (interner : StringInterner) : List String → List Nat × StringInterner
  | [] => ([], interner)
  | s :: rest =>
      let (idx, interner) := interner.getOrIntern s
      let (indices, interner) := interner.internAll rest
      (idx :: indices, interner)

end StringInterner

structure PendingEdge (W : Type) where
  source : Nat
  target : Nat
  weight : W
  inhibitory : Bool
  relation : Nat
  direction : EdgeDirection
  causalStrength : W
deriving DecidableEq

structure CsrGraph (W : Type) where
  offsets : List Nat
  targets : List Nat
  weights : List W
  inhibitory : List Bool
  relations : List Nat
  directions : List EdgeDirection
  causalStrengths : List W
  revOffsets : List Nat
  revSources : List Nat
  revEdgeIdx : List Nat
  pendingEdges : List (PendingEdge W)

namespace CsrGraph

variable {W : Type}

def empty : CsrGraph W where
  offsets := []
  targets := []
  weights := []
  inhibitory := []
  relations := []
  directions := []
  causalStrengths := []
  revOffsets := []
  revSources := []
  revEdgeIdx := []
  pendingEdges := []

def numEdges (csr : CsrGraph W) : Nat :=
  csr.offsets.getLastD 0

-- The slots of a node, none where the offsets do not reach it.
def outRange (csr : CsrGraph W) (node : Nat) : List Nat :=
  if csr.offsets.length ≤ node + 1 then []
  else
    let lo := csr.offsets.getD node 0
    List.range' lo (csr.offsets.getD (node + 1) 0 - lo)

def inRange (csr : CsrGraph W) (node : Nat) : List Nat :=
  if csr.revOffsets.length ≤ node + 1 then []
  else
    let lo := csr.revOffsets.getD node 0
    List.range' lo (csr.revOffsets.getD (node + 1) 0 - lo)

def readWeight [Zero W] (csr : CsrGraph W) (edge : Nat) : W :=
  csr.weights.getD edge 0

end CsrGraph

structure NodeProvenance where
  sourcePath : Option Nat
  lineStart : Nat
  lineEnd : Nat
  excerpt : Option Nat
  «namespace» : Option Nat
  canonical : Bool
deriving DecidableEq

def NodeProvenance.default : NodeProvenance where
  sourcePath := none
  lineStart := 0
  lineEnd := 0
  excerpt := none
  «namespace» := none
  canonical := false

structure NodeStorage (W T : Type) where
  count : Nat
  label : List Nat
  nodeType : List NodeType
  tags : List (List Nat)
  lastModified : List T
  changeFrequency : List W
  provenance : List NodeProvenance

def NodeStorage.new {W T : Type} : NodeStorage W T where
  count := 0
  label := []
  nodeType := []
  tags := []
  lastModified := []
  changeFrequency := []
  provenance := []

-- What the plasticity arrays hold about one slot.
structure SynapseRecord (W : Type) where
  originalWeight : W
  currentWeight : W
  strengthenCount : Nat
  weakenCount : Nat
  ltpApplied : Bool
  ltdApplied : Bool
  lastUsedQuery : Nat
deriving DecidableEq

def SynapseRecord.fresh {W : Type} (weight : W) : SynapseRecord W where
  originalWeight := weight
  currentWeight := weight
  strengthenCount := 0
  weakenCount := 0
  ltpApplied := false
  ltdApplied := false
  lastUsedQuery := 0

structure EdgePlasticity (W : Type) where
  originalWeight : List W
  currentWeight : List W
  strengthenCount : List Nat
  weakenCount : List Nat
  ltpApplied : List Bool
  ltdApplied : List Bool
  lastUsedQuery : List Nat

namespace EdgePlasticity

variable {W : Type}

def new : EdgePlasticity W where
  originalWeight := []
  currentWeight := []
  strengthenCount := []
  weakenCount := []
  ltpApplied := []
  ltdApplied := []
  lastUsedQuery := []

-- Every array gets its part of the record.
def push (plasticity : EdgePlasticity W) (synapse : SynapseRecord W) : EdgePlasticity W where
  originalWeight := plasticity.originalWeight ++ [synapse.originalWeight]
  currentWeight := plasticity.currentWeight ++ [synapse.currentWeight]
  strengthenCount := plasticity.strengthenCount ++ [synapse.strengthenCount]
  weakenCount := plasticity.weakenCount ++ [synapse.weakenCount]
  ltpApplied := plasticity.ltpApplied ++ [synapse.ltpApplied]
  ltdApplied := plasticity.ltdApplied ++ [synapse.ltdApplied]
  lastUsedQuery := plasticity.lastUsedQuery ++ [synapse.lastUsedQuery]

def row [Zero W] (plasticity : EdgePlasticity W) (slot : Nat) : SynapseRecord W where
  originalWeight := plasticity.originalWeight.getD slot 0
  currentWeight := plasticity.currentWeight.getD slot 0
  strengthenCount := plasticity.strengthenCount.getD slot 0
  weakenCount := plasticity.weakenCount.getD slot 0
  ltpApplied := plasticity.ltpApplied.getD slot false
  ltdApplied := plasticity.ltdApplied.getD slot false
  lastUsedQuery := plasticity.lastUsedQuery.getD slot 0

-- The tails `[from..]` of `other` go after the arrays of `plasticity`.
def extendFrom (plasticity other : EdgePlasticity W) (first : Nat) : EdgePlasticity W where
  originalWeight := plasticity.originalWeight ++ other.originalWeight.drop first
  currentWeight := plasticity.currentWeight ++ other.currentWeight.drop first
  strengthenCount := plasticity.strengthenCount ++ other.strengthenCount.drop first
  weakenCount := plasticity.weakenCount ++ other.weakenCount.drop first
  ltpApplied := plasticity.ltpApplied ++ other.ltpApplied.drop first
  ltdApplied := plasticity.ltdApplied ++ other.ltdApplied.drop first
  lastUsedQuery := plasticity.lastUsedQuery ++ other.lastUsedQuery.drop first

end EdgePlasticity

structure Graph (W T : Type) where
  nodes : NodeStorage W T
  csr : CsrGraph W
  edgePlasticity : EdgePlasticity W
  strings : StringInterner
  idToNode : Std.ExtTreeMap Nat Nat
  finalized : Bool

inductive GraphError
  | DuplicateNode (existing : Nat)
  | DanglingEdge (edge : Nat) (node : Nat)
deriving DecidableEq

-- A directed slot a pending edge asks for. The index is the place of the edge in the staging
-- area, where its plasticity lies.
structure Placement (W : Type) where
  source : Nat
  target : Nat
  index : Nat
  edge : PendingEdge W

-- A bidirectional edge gets a slot in each direction.
def PendingEdge.placements {W : Type} (edge : PendingEdge W) (index : Nat) : List (Placement W) :=
  if edge.direction = .Bidirectional then
    [⟨edge.source, edge.target, index, edge⟩, ⟨edge.target, edge.source, index, edge⟩]
  else [⟨edge.source, edge.target, index, edge⟩]

-- The slots of the edges, which are sorted by their source and keep their order otherwise.
def placements {W : Type} (edges : List (PendingEdge W)) : List (Placement W) :=
  (edges.zipIdx.mergeSort fun a b => a.1.source ≤ b.1.source).flatMap fun indexed =>
    indexed.1.placements indexed.2

-- The positions the write cursors give to entries with these keys, in an array with a part
-- for each of `n` keys.
def cursorPositions (n : Nat) (keys : List Nat) : List Nat :=
  positions ((offsets n keys).take n) keys

-- An array of a default value that gets a value at each position.
def fill {α : Type} (total : Nat) (d : α) (at_ : List Nat) (values : List α) : List α :=
  scatter (List.replicate total d) (at_.zip values)

-- Every node with each of its slots.
def edgeSlots (n : Nat) (offsets : List Nat) : List (Nat × Nat) :=
  (List.range n).flatMap fun src =>
    let lo := offsets.getD src 0
    (List.range' lo (offsets.getD (src + 1) 0 - lo)).map fun j => (src, j)

namespace Graph

variable {W T : Type}

def new : Graph W T where
  nodes := .new
  csr := .empty
  edgePlasticity := .new
  strings := .new
  idToNode := ∅
  finalized := false

def addNode (graph : Graph W T) (externalId label : String) (nodeType : NodeType)
    (tags : List String) (lastModified : T) (changeFrequency : W) :
    Except GraphError Nat × Graph W T :=
  let (extInterned, strings) := graph.strings.getOrIntern externalId
  match graph.idToNode[extInterned]? with
  | some existing => (.error (.DuplicateNode existing), { graph with strings := strings })
  | none =>
      let id := graph.nodes.count
      let (labelInterned, strings) := strings.getOrIntern label
      let (tagInterned, strings) := strings.internAll tags
      (.ok id, {
        graph with
        nodes := {
          count := graph.nodes.count + 1
          label := graph.nodes.label ++ [labelInterned]
          nodeType := graph.nodes.nodeType ++ [nodeType]
          tags := graph.nodes.tags ++ [tagInterned]
          lastModified := graph.nodes.lastModified ++ [lastModified]
          changeFrequency := graph.nodes.changeFrequency ++ [changeFrequency]
          provenance := graph.nodes.provenance ++ [.default] }
        strings := strings
        idToNode := graph.idToNode.insert extInterned id
        finalized := false })

def addEdge (graph : Graph W T) (source target : Nat) (relation : String) (weight : W)
    (direction : EdgeDirection) (inhibitory : Bool) (causalStrength : W) :
    Except GraphError Nat × Graph W T :=
  let edgeIdx := EdgeIdx.new graph.edgePlasticity.originalWeight.length
  if graph.nodes.count ≤ source then (.error (.DanglingEdge edgeIdx source), graph)
  else if graph.nodes.count ≤ target then (.error (.DanglingEdge edgeIdx target), graph)
  else
    let (relInterned, strings) := graph.strings.getOrIntern relation
    (.ok edgeIdx, {
      graph with
      strings := strings
      edgePlasticity := graph.edgePlasticity.push (.fresh weight)
      csr := {
        graph.csr with
        pendingEdges := graph.csr.pendingEdges ++
          [⟨source, target, weight, inhibitory, relInterned, direction, causalStrength⟩] }
      finalized := false })

variable [Zero W]

-- The slots a re-finalize stages again. Of a bidirectional edge only the canonical slot is,
-- the rebuild makes the other one anew.
def harvestedSlots (csr : CsrGraph W) : List (Nat × Nat) :=
  (edgeSlots (csr.offsets.length - 1) csr.offsets).filter fun (src, j) =>
    ¬ (csr.directions.getD j .Forward = .Bidirectional ∧ csr.targets.getD j 0 < src)

def harvestedEdge (csr : CsrGraph W) (src : Nat) (j : Nat) : PendingEdge W where
  source := src
  target := csr.targets.getD j 0
  weight := csr.readWeight (EdgeIdx.new j)
  inhibitory := csr.inhibitory.getD j false
  relation := csr.relations.getD j 0
  direction := csr.directions.getD j .Forward
  causalStrength := csr.causalStrengths.getD j 0

def rehydrateCsrIntoPending (graph : Graph W T) : Graph W T :=
  let harvested := harvestedSlots graph.csr
  let harvestedPlasticity := harvested.foldl
    (fun plasticity slot => plasticity.push (graph.edgePlasticity.row slot.2)) EdgePlasticity.new
  { graph with
    csr := {
      graph.csr with
      pendingEdges := (harvested.map fun (src, j) => harvestedEdge graph.csr src j) ++
        graph.csr.pendingEdges }
    edgePlasticity :=
      harvestedPlasticity.extendFrom graph.edgePlasticity graph.csr.numEdges }

-- The forward arrays, the plasticity arrays and the reverse arrays of the staged edges.
def rebuildCsr (graph : Graph W T) : Graph W T :=
  let n := graph.nodes.count
  let slots := placements graph.csr.pendingEdges
  let keys := slots.map Placement.source
  let offsets := offsets n keys
  let total := offsets.getLastD 0
  let at_ := cursorPositions n keys
  let targets := fill total 0 at_ (slots.map Placement.target)
  let old := graph.edgePlasticity
  let reverse := (edgeSlots n offsets).map fun (src, j) => (targets.getD j 0, src, j)
  let revKeys := reverse.map Prod.fst
  let revOffsets := Library.Buckets.offsets n revKeys
  let revTotal := revOffsets.getLastD 0
  let revAt := cursorPositions n revKeys
  { graph with
    csr := {
      offsets := offsets
      targets := targets
      weights := fill total 0 at_ (slots.map fun slot => slot.edge.weight)
      inhibitory := fill total false at_ (slots.map fun slot => slot.edge.inhibitory)
      relations := fill total 0 at_ (slots.map fun slot => slot.edge.relation)
      directions := fill total .Forward at_ (slots.map fun slot => slot.edge.direction)
      causalStrengths := fill total 0 at_ (slots.map fun slot => slot.edge.causalStrength)
      revOffsets := revOffsets
      revSources := fill revTotal 0 revAt (reverse.map fun entry => entry.2.1)
      revEdgeIdx := fill revTotal 0 revAt (reverse.map fun entry => EdgeIdx.new entry.2.2)
      pendingEdges := [] }
    edgePlasticity := {
      originalWeight := fill total 0 at_ (slots.map fun slot => (old.row slot.index).originalWeight)
      currentWeight := fill total 0 at_ (slots.map fun slot => (old.row slot.index).currentWeight)
      strengthenCount := fill total 0 at_ (slots.map fun slot => (old.row slot.index).strengthenCount)
      weakenCount := fill total 0 at_ (slots.map fun slot => (old.row slot.index).weakenCount)
      ltpApplied := fill total false at_ (slots.map fun slot => (old.row slot.index).ltpApplied)
      ltdApplied := fill total false at_ (slots.map fun slot => (old.row slot.index).ltdApplied)
      lastUsedQuery := fill total 0 at_ (slots.map fun slot => (old.row slot.index).lastUsedQuery) }
    finalized := true }

def finalize (graph : Graph W T) : Graph W T :=
  if graph.finalized then graph
  else if 0 < graph.csr.numEdges then graph.rehydrateCsrIntoPending.rebuildCsr
  else graph.rebuildCsr

def numNodes (graph : Graph W T) : Nat :=
  graph.nodes.count

end Graph

end M1nd.Core
