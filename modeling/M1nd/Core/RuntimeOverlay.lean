import M1nd.Core.Plasticity
import M1nd.Library.Loops
import M1nd.Library.Counters
import Mathlib.Data.List.Dedup

namespace M1nd.Core

open M1nd.Library.Loops
open M1nd.Library.Overflow

-- What the overlay needs of f32 and of f64 beyond their arithmetic. The average is one of two
-- 64-bit counts.
class OverlayF32 (F : Type) (D : outParam Type) extends Float32 F where
  ofCount : BitVec 64 → F
  ln1p : F → F
  seconds : BitVec 64 → F
  minHeat : F
  average : BitVec 64 → BitVec 64 → D
  noAverage : D

inductive MappingStrategy
  | LabelMatch
  | CodeAttribute
  | ExactId
deriving DecidableEq

structure OverlayConfig (F : Type) where
  mappingStrategy : MappingStrategy
  decayFactor : F
  maxHeat : F
  minDurationUs : BitVec 64

structure OtelSpan where
  name : String
  durationUs : BitVec 64
  count : BitVec 64
  isError : Bool
  attributes : Std.ExtTreeMap String String

structure OtelBatch where
  spans : List OtelSpan

structure NodeHeat (F D : Type) where
  nodeId : String
  label : String
  heat : F
  invocationCount : BitVec 64
  errorCount : BitVec 64
  avgDurationUs : D
  maxDurationUs : BitVec 64

structure OverlayResult (F D : Type) where
  spansProcessed : Nat
  spansMapped : Nat
  spansUnmapped : Nat
  hotNodes : List (NodeHeat F D)
  boostsApplied : Nat

structure NodeRuntimeData (F : Type) where
  heat : F
  invocations : BitVec 64
  errors : BitVec 64
  totalDurationUs : BitVec 64
  maxDurationUs : BitVec 64

def NodeRuntimeData.default {F : Type} [Zero F] : NodeRuntimeData F where
  heat := 0
  invocations := 0
  errors := 0
  totalDurationUs := 0
  maxDurationUs := 0

structure RuntimeOverlay (F : Type) where
  nodeData : Std.ExtTreeMap Nat (NodeRuntimeData F)
  config : OverlayConfig F
  batchesIngested : BitVec 32

inductive OverlayError
  | EmptyGraph
deriving DecidableEq

-- What an ingestion takes from elsewhere: the lowercase of a text, and the orders in which hash
-- maps list their keys.
structure OverlayInputs where
  toLowercase : String → String
  labelOrder : List String → List String
  labelOrder_perm : ∀ labels, (labelOrder labels).Perm labels
  nodeOrder : List Nat → List Nat
  nodeOrder_perm : ∀ nodes, (nodeOrder nodes).Perm nodes

variable {W F D T : Type}

section Mapping

def nodeToLabel (graph : Graph W T) (idx : Nat) : Option String :=
  graph.nodes.label[idx]?.bind graph.strings.tryResolve

def overlayLabels (inputs : OverlayInputs) (graph : Graph W T) : Option (List String) :=
  (List.range graph.numNodes).mapM fun i =>
    (nodeToLabel graph i).map inputs.toLowercase

-- The nodes of a label.
def labelToIdx (labels : List String) (label : String) : List Nat :=
  (List.range labels.length).filter fun i => labels[i]? = some label

def insertExtId (graph : Graph W T) (map : Std.ExtTreeMap String Nat) (entry : Nat × Nat) :
    Option (Std.ExtTreeMap String Nat) :=
  if entry.2 < graph.numNodes then
    (graph.strings.tryResolve entry.1).map fun extId => map.insert extId entry.2
  else some map

def extToIdx (graph : Graph W T) : Option (Std.ExtTreeMap String Nat) :=
  graph.idToNode.toList.foldlM (insertExtId graph) ∅

def MIN_LEN : Nat := 4

-- A label in the name or the name in the label, where neither is short, nor less than half as
-- long as the other.
def substringMatch (nameLower label : String) : Bool :=
  let shorter := min label.utf8ByteSize nameLower.utf8ByteSize
  let longer := max label.utf8ByteSize nameLower.utf8ByteSize
  decide (MIN_LEN ≤ label.utf8ByteSize) && decide (longer ≤ shorter * 2) &&
    (decide (nameLower.toList <:+: label.toList) || decide (label.toList <:+: nameLower.toList))

def labelMatches (inputs : OverlayInputs) (labels : List String) (name : String) : List Nat :=
  let nameLower := inputs.toLowercase name
  if nameLower ∈ labels then labelToIdx labels nameLower
  else if MIN_LEN ≤ nameLower.utf8ByteSize then
    ((inputs.labelOrder labels.dedup).filter (substringMatch nameLower)).flatMap (labelToIdx labels)
  else []

def matchedIndices (inputs : OverlayInputs) (strategy : MappingStrategy) (labels : List String)
    (extIds : Std.ExtTreeMap String Nat) (span : OtelSpan) : List Nat :=
  match strategy with
  | .LabelMatch => labelMatches inputs labels span.name
  | .CodeAttribute =>
      match span.attributes["code.function"]? with
      | some funcName => labelToIdx labels (inputs.toLowercase funcName)
      | none => []
  | .ExactId => extIds[span.name]?.toList

end Mapping

section Ingestion

variable [OverlayF32 F D]

def heatIncrement (span : OtelSpan) : F :=
  OverlayF32.ln1p (OverlayF32.ofCount span.count) * (1 + OverlayF32.seconds span.durationUs)

def recordErrors (mode : OverflowMode) (span : OtelSpan) (errors : BitVec 64) :
    Option (BitVec 64) :=
  if span.isError then mode.add errors span.count else some errors

-- The additions and the product are those of u64.
def NodeRuntimeData.record (mode : OverflowMode) (config : OverlayConfig F) (span : OtelSpan)
    (data : NodeRuntimeData F) : Option (NodeRuntimeData F) := do
  let invocations ← mode.add data.invocations span.count
  let duration ← mode.mul span.durationUs span.count
  let totalDurationUs ← mode.add data.totalDurationUs duration
  let errors ← recordErrors mode span data.errors
  some {
    heat := min (data.heat + heatIncrement span) config.maxHeat
    invocations := invocations
    errors := errors
    totalDurationUs := totalDurationUs
    maxDurationUs :=
      if data.maxDurationUs < span.durationUs then span.durationUs else data.maxDurationUs }

namespace RuntimeOverlay

def new (config : OverlayConfig F) : RuntimeOverlay F where
  nodeData := ∅
  config := config
  batchesIngested := 0

def dataOf (nodeData : Std.ExtTreeMap Nat (NodeRuntimeData F)) (idx : Nat) : NodeRuntimeData F :=
  nodeData[idx]?.getD .default

def touch (mode : OverflowMode) (config : OverlayConfig F) (span : OtelSpan)
    (nodeData : Std.ExtTreeMap Nat (NodeRuntimeData F)) (idx : Nat) :
    Option (Std.ExtTreeMap Nat (NodeRuntimeData F)) := do
  let data ← (dataOf nodeData idx).record mode config span
  some (nodeData.insert idx data)

-- An ingestion under way.
structure Ingest (F : Type) where
  nodeData : Std.ExtTreeMap Nat (NodeRuntimeData F)
  spansMapped : Nat
  spansUnmapped : Nat

def ingestSpan (mode : OverflowMode) (config : OverlayConfig F)
    (matched : OtelSpan → List Nat) (ingest : Ingest F) (span : OtelSpan) : Option (Ingest F) :=
  if span.durationUs < config.minDurationUs then some ingest
  else if (matched span).isEmpty then
    some { ingest with spansUnmapped := ingest.spansUnmapped + 1 }
  else do
    let nodeData ← (matched span).foldlM (touch mode config span) ingest.nodeData
    some { ingest with nodeData := nodeData, spansMapped := ingest.spansMapped + 1 }

def decay (overlay : RuntimeOverlay F) : Std.ExtTreeMap Nat (NodeRuntimeData F) :=
  if 0 < overlay.batchesIngested then
    overlay.nodeData.map fun _ data => { data with heat := data.heat * overlay.config.decayFactor }
  else overlay.nodeData

def nodeToExt (graph : Graph W T) (idx : Nat) : Option String :=
  match graph.idToNode.toList.find? fun entry => entry.2 = idx with
  | none => some ""
  | some entry => graph.strings.tryResolve entry.1

-- A node of an earlier graph has no texts.
def textOf (graph : Graph W T) (text : Nat → Option String) (idx : Nat) : Option String :=
  if idx < graph.numNodes then text idx else some ""

def nodeHeat (graph : Graph W T) (entry : Nat × NodeRuntimeData F) : Option (NodeHeat F D) := do
  let nodeId ← textOf graph (nodeToExt graph) entry.1
  let label ← textOf graph (nodeToLabel graph) entry.1
  some {
    nodeId := nodeId
    label := label
    heat := entry.2.heat
    invocationCount := entry.2.invocations
    errorCount := entry.2.errors
    avgDurationUs :=
      if 0 < entry.2.invocations then
        OverlayF32.average F entry.2.totalDurationUs entry.2.invocations
      else OverlayF32.noAverage F
    maxDurationUs := entry.2.maxDurationUs }

-- Heats that cannot be compared count as equal.
def hotNodes (inputs : OverlayInputs) (graph : Graph W T)
    (nodeData : Std.ExtTreeMap Nat (NodeRuntimeData F)) : Option (List (NodeHeat F D)) := do
  let entries := (inputs.nodeOrder nodeData.keys).map fun idx => (idx, dataOf nodeData idx)
  let heats ← (entries.filter fun entry =>
    Float32.lt (OverlayF32.minHeat) entry.2.heat).mapM (nodeHeat graph)
  some ((heats.mergeSort fun a b => !Float32.lt a.heat b.heat).take 100)

-- Nothing is returned where an index is read behind the end of an array, or where a checked
-- addition overflows.
def ingest (mode : OverflowMode) (inputs : OverlayInputs) (overlay : RuntimeOverlay F)
    (graph : Graph W T) (batch : OtelBatch) :
    Option (Except OverlayError (OverlayResult F D × RuntimeOverlay F)) := do
  if graph.numNodes = 0 then some (.error .EmptyGraph)
  else do
    let extIds ← extToIdx graph
    let labels ← overlayLabels inputs graph
    let matched := matchedIndices inputs overlay.config.mappingStrategy labels extIds
    let ingested ← batch.spans.foldlM (ingestSpan mode overlay.config matched)
      ⟨overlay.decay, 0, 0⟩
    let batchesIngested ← mode.add overlay.batchesIngested 1
    let hotNodes ← hotNodes inputs graph ingested.nodeData
    some (.ok ({
      spansProcessed := batch.spans.length
      spansMapped := ingested.spansMapped
      spansUnmapped := ingested.spansUnmapped
      hotNodes := hotNodes
      boostsApplied := ingested.spansMapped }, {
      nodeData := ingested.nodeData
      config := overlay.config
      batchesIngested := batchesIngested }))

end RuntimeOverlay

end Ingestion

end M1nd.Core
