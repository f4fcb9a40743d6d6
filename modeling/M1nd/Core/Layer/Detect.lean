import M1nd.Core.Layer.Grouping

namespace M1nd.Core

open M1nd.Library.Loops

variable {W F T : Type}

section Utilities

-- What the groups and the components of a detection say about the nodes.
structure Layering where
  candidates : List Nat
  sccs : List (List Nat)
  groups : List (List Nat)

namespace Layering

def nodeLayer (layering : Layering) (node : Nat) : Option Nat :=
  M1nd.Core.nodeLayer layering.groups node

-- The layer that an incoming edge of a node comes from, unless it is the node's own.
def referencingLayer (graph : Graph W T) (layering : Layering) (node j : Nat) :
    Option (Option Nat) := do
  let source ← graph.csr.revSources[j]?
  let map := sccMap layering.sccs
  some (
    if source ∈ layering.candidates ∧ map[source]? = none ∨ map[source]? ≠ map[node]? then
      (layering.nodeLayer source).filter fun layer =>
        layer ≠ (layering.nodeLayer node).getD 255
    else none)

def usedByLayers (graph : Graph W T) (layering : Layering) (node : Nat) : Option (List Nat) := do
  let layers ← (graph.csr.inRange node).mapM (referencingLayer graph layering node)
  some ((layers.filterMap id).dedup.insertionSort (· ≤ ·))

-- Half of the layers, rounded up.
def utilityThreshold (layering : Layering) : Nat :=
  (layering.groups.length + 1) / 2

def isBridge (usedBy : List Nat) : Bool :=
  usedBy.any fun a => usedBy.any fun b => 1 < b - a

def classify (layering : Layering) (usedBy : List Nat) : Option UtilityClassification :=
  if layering.utilityThreshold ≤ usedBy.length ∧ 0 < layering.utilityThreshold then
    some .CrossCutting
  else if 2 ≤ usedBy.length ∧ isBridge usedBy then some .Bridge
  else none

def utilityOf (graph : Graph W T) (layering : Layering) (node : Nat) :
    Option (Option UtilityNode) := do
  let usedBy ← usedByLayers graph layering node
  some ((layering.classify usedBy).map fun classification => ⟨node, usedBy, classification⟩)

-- Bridges are not removed from the layers, only cross-cutting nodes are.
def crossCutting (utilities : List UtilityNode) : List Nat :=
  (utilities.filter fun utility => utility.classification = .CrossCutting).map UtilityNode.node

def isOrphan (graph : Graph W T) (layering : Layering) (node : Nat) : Option Bool := do
  let sources ← (graph.csr.inRange node).mapM fun j => graph.csr.revSources[j]?
  let targets ← (graph.csr.outRange node).mapM fun j => graph.csr.targets[j]?
  let linked (other : Nat) : Bool := other ∈ layering.candidates ∧ other ≠ node
  some (!sources.any linked && !targets.any linked)

-- The cross-cutting nodes and the bridges, and then the orphans.
def detectUtilities (graph : Graph W T) (layering : Layering) : Option (List UtilityNode) := do
  let utilities ← layering.candidates.mapM (utilityOf graph layering)
  let utilities := utilities.filterMap id
  let orphans ← keepM (isOrphan graph layering)
    (layering.candidates.filter fun node => node ∉ crossCutting utilities)
  some (utilities ++ orphans.map fun node => ⟨node, [], .Orphan⟩)

end Layering

-- The utility nodes that are removed from the layers.
def utilitySet (utilities : List UtilityNode) : List Nat :=
  (utilities.filter fun utility => utility.classification ≠ .Bridge).map UtilityNode.node

end Utilities

section Layers

variable [LayerF32 F]

def layerAvgOutDegree (graph : Graph W T) (nodes : List Nat) : F :=
  if nodes.isEmpty then 0
  else
    (nodes.map fun node => LayerF32.ofCount (graph.csr.outRange node).length).foldl (· + ·) 0 /
      LayerF32.ofCount nodes.length

-- Edges that go down or stay in the layer are consistent.
def layerNodeConfidence (graph : Graph W T) (layering : Layering) (node : Nat) : Option F :=
  match layering.nodeLayer node with
  | none => some LayerF32.half
  | some myLayer => do
      let targets ← (graph.csr.outRange node).mapM fun j => graph.csr.targets[j]?
      let sources ← (graph.csr.inRange node).mapM fun j => graph.csr.revSources[j]?
      let layersOf (others : List Nat) : List Nat :=
        (others.filter (· ∈ layering.candidates)).filterMap layering.nodeLayer
      let totalEdges := (layersOf targets).length + (layersOf sources).length
      let consistentEdges := (layersOf targets).countP (myLayer ≤ ·) +
        (layersOf sources).countP (· ≤ myLayer)
      some (if totalEdges = 0 then LayerF32.half
        else LayerF32.ofCount consistentEdges / LayerF32.ofCount totalEdges)

def archLayer (graph : Graph W T) (inputs : LayerInputs F) (layering : Layering)
    (group : List Nat × Nat) : Option (ArchLayer F) := do
  let confidences ← group.1.mapM (layerNodeConfidence graph layering)
  let (name, description) := inputs.naming group.1 group.2 layering.groups.length
  some {
    level := group.2
    name := name
    description := description
    nodes := group.1
    nodeConfidence := confidences
    avgPagerank := layerAvgPagerank inputs.pagerank group.1
    avgOutDegree := layerAvgOutDegree graph group.1 }

-- The groups without their utility nodes. Empty ones are left out, and the others numbered anew.
def buildLayers (graph : Graph W T) (inputs : LayerInputs F) (layering : Layering)
    (utilities : List UtilityNode) : Option (List (ArchLayer F)) := do
  let groups := layering.groups.map fun group =>
    group.filter fun node => node ∉ utilitySet utilities
  let layers ← (groups.zipIdx.filter fun group => !group.1.isEmpty).mapM
    (archLayer graph inputs layering)
  some (layers.zipIdx.map fun layer => { layer.1 with level := layer.2 })

def finalLayer (layers : List (ArchLayer F)) (node : Nat) : Option Nat :=
  (layers.find? fun layer => node ∈ layer.nodes).map ArchLayer.level

def layerNameForLevel (level : Nat) (layers : List (ArchLayer F)) : String :=
  ((layers.find? fun layer => layer.level = level).map ArchLayer.name).getD s!"layer_{level}"

end Layers

section Violations

variable [LayerF32 F]

def layerViolationSeverity (relation : String) (gap : Nat) (weight : F) : ViolationSeverity :=
  let baseSeverity :=
    if relation = "imports" then 3
    else if relation = "calls" then 2
    else if relation = "inherits" then 2
    else if relation = "registers" then 1
    else if relation = "references" then 1
    else if relation = "configures" then 1
    else 2
  let gapFactor := if 1 < gap then 1 else 0
  let weightFactor := if Float32.lt LayerF32.half weight then 1 else 0
  match baseSeverity + gapFactor + weightFactor with
  | 0 => .Low
  | 1 => .Low
  | 2 => .Medium
  | _ => .High

def relationName (graph : Graph W T) (j : Nat) : Option String :=
  graph.csr.relations[j]?.bind graph.strings.tryResolve

-- The first slot that leads to the other node with a relation of dependency.
def firstCycleSlot (graph : Graph W T) (other : Nat) : List Nat → Option (Option (Nat × String))
  | [] => some none
  | j :: slots => do
      let target ← graph.csr.targets[j]?
      if target ≠ other then firstCycleSlot graph other slots
      else do
        let relation ← relationName graph j
        if layerCycleRelationCandidate relation then some (some (j, relation))
        else firstCycleSlot graph other slots

variable [FiniteF32 W F]

def circularViolation (graph : Graph W T) (layers : List (ArchLayer F)) (pair : Nat × Nat) :
    Option (Option (LayerViolation F)) := do
  let sourceLayer := (finalLayer layers pair.1).getD 0
  match ← firstCycleSlot graph pair.2 (graph.csr.outRange pair.1) with
  | none => some none
  | some (j, relation) => do
      let weight ← graph.csr.weights[EdgeIdx.new j]?
      let srcLabel ← nodeLabel graph pair.1
      let tgtLabel ← nodeLabel graph pair.2
      some (some {
        source := pair.1
        sourceLayer := sourceLayer
        target := pair.2
        targetLayer := sourceLayer
        edgeRelation := relation
        edgeWeight := FiniteF32.get weight
        severity := .Critical
        violationType := .CircularDependency
        explanation :=
          s!"Circular dependency: {srcLabel} and {tgtLabel} form a dependency cycle" })

def circularViolations (graph : Graph W T) (layers : List (ArchLayer F))
    (sccs : List (List Nat)) : Option (List (LayerViolation F)) := do
  let pairs := sccs.flatMap fun scc =>
    (scc.flatMap fun node => scc.map fun other => (node, other)).filter fun pair =>
      pair.1 ≠ pair.2
  let violations ← pairs.mapM (circularViolation graph layers)
  some (violations.filterMap id)

-- An edge between two nodes that have a layer.
structure LayeredEdge where
  source : Nat
  sourceLayer : Nat
  target : Nat
  targetLayer : Nat
  slot : Nat
  relation : String

def layeredEdge (graph : Graph W T) (layers : List (ArchLayer F)) (candidates removed : List Nat)
    (source sourceLayer j : Nat) : Option (Option LayeredEdge) := do
  let relation ← relationName graph j
  if !layerCycleRelationCandidate relation then some none
  else do
    let target ← graph.csr.targets[j]?
    if target ∈ removed then some none
    else if target ∉ candidates then some none
    else
      some ((finalLayer layers target).map fun targetLayer =>
        ⟨source, sourceLayer, target, targetLayer, j, relation⟩)

def layeredEdgesOf (graph : Graph W T) (layers : List (ArchLayer F))
    (candidates removed : List Nat) (node : Nat) : Option (List LayeredEdge) :=
  if node ∈ removed then some []
  else
    match finalLayer layers node with
    | none => some []
    | some layer => do
        let edges ← (graph.csr.outRange node).mapM
          (layeredEdge graph layers candidates removed node layer)
        some (edges.filterMap id)

def upwardViolation (graph : Graph W T) (layers : List (ArchLayer F)) (edge : LayeredEdge) :
    Option (LayerViolation F) := do
  let weight ← graph.csr.weights[EdgeIdx.new edge.slot]?
  let gap := edge.sourceLayer - edge.targetLayer
  let srcName := layerNameForLevel edge.sourceLayer layers
  let tgtName := layerNameForLevel edge.targetLayer layers
  let srcLabel ← nodeLabel graph edge.source
  let tgtLabel ← nodeLabel graph edge.target
  some {
    source := edge.source
    sourceLayer := edge.sourceLayer
    target := edge.target
    targetLayer := edge.targetLayer
    edgeRelation := edge.relation
    edgeWeight := FiniteF32.get weight
    severity := layerViolationSeverity edge.relation gap (FiniteF32.get weight : F)
    violationType := if 1 < gap then .SkipLayerDependency else .UpwardDependency
    explanation := s!"{srcLabel} (layer {edge.sourceLayer}: {srcName}) depends on " ++
      s!"{tgtLabel} (layer {edge.targetLayer}: {tgtName})" }

-- An upward edge counts with its gap, and a node of a component against all candidates.
def layerSeparationScore (candidates : List Nat) (sccs : List (List Nat))
    (edges : List LayeredEdge) : F :=
  let crossLayerEdges := edges.countP fun edge => edge.sourceLayer ≠ edge.targetLayer
  let upward := edges.filter fun edge => edge.targetLayer < edge.sourceLayer
  let violationEdges : F := upward.foldl
    (fun sum edge => sum + LayerF32.ofCount (edge.sourceLayer - edge.targetLayer)) 0
  let cyclePenalty : F := (sccs.map fun scc => LayerF32.ofCount scc.length).foldl (· + ·) 0 /
    LayerF32.ofCount (max candidates.length 1)
  if crossLayerEdges = 0 ∧ sccs = [] then 1
  else if crossLayerEdges = 0 then max (1 - cyclePenalty) 0
  else
    min (max (1 - violationEdges / LayerF32.ofCount crossLayerEdges - cyclePenalty) 0) 1

end Violations

namespace LayerDetector

variable [LayerF32 F] [FiniteF32 W F]

def detectCandidates (detector : LayerDetector) (graph : Graph W T) (inputs : LayerInputs F)
    (candidates : List Nat) : Option (LayerDetectionResult F) := do
  let sccs ← graph.tarjanScc candidates
  let edges ← dagEdges graph candidates sccs
  let depth ← layerDepths inputs.hashOrder edges candidates sccs
  let layering : Layering :=
    ⟨candidates, sccs, layerGroups detector inputs.pagerank candidates depth⟩
  let utilities ← layering.detectUtilities graph
  let layers ← buildLayers graph inputs layering utilities
  let circular ← circularViolations graph layers sccs
  let layered ← candidates.mapM (layeredEdgesOf graph layers candidates (utilitySet utilities))
  let layered := layered.flatten
  let upward ← (layered.filter fun edge => edge.targetLayer < edge.sourceLayer).mapM
    (upwardViolation graph layers)
  some {
    layers := layers
    violations := circular ++ upward
    utilityNodes := utilities
    hasCycles := !sccs.isEmpty
    layerSeparationScore := layerSeparationScore candidates sccs layered
    totalNodesClassified := (layers.map fun layer => layer.nodes.length).sum }

-- Nothing is returned where an index is read behind the end of an array.
def detect (detector : LayerDetector) (graph : Graph W T) (inputs : LayerInputs F)
    (scope : Option String) (nodeTypeFilter : List NodeType) (excludeTests : Bool) :
    Option (Except LayerError (LayerDetectionResult F)) := do
  if graph.numNodes = 0 then some (.error .EmptyGraph)
  else do
    let candidates ← layerCandidates graph scope nodeTypeFilter excludeTests
    if candidates.isEmpty then some (.error .EmptyGraph)
    else (detector.detectCandidates graph inputs candidates).map .ok

end LayerDetector

end M1nd.Core
