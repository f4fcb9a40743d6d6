import M1nd.Core.Layer
import M1nd.Core.Plasticity
import M1nd.Library.Loops
import Mathlib.Data.List.Sort

namespace M1nd.Core

open M1nd.Library.Loops

structure ArchLayer (F : Type) where
  level : Nat
  name : String
  description : String
  nodes : List Nat
  nodeConfidence : List F
  avgPagerank : F
  avgOutDegree : F

inductive ViolationSeverity
  | Low
  | Medium
  | High
  | Critical
deriving DecidableEq

inductive ViolationType
  | UpwardDependency
  | SkipLayerDependency
  | CircularDependency
deriving DecidableEq

structure LayerViolation (F : Type) where
  source : Nat
  sourceLayer : Nat
  target : Nat
  targetLayer : Nat
  edgeRelation : String
  edgeWeight : F
  severity : ViolationSeverity
  violationType : ViolationType
  explanation : String

inductive UtilityClassification
  | CrossCutting
  | Bridge
  | Orphan
deriving DecidableEq

structure UtilityNode where
  node : Nat
  usedByLayers : List Nat
  classification : UtilityClassification
deriving DecidableEq

structure LayerDetectionResult (F : Type) where
  layers : List (ArchLayer F)
  violations : List (LayerViolation F)
  utilityNodes : List UtilityNode
  hasCycles : Bool
  layerSeparationScore : F
  totalNodesClassified : Nat

inductive LayerError
  | EmptyGraph
deriving DecidableEq

structure LayerDetector where
  maxLayers : UInt8
  minNodesPerLayer : Nat

class LayerF32 (F : Type) extends Float32 F where
  ofCount : Nat → F
  maxValue : F
  half : F

-- What a detection takes from elsewhere: the PageRank that the finalized graph has, the order in
-- which a hash set lists its nodes, and the name and the description a strategy gives a group of
-- nodes at a level.
structure LayerInputs (F : Type) where
  pagerank : Nat → F
  hashOrder : List Nat → List Nat
  hashOrder_perm : ∀ nodes, (hashOrder nodes).Perm nodes
  naming : List Nat → Nat → Nat → String × String

variable {W F T : Type}

section Candidates

def matchesType (graph : Graph W T) (nodeTypeFilter : List NodeType) (i : Nat) : Option Bool :=
  if nodeTypeFilter.isEmpty then some true
  else graph.nodes.nodeType[i]?.map fun nodeType => decide (nodeType ∈ nodeTypeFilter)

def matchesScope (graph : Graph W T) (scope : Option String) (i : Nat) : Option Bool :=
  match scope with
  | none => some true
  | some scopePrefix =>
      match graph.idToNode.toList.find? fun entry => entry.2 = i with
      | none => some false
      | some entry => (graph.strings.tryResolve entry.1).map fun extId => extId.startsWith scopePrefix

def layerCollectCandidates (graph : Graph W T) (scope : Option String)
    (nodeTypeFilter : List NodeType) : Option (List Nat) :=
  keepM
    (fun i => do
      if !(← matchesType graph nodeTypeFilter i) then some false
      else matchesScope graph scope i)
    (List.range graph.numNodes)

def nodeLabel (graph : Graph W T) (node : Nat) : Option String :=
  graph.nodes.label[node]?.bind graph.strings.tryResolve

-- Letters outside of ASCII have no lowercase that is a letter of the word.
def isNoTest (graph : Graph W T) (node : Nat) : Option Bool :=
  if graph.nodes.count ≤ node then some false
  else (nodeLabel graph node).map fun label => !decide ("test".toList <:+: label.toLower.toList)

def layerCandidates (graph : Graph W T) (scope : Option String) (nodeTypeFilter : List NodeType)
    (excludeTests : Bool) : Option (List Nat) := do
  let candidates ← layerCollectCandidates graph scope nodeTypeFilter
  if excludeTests then keepM (isNoTest graph) candidates else some candidates

end Candidates

section Depths

-- The nodes of the components, each with the lowest node of its own.
def sccMap (sccs : List (List Nat)) : Std.ExtTreeMap Nat Nat :=
  sccs.foldl
    (fun map scc => scc.foldl (fun map node => map.insert node (scc.min?.getD 0)) map) ∅

def effective (sccs : List (List Nat)) (node : Nat) : Nat :=
  (sccMap sccs)[node]?.getD node

def dagEdge (graph : Graph W T) (candidates : List Nat) (sccs : List (List Nat)) (node j : Nat) :
    Option (Option (Nat × Nat)) := do
  let target ← graph.csr.targets[j]?
  if target ∉ candidates then some none
  else
    some (if effective sccs node = effective sccs target then none
      else some (effective sccs node, effective sccs target))

-- The edges between the candidates, one for each slot. The loop that counts the in-degrees and
-- the one that collects the neighbors run over the same edges.
def dagEdges (graph : Graph W T) (candidates : List Nat) (sccs : List (List Nat)) :
    Option (List (Nat × Nat)) := do
  let edges ← candidates.mapM fun node =>
    (graph.csr.outRange node).mapM (dagEdge graph candidates sccs node)
  some (edges.flatten.filterMap id)

def inDegree (edges : List (Nat × Nat)) (node : Nat) : Nat :=
  (edges.map Prod.snd).count node

-- The neighbors are a set.
def dagAdj (hashOrder : List Nat → List Nat) (edges : List (Nat × Nat)) (node : Nat) : List Nat :=
  hashOrder ((edges.filter fun edge => edge.1 = node).map Prod.snd).dedup

-- If no node is without incoming edges, those with the fewest are taken.
def dagRoots (edges : List (Nat × Nat)) (dagNodes : List Nat) : List Nat :=
  let roots := dagNodes.filter fun node => inDegree edges node = 0
  if roots.isEmpty then
    let minIn := (dagNodes.map (inDegree edges)).min?.getD 0
    dagNodes.filter fun node => inDegree edges node = minIn
  else roots

-- A depth assignment under way.
structure Depths where
  queue : List Nat
  visited : List Nat
  depth : Nat → Option Nat
  inDegree : Nat → Nat

namespace Depths

def start (edges : List (Nat × Nat)) (dagNodes : List Nat) : Depths where
  queue := dagRoots edges dagNodes
  visited := []
  depth node := if node ∈ dagRoots edges dagNodes then some 0 else none
  inDegree := M1nd.Core.inDegree edges

def get (state : Depths) (node : Nat) : Nat :=
  (state.depth node).getD 0

def relax (currentDepth : Nat) (state : Depths) (next : Nat) : Depths :=
  let deg := state.inDegree next - 1
  { state with
    depth := Function.update state.depth next (some (max (state.get next) (currentDepth + 1)))
    inDegree := Function.update state.inDegree next deg
    queue := if deg = 0 then state.queue ++ [next] else state.queue }

def visit (adj : Nat → List Nat) (state : Depths) (node : Nat) : Depths :=
  (adj node).foldl (relax (state.get node)) { state with visited := node :: state.visited }

-- A node is queued for each edge at most, once more for a root.
def assign (adj : Nat → List Nat) : Nat → Depths → Option Depths
  | fuel, state =>
      match state.queue with
      | [] => some state
      | node :: queue =>
          match fuel with
          | 0 => none
          | fuel + 1 =>
              if node ∈ state.visited then assign adj fuel { state with queue := queue }
              else assign adj fuel ({ state with queue := queue }.visit adj node)

end Depths

-- The depth of each candidate, zero for those that are not reached.
def layerDepths (hashOrder : List Nat → List Nat) (edges : List (Nat × Nat))
    (candidates : List Nat) (sccs : List (List Nat)) : Option (Nat → Nat) := do
  let dagNodes := (candidates.map (effective sccs)).eraseDups
  let state ← (Depths.start edges dagNodes).assign (dagAdj hashOrder edges)
    (dagNodes.length + edges.length)
  some fun node => state.get (effective sccs node)

end Depths

section Groups

def depthGroups (candidates : List Nat) (depth : Nat → Nat) : List (List Nat) :=
  (List.range ((candidates.map depth).max?.getD 0 + 1)).map fun d =>
    candidates.filter fun node => depth node = d

-- A group is removed and its nodes go to the end of another. The place of the other group is
-- the one it has then.
def absorb (groups : List (List Nat)) (removed mergeInto : Nat) : List (List Nat) :=
  (groups.eraseIdx removed).modify mergeInto (· ++ groups.getD removed [])

variable [LayerF32 F]

def layerAvgPagerank (pagerank : Nat → F) (nodes : List Nat) : F :=
  if nodes.isEmpty then 0
  else (nodes.map pagerank).foldl (· + ·) 0 / LayerF32.ofCount nodes.length

-- The first of two neighboring groups that are as close as any.
def closestGroups (pagerank : Nat → F) (groups : List (List Nat)) : Nat :=
  ((List.range (groups.length - 1)).foldl
    (fun best i =>
      let diff := Float32.abs (layerAvgPagerank pagerank (groups.getD i []) -
        layerAvgPagerank pagerank (groups.getD (i + 1) []))
      if Float32.lt diff best.2 then (i, diff) else best)
    (0, LayerF32.maxValue)).1

-- Each round leaves one group less, so that their number is enough fuel.
def limitLayers (pagerank : Nat → F) (maxLayers : Nat) : Nat → List (List Nat) → List (List Nat)
  | 0, groups => groups
  | fuel + 1, groups =>
      if maxLayers < groups.length ∧ 1 < groups.length then
        let best := closestGroups pagerank groups
        limitLayers pagerank maxLayers fuel (absorb groups (best + 1) best)
      else groups

-- Each round leaves one group less or goes to the next one.
def pruneLayers (minNodesPerLayer : Nat) : Nat → Nat → List (List Nat) → List (List Nat)
  | 0, _, groups => groups
  | fuel + 1, i, groups =>
      if groups.length ≤ i then groups
      else if (groups.getD i []).length < minNodesPerLayer ∧ 1 < groups.length then
        pruneLayers minNodesPerLayer fuel i (absorb groups i (min (i - 1) (groups.length - 2)))
      else pruneLayers minNodesPerLayer fuel (i + 1) groups

-- There are at most 255 groups now, so that a u8 holds their levels.
def layerGroups (detector : LayerDetector) (pagerank : Nat → F) (candidates : List Nat)
    (depth : Nat → Nat) : List (List Nat) :=
  let groups := depthGroups candidates depth
  let groups := limitLayers pagerank detector.maxLayers.toNat groups.length groups
  pruneLayers detector.minNodesPerLayer groups.length 0 groups

-- Each node is in one group.
def nodeLayer (groups : List (List Nat)) (node : Nat) : Option Nat :=
  groups.findIdx? fun group => node ∈ group

end Groups

end M1nd.Core
