import M1nd.Core.Layer.Grouping
import Mathlib.Algebra.Order.Ring.Rat

namespace M1nd.Core

open M1nd.Library.Loops

def MAX_MATCHES_PER_ANTIBODY : Nat := 100

-- The lowercase of a text, of which ASCII is all that is known.
class Lowercase where
  toLowercase : String → String
  ascii : ∀ s : String, (∀ c ∈ s.toList, c.toNat < 128) → toLowercase s = s.toLower

-- The lowercase that changes ASCII only.
abbrev asciiLowercase : Lowercase where
  toLowercase s := String.ofList (s.toList.map Char.toLower)
  ascii s _ := by
    change _ = s.map Char.toLower
    apply String.toList_injective
    simp

inductive AntibodySeverity
  | Info
  | Warning
  | Critical

structure PatternNode where
  role : String
  nodeType : Option String
  requiredTags : List String
  labelContains : Option String

structure PatternEdge where
  sourceIdx : Nat
  targetIdx : Nat
  relation : Option String

structure AntibodyPattern where
  nodes : List PatternNode
  edges : List PatternEdge
  negativeEdges : List PatternEdge

structure Antibody where
  id : String
  name : String
  description : String
  pattern : AntibodyPattern
  severity : AntibodySeverity
  matchCount : Nat
  createdAt : Rat
  lastMatchAt : Option Rat
  createdBy : String
  sourceQuery : String
  sourceNodes : List String
  enabled : Bool
  specificity : Rat

structure BoundNode where
  nodeId : String
  label : String
  role : String
  sourcePath : Option String
  lineStart : Option Nat
  lineEnd : Option Nat

structure AntibodyMatch where
  antibodyId : String
  antibodyName : String
  severity : AntibodySeverity
  boundNodes : List BoundNode
  confidence : Rat
  location : Option String

section Texts

def eqIgnoreAsciiCase (s t : String) : Bool :=
  s.toList.map Char.toLower = t.toList.map Char.toLower

variable [Lowercase]

-- One text in another, whatever their case.
def containsLowercase (label substring : String) : Bool :=
  (Lowercase.toLowercase substring).toList <:+: (Lowercase.toLowercase label).toList

def abStrToNodeType (s : String) : Option NodeType :=
  match Lowercase.toLowercase s with
  | "file" => some .File
  | "directory" | "dir" => some .Directory
  | "function" | "func" => some .Function
  | "class" => some .Class
  | "struct" => some .Struct
  | "enum" => some .Enum
  | "type" => some .Type
  | "module" => some .Module
  | "reference" | "ref" => some .Reference
  | "concept" => some .Concept
  | "material" => some .Material
  | "process" => some .Process
  | "product" => some .Product
  | "supplier" => some .Supplier
  | "regulatory" => some .Regulatory
  | "system" => some .System
  | "cost" => some .Cost
  | _ => none

end Texts

def abNodeConstraintCount (node : PatternNode) : Nat :=
  node.nodeType.isSome.toNat + (!node.requiredTags.isEmpty).toNat + node.labelContains.isSome.toNat

variable {W T : Type}

section Constraints

variable [Lowercase]

-- The second check is made where the first one holds.
def both (first second : Option Bool) : Option Bool :=
  first.bind fun holds => if holds then second else some false

def abMatchesType (graph : Graph W T) (idx : Nat) (patternNode : PatternNode) : Option Bool :=
  match patternNode.nodeType.bind abStrToNodeType with
  | some expectedType => graph.nodes.nodeType[idx]?.map fun nodeType => nodeType = expectedType
  | none => some true

def abMatchesLabel (graph : Graph W T) (idx : Nat) (patternNode : PatternNode)
    (matchMode : String) : Option Bool :=
  match patternNode.labelContains with
  | some substring => (nodeLabel graph idx).map fun label =>
      if matchMode = "exact" then eqIgnoreAsciiCase label substring
      else containsLowercase label substring
  | none => some true

def abHasTag (graph : Graph W T) (nodeTags : List Nat) (requiredTag : String) : Option Bool :=
  nodeTags.anyM fun handle =>
    (graph.strings.tryResolve handle).map fun tag => eqIgnoreAsciiCase tag requiredTag

def abMatchesTags (graph : Graph W T) (idx : Nat) (patternNode : PatternNode) : Option Bool :=
  if patternNode.requiredTags = [] then some true
  else graph.nodes.tags[idx]?.bind fun nodeTags =>
    patternNode.requiredTags.allM (abHasTag graph nodeTags)

def abMatchesNodeConstraintsMode (graph : Graph W T) (idx : Nat) (patternNode : PatternNode)
    (matchMode : String) : Option Bool :=
  if graph.nodes.count ≤ idx then some false
  else both (abMatchesType graph idx patternNode)
    (both (abMatchesLabel graph idx patternNode matchMode) (abMatchesTags graph idx patternNode))

-- The source has the checks of the mode "substring" a second time.
def abMatchesNodeConstraints (graph : Graph W T) (idx : Nat) (patternNode : PatternNode) :
    Option Bool :=
  abMatchesNodeConstraintsMode graph idx patternNode "substring"

end Constraints

section Edges

def abSlotMatches (graph : Graph W T) (target : Nat) (relation : Option String) (slot : Nat) :
    Option Bool := do
  let found ← graph.csr.targets[slot]?
  if found = target then
    match relation with
    | some rel => do
        let handle ← graph.csr.relations[slot]?
        let edgeRel ← graph.strings.tryResolve handle
        some (eqIgnoreAsciiCase edgeRel rel)
    | none => some true
  else some false

def abEdgeExists (graph : Graph W T) (source target : Nat) (relation : Option String) :
    Option Bool :=
  if graph.finalized then
    (graph.csr.outRange source).anyM (abSlotMatches graph target relation)
  else some false

def abAnyEdgeExists (graph : Graph W T) (source target : Nat) : Option Bool :=
  abEdgeExists graph source target none

def abOutgoingNeighbors (graph : Graph W T) (node : Nat) : Option (List Nat) :=
  if graph.finalized then (graph.csr.outRange node).mapM fun slot => graph.csr.targets[slot]?
  else some []

def abIncomingNeighbors (graph : Graph W T) (node : Nat) : Option (List Nat) :=
  if graph.finalized then (graph.csr.inRange node).mapM fun slot => graph.csr.revSources[slot]?
  else some []

-- The neighbors of the node at the other end of an edge, when it is bound.
def abNeighborsFrom (binding : List (Option Nat)) (neighbors : Nat → Option (List Nat))
    (here there targetIdx : Nat) : Option (List Nat) :=
  if here = targetIdx then
    binding[there]?.bind fun bound =>
      match bound with
      | some node => neighbors node
      | none => some []
  else some []

def abEdgeCandidates (graph : Graph W T) (binding : List (Option Nat)) (targetIdx : Nat)
    (edge : PatternEdge) : Option (List Nat) := do
  let outgoing ← abNeighborsFrom binding (abOutgoingNeighbors graph) edge.targetIdx edge.sourceIdx
    targetIdx
  let incoming ← abNeighborsFrom binding (abIncomingNeighbors graph) edge.sourceIdx edge.targetIdx
    targetIdx
  some (outgoing ++ incoming)

def abConnectedCandidates (graph : Graph W T) (pattern : AntibodyPattern)
    (binding : List (Option Nat)) (targetIdx : Nat) : Option (List Nat) :=
  (pattern.edges.mapM (abEdgeCandidates graph binding targetIdx)).map fun neighbors =>
    let candidates := neighbors.flatten.eraseDups
    if candidates = [] then List.range graph.nodes.count else candidates

-- What a test says of the ends of an edge, and otherwise where one of them is not bound.
def abTestEdge (binding : List (Option Nat)) (edge : PatternEdge) (otherwise : Bool)
    (test : Nat → Nat → Option Bool) : Option Bool :=
  binding[edge.sourceIdx]?.bind fun source =>
    match source with
    | none => some otherwise
    | some src =>
        binding[edge.targetIdx]?.bind fun target =>
          match target with
          | none => some otherwise
          | some tgt => test src tgt

def abVerifyEdge (graph : Graph W T) (binding : List (Option Nat)) (edge : PatternEdge) :
    Option Bool :=
  abTestEdge binding edge false fun src tgt => abEdgeExists graph src tgt edge.relation

def abVerifyNegativeEdge (graph : Graph W T) (binding : List (Option Nat)) (edge : PatternEdge) :
    Option Bool :=
  abTestEdge binding edge true fun src tgt =>
    (if edge.relation.isSome then abEdgeExists graph src tgt edge.relation
      else abAnyEdgeExists graph src tgt).map (!·)

def abVerifyEdges (graph : Graph W T) (edges : List PatternEdge) (binding : List (Option Nat)) :
    Option Bool :=
  edges.allM (abVerifyEdge graph binding)

def abVerifyNegativeEdges (graph : Graph W T) (negativeEdges : List PatternEdge)
    (binding : List (Option Nat)) : Option Bool :=
  negativeEdges.allM (abVerifyNegativeEdge graph binding)

end Edges

section Matching

def abPickAnchor (pattern : AntibodyPattern) : Nat :=
  (pattern.nodes.zipIdx.foldl (fun best (node, i) =>
    if best.2 < abNodeConstraintCount node then (i, abNodeConstraintCount node) else best) (0, 0)).1

-- The anchor, then the others by their constraints.
def matchOrder (pattern : AntibodyPattern) : List Nat :=
  let count := fun i => (pattern.nodes[i]?.map abNodeConstraintCount).getD 0
  abPickAnchor pattern ::
    ((List.range pattern.nodes.length).filter (· ≠ abPickAnchor pattern)).mergeSort
      fun i j => count j ≤ count i

variable [Lowercase]

-- What a search binds, none where it fails.
def abDfsMatchMode (graph : Graph W T) (pattern : AntibodyPattern) (matchMode : String) :
    List Nat → List (Option Nat) → List Nat → Option (Option (List (Option Nat)))
  | [], binding, _ => do
      let holds ← both (abVerifyEdges graph pattern.edges binding)
        (abVerifyNegativeEdges graph pattern.negativeEdges binding)
      some (if holds then some binding else none)
  | patIdx :: order, binding, usedNodes =>
      binding[patIdx]?.bind fun bound =>
        match bound with
        | some _ => abDfsMatchMode graph pattern matchMode order binding usedNodes
        | none =>
            (abConnectedCandidates graph pattern binding patIdx).bind fun candidates =>
              candidates.findSomeM? fun candidate =>
                if candidate ∈ usedNodes then some none
                else
                  pattern.nodes[patIdx]?.bind fun patternNode =>
                    (abMatchesNodeConstraintsMode graph candidate patternNode matchMode).bind
                      fun holds =>
                        if holds then
                          abDfsMatchMode graph pattern matchMode order
                            (binding.set patIdx (some candidate)) (candidate :: usedNodes)
                        else some none

def abDfsMatch (graph : Graph W T) (pattern : AntibodyPattern) (order : List Nat)
    (binding : List (Option Nat)) (usedNodes : List Nat) : Option (Option (List (Option Nat))) :=
  abDfsMatchMode graph pattern "substring" order binding usedNodes

def abExternalId (graph : Graph W T) (node : Nat) (otherwise : String) : Option String :=
  match graph.idToNode.toList.find? fun entry => entry.2 = node with
  | some entry => graph.strings.tryResolve entry.1
  | none => some otherwise

def abBuildBoundNode (graph : Graph W T) (node : Nat) (role : String) : Option BoundNode := do
  let label ← nodeLabel graph node
  let externalId ← abExternalId graph node ("node_" ++ toString node)
  let provenance := graph.resolveNodeProvenance node
  some {
    nodeId := externalId
    label := label
    role := role
    sourcePath := provenance.sourcePath
    lineStart := provenance.lineStart
    lineEnd := provenance.lineEnd }

-- The part of the nodes that a test holds for.
def ratioOf (graph : Graph W T) (test : Nat → Option Bool) : Option Rat :=
  (keepM test (List.range graph.nodes.count)).map fun kept =>
    kept.length / (max graph.nodes.count 1 : Nat)

-- A common label lowers the confidence.
def abLabelPenalty (graph : Graph W T) (patternNode : PatternNode) : Option Rat :=
  match patternNode.labelContains with
  | some substring =>
      (ratioOf graph fun j => (nodeLabel graph j).map fun label =>
        containsLowercase label substring).map fun ratio => if 1 / 10 < ratio then 1 / 10 else 0
  | none => some 0

-- A rare type raises it.
def abTypeBoost (graph : Graph W T) (patternNode : PatternNode) (node : Nat) : Option Rat :=
  if patternNode.nodeType.isSome then
    graph.nodes.nodeType[node]?.bind fun nodeType =>
      (ratioOf graph fun j => graph.nodes.nodeType[j]?.map fun other => other = nodeType).map
        fun ratio => if ratio < 1 / 100 then 1 / 10 else 0
  else some 0

def abConfidenceStep (graph : Graph W T) (confidence : Rat)
    (slot : PatternNode × Option Nat) : Option Rat :=
  match slot.2 with
  | none => some confidence
  | some node => do
      let penalty ← abLabelPenalty graph slot.1
      let boost ← abTypeBoost graph slot.1 node
      some (confidence - penalty + boost)

def abComputeConfidence (graph : Graph W T) (binding : List (Option Nat))
    (pattern : AntibodyPattern) : Option Rat :=
  ((pattern.nodes.zip binding).foldlM (abConfidenceStep graph) 1).map fun confidence =>
    min (max confidence (1 / 10)) 1

def abBoundNodes (graph : Graph W T) (pattern : AntibodyPattern) (binding : List (Option Nat)) :
    Option (List BoundNode) :=
  ((pattern.nodes.zip binding).filterMap fun slot => slot.2.map fun node => (slot.1, node)).mapM
    fun slot => abBuildBoundNode graph slot.2 slot.1.role

def buildMatch (graph : Graph W T) (antibody : Antibody) (binding : List (Option Nat)) :
    Option AntibodyMatch := do
  let confidence ← abComputeConfidence graph binding antibody.pattern
  let boundNodes ← abBoundNodes graph antibody.pattern binding
  some {
    antibodyId := antibody.id
    antibodyName := antibody.name
    severity := antibody.severity
    boundNodes := boundNodes
    confidence := confidence
    location := boundNodes.head?.bind BoundNode.sourcePath }

-- What the search from a candidate for the anchor binds.
def searchFrom (graph : Graph W T) (pattern : AntibodyPattern) (candidate : Nat) :
    Option (Option (List (Option Nat))) := do
  let anchorIdx := abPickAnchor pattern
  let anchor ← pattern.nodes[anchorIdx]?
  let holds ← abMatchesNodeConstraints graph candidate anchor
  if holds then
    abDfsMatch graph pattern (matchOrder pattern)
      ((List.replicate pattern.nodes.length none).set anchorIdx (some candidate)) [candidate]
  else some none

def bindingKey (binding : List (Option Nat)) : List Nat :=
  (binding.filterMap id).mergeSort

-- The candidates that are left come first, then the sets of nodes that were bound already, and the
-- matches. No search runs out of time.
def matchCandidates (graph : Graph W T) (antibody : Antibody) :
    List Nat → List (List Nat) → List AntibodyMatch → Option (List AntibodyMatch)
  | [], _, found => some found
  | candidate :: candidates, seenBindings, found =>
      (searchFrom graph antibody.pattern candidate).bind fun bound =>
        match bound with
        | none => matchCandidates graph antibody candidates seenBindings found
        | some binding =>
            if bindingKey binding ∈ seenBindings then
              matchCandidates graph antibody candidates seenBindings found
            else
              (buildMatch graph antibody binding).bind fun built =>
                if MAX_MATCHES_PER_ANTIBODY ≤ (found ++ [built]).length then some (found ++ [built])
                else
                  matchCandidates graph antibody candidates (bindingKey binding :: seenBindings)
                    (found ++ [built])

def matchAntibody (graph : Graph W T) (antibody : Antibody) : Option (List AntibodyMatch) :=
  if graph.finalized = false ∨ graph.nodes.count = 0 ∨ antibody.pattern.nodes = [] then some []
  else matchCandidates graph antibody (List.range graph.nodes.count) [] []

end Matching

end M1nd.Core
