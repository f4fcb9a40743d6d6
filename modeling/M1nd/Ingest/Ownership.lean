import M1nd.Ingest.Merge
import M1nd.Library.Sorting
import Mathlib.Data.Prod.Lex
import Mathlib.Data.String.Basic

namespace M1nd.Ingest

open M1nd.Control (Sha256 hexLower)
open M1nd.Core
open M1nd.Library.Json (Bytes Value)
open M1nd.Library.Sorting (sortDedup)
open Std (ExtTreeSet)

def CODE_SOURCE_PROJECTION_DIGEST_DOMAIN : String := "m1nd-code-source-projection-v1"

-- The bits of a float.
class ToBits (α : Type) where
  toBits : α → Nat
  injective : Function.Injective toBits

export ToBits (toBits)

-- The text of the derived Debug.
def debugNodeType : NodeType → String
  | .File => "File"
  | .Directory => "Directory"
  | .Function => "Function"
  | .Class => "Class"
  | .Struct => "Struct"
  | .Enum => "Enum"
  | .Type => "Type"
  | .Module => "Module"
  | .Reference => "Reference"
  | .Concept => "Concept"
  | .Material => "Material"
  | .Process => "Process"
  | .Product => "Product"
  | .Supplier => "Supplier"
  | .Regulatory => "Regulatory"
  | .System => "System"
  | .Cost => "Cost"
  | .Custom v => "Custom(" ++ Nat.repr v.toNat ++ ")"

structure GraphContentNodeV1 where
  externalId : String
  label : String
  nodeType : String
  tags : List String
  lastModifiedBits : Nat
  changeFrequencyBits : Nat
  provenanceSourcePath : Option String
  provenanceLineStart : Option Nat
  provenanceLineEnd : Option Nat
  provenanceExcerpt : Option String
  provenanceNamespace : Option String
  provenanceCanonical : Bool
deriving DecidableEq

def GraphContentNodeV1.toValue (node : GraphContentNodeV1) : Value :=
  .object [
    ("external_id", .string node.externalId),
    ("label", .string node.label),
    ("node_type", .string node.nodeType),
    ("tags", .array (node.tags.map .string)),
    ("last_modified_bits", .ofNat node.lastModifiedBits),
    ("change_frequency_bits", .ofNat node.changeFrequencyBits),
    ("provenance_source_path", .ofOption .string node.provenanceSourcePath),
    ("provenance_line_start", .ofOption .ofNat node.provenanceLineStart),
    ("provenance_line_end", .ofOption .ofNat node.provenanceLineEnd),
    ("provenance_excerpt", .ofOption .string node.provenanceExcerpt),
    ("provenance_namespace", .ofOption .string node.provenanceNamespace),
    ("provenance_canonical", .bool node.provenanceCanonical)]

-- The first five fields are those of an edge key.
structure GraphContentEdgeV1 extends EdgeKey where
  weightBits : Nat
  causalStrengthBits : Nat

def GraphContentEdgeV1.toValue (edge : GraphContentEdgeV1) : Value :=
  .object [
    ("source", .string edge.source),
    ("target", .string edge.target),
    ("relation", .string edge.relation),
    ("direction", .ofNat edge.direction.toNat),
    ("inhibitory", .bool edge.inhibitory),
    ("weight_bits", .ofNat edge.weightBits),
    ("causal_strength_bits", .ofNat edge.causalStrengthBits)]

-- The tuple the edges are sorted by.
def GraphContentEdgeV1.rank (edge : GraphContentEdgeV1) :
    String ×ₗ String ×ₗ String ×ₗ Nat ×ₗ Bool ×ₗ Nat ×ₗ Nat :=
  toLex (edge.source, toLex (edge.target, toLex (edge.relation, toLex (edge.direction.toNat,
    toLex (edge.inhibitory, toLex (edge.weightBits, edge.causalStrengthBits))))))

structure GraphContentV1 where
  domain : String
  nodes : List GraphContentNodeV1
  edges : List GraphContentEdgeV1

def GraphContentV1.toValue (content : GraphContentV1) : Value :=
  .object [
    ("domain", .string content.domain),
    ("nodes", .array (content.nodes.map GraphContentNodeV1.toValue)),
    ("edges", .array (content.edges.map GraphContentEdgeV1.toValue))]

structure GraphSlotAuditV1 where
  nodeIds : List String
  orphanNodeSlots : List Nat
  multiplyIdentifiedNodeSlots : List Nat
  invalidIdentityIds : List String
  outOfRangeIdentityIds : List String
  orphanEdgeSlots : List Nat
  csrShapeValid : Bool

-- What the pass over the id map has found so far.
structure IdentityPass where
  identitiesBySlot : List (ExtTreeSet String)
  invalidIdentityIds : List String
  outOfRangeIdentityIds : List String

section Digests

variable [Sha256]

def sha256Bytes (bytes : Bytes) : String :=
  hexLower (Sha256.finalize bytes).toList

def digestJson (value : Value) : String :=
  sha256Bytes value.write

end Digests

section Audit

variable {W T : Type} (graph : Graph W T)

def auditIdentity (pass : IdentityPass) (entry : Nat × Nat) : IdentityPass :=
  let (interned, node) := entry
  let externalId := resolveName graph interned
  if graph.numNodes ≤ node then
    { pass with outOfRangeIdentityIds := pass.outOfRangeIdentityIds ++ [externalId] }
  else if !isValidExternalId externalId then
    { pass with invalidIdentityIds := pass.invalidIdentityIds ++ [externalId] }
  else
    { pass with
      identitiesBySlot := pass.identitiesBySlot.modify node fun identities =>
        identities.insert externalId }

def auditIdentities : IdentityPass :=
  graph.idToNode.toList.foldl (auditIdentity graph)
    ⟨List.replicate graph.numNodes ∅, [], []⟩

-- A slot with one identity has that one for its id.
def soleIdentity (identities : ExtTreeSet String) : String :=
  match identities.toList with
  | [externalId] => externalId
  | _ => ""

def offsetsShapeValid (offsets : List Nat) (nodeCount edgeCount : Nat) : Bool :=
  offsets.length == nodeCount + 1 && offsets.head? == some 0 &&
    offsets.getLast? == some edgeCount &&
    (offsets.zip offsets.tail).all fun pair => pair.1 ≤ pair.2 && pair.2 ≤ edgeCount

def csrShapeValid : Bool :=
  let edgeCount := graph.csr.targets.length
  offsetsShapeValid graph.csr.offsets graph.numNodes edgeCount &&
    offsetsShapeValid graph.csr.revOffsets graph.numNodes graph.csr.revSources.length &&
    graph.csr.weights.length == edgeCount &&
    graph.csr.inhibitory.length == edgeCount &&
    graph.csr.relations.length == edgeCount &&
    graph.csr.directions.length == edgeCount &&
    graph.csr.causalStrengths.length == edgeCount &&
    graph.csr.revSources.length == edgeCount &&
    graph.csr.revEdgeIdx.length == edgeCount &&
    (graph.csr.targets.all fun target => target < graph.numNodes) &&
    (graph.csr.revSources.all fun source => source < graph.numNodes) &&
    (graph.csr.revEdgeIdx.all fun edge => edge < edgeCount) &&
    graph.edgePlasticity.originalWeight.length == edgeCount &&
    graph.edgePlasticity.currentWeight.length == edgeCount &&
    graph.edgePlasticity.strengthenCount.length == edgeCount &&
    graph.edgePlasticity.weakenCount.length == edgeCount &&
    graph.edgePlasticity.ltpApplied.length == edgeCount &&
    graph.edgePlasticity.ltdApplied.length == edgeCount &&
    graph.edgePlasticity.lastUsedQuery.length == edgeCount

def orphanEdgeSlots (nodeIds : List String) : List Nat :=
  sortDedup ((List.range graph.numNodes).flatMap fun sourceSlot =>
    (graph.csr.outRange sourceSlot).filter fun edgeSlot =>
      (nodeIds.getD sourceSlot "").isEmpty ||
        (nodeIds.getD (graph.csr.targets.getD edgeSlot 0) "").isEmpty)

def graphSlotAudit : GraphSlotAuditV1 :=
  let pass := auditIdentities graph
  let nodeIds := pass.identitiesBySlot.map soleIdentity
  { nodeIds := nodeIds
    orphanNodeSlots := (pass.identitiesBySlot.zipIdx.filter (·.1.size = 0)).map Prod.snd
    multiplyIdentifiedNodeSlots := (pass.identitiesBySlot.zipIdx.filter (1 < ·.1.size)).map Prod.snd
    invalidIdentityIds := sortDedup pass.invalidIdentityIds
    outOfRangeIdentityIds := sortDedup pass.outOfRangeIdentityIds
    orphanEdgeSlots := if csrShapeValid graph then orphanEdgeSlots graph nodeIds else []
    csrShapeValid := csrShapeValid graph }

end Audit

section Projection

variable {W T : Type} [Zero W] [Zero T] [ToBits W] [ToBits T] (graph : Graph W T)

def graphContentNode (index : Nat) (externalId : String) : GraphContentNodeV1 :=
  let provenance := graph.resolveNodeProvenance index
  { externalId := externalId
    label := resolveName graph (graph.nodes.label.getD index 0)
    nodeType := debugNodeType (graph.nodes.nodeType.getD index .File)
    tags := sortDedup (nodeTags graph index)
    lastModifiedBits := toBits (graph.nodes.lastModified.getD index 0)
    changeFrequencyBits := toBits (graph.nodes.changeFrequency.getD index 0)
    provenanceSourcePath := provenance.sourcePath
    provenanceLineStart := provenance.lineStart
    provenanceLineEnd := provenance.lineEnd
    provenanceExcerpt := provenance.excerpt
    provenanceNamespace := provenance.namespace
    provenanceCanonical := provenance.canonical }

def graphContentNodes (nodeIds : List String) : List GraphContentNodeV1 :=
  ((nodeIds.zipIdx.filter fun entry => !entry.1.isEmpty).map fun entry =>
    graphContentNode graph entry.2 entry.1).mergeSort
      fun left right => left.externalId ≤ right.externalId

omit [Zero T] [ToBits T] in
def graphContentEdge (nodeIds : List String) (sourceIndex edgeIndex : Nat) :
    Option GraphContentEdgeV1 :=
  let targetIndex := graph.csr.targets.getD edgeIndex 0
  if nodeIds.length ≤ targetIndex || (nodeIds.getD targetIndex "").isEmpty then none
  else if isMirrorSlot graph sourceIndex edgeIndex then none
  else some {
    canonicalEdgeKey (nodeIds.getD sourceIndex "") (nodeIds.getD targetIndex "")
      (resolveName graph (graph.csr.relations.getD edgeIndex 0))
      (graph.csr.directions.getD edgeIndex .Forward) (graph.csr.inhibitory.getD edgeIndex false) with
    weightBits := toBits (graph.edgePlasticity.originalWeight.getD edgeIndex 0)
    causalStrengthBits := toBits (graph.csr.causalStrengths.getD edgeIndex 0) }

omit [Zero T] [ToBits T] in
def graphContentEdges (nodeIds : List String) : List GraphContentEdgeV1 :=
  ((List.range graph.numNodes).flatMap fun sourceIndex =>
    if (nodeIds.getD sourceIndex "").isEmpty then []
    else (graph.csr.outRange sourceIndex).filterMap
      (graphContentEdge graph nodeIds sourceIndex)).mergeSort
        fun left right => left.rank ≤ right.rank

def graphContent (nodeIds : List String) : GraphContentV1 where
  domain := CODE_SOURCE_PROJECTION_DIGEST_DOMAIN
  nodes := graphContentNodes graph nodeIds
  edges := graphContentEdges graph nodeIds

def sourceProjectionDigest [Sha256] : Except String String :=
  let slotAudit := graphSlotAudit graph
  if !slotAudit.csrShapeValid then .error "graph CSR/plasticity storage shape is invalid"
  else .ok (digestJson (graphContent graph slotAudit.nodeIds).toValue)

end Projection

end M1nd.Ingest
