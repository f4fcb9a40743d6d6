import M1nd.Control.Policy
import M1nd.Core.Snapshot
import M1nd.Library.TextLines
import Mathlib.Order.Lattice

namespace M1nd.Ingest

open M1nd.Control (isWhiteSpace)
open M1nd.Core
open M1nd.Library.TextLines (trim)

export M1nd.Core (Graph)

-- A claimed edge key has the same fields. The source gives it a type of its own for its file.
structure EdgeKey where
  source : String
  target : String
  relation : String
  direction : UInt8
  inhibitory : Bool
deriving DecidableEq

abbrev ClaimedEdgeKey := EdgeKey

structure EdgeRecord (W : Type) where
  key : EdgeKey
  weight : W
  causalStrength : W
deriving DecidableEq

structure SourceClaims where
  sourceHint : Option String
  nodeIds : List String
  edges : List ClaimedEdgeKey

inductive MergeError
  | Graph (error : GraphError)
  | Panicked
deriving DecidableEq

def isValidRelativeFilePath (relPath : List Char) : Bool :=
  if relPath.isEmpty || relPath != trim isWhiteSpace relPath then false
  else if relPath.contains '\\' then false
  else
    let windowsAbsolute :=
      match relPath with
      | first :: ':' :: _ => decide (first.toNat < 128)
      | _ => false
    relPath.head? != some '/' && !windowsAbsolute && !relPath.contains '\x00' &&
      !relPath.contains '\ufffd' &&
      (relPath.splitOnP fun c => c = '/' || c = '\\').all fun segment =>
        !segment.isEmpty && segment != ['.'] && segment != ['.', '.']

def isValidExternalId (externalId : String) : Bool :=
  let trimmed := trim isWhiteSpace externalId.toList
  if trimmed.isEmpty then false
  else if "file::".toList.isPrefixOf trimmed then isValidRelativeFilePath (trimmed.drop 6)
  else true

section Reading

variable {W T : Type} (graph : Graph W T)

-- A graph resolves every handle that it holds.
def resolveName (handle : Nat) : String :=
  (graph.strings.tryResolve handle).getD ""

def nodeExternalIds : List String :=
  graph.idToNode.toList.foldl
    (fun ids (interned, nodeId) => ids.set nodeId (resolveName graph interned))
    (List.replicate graph.numNodes "")

def canonicalEdgeKey (source target relation : String) (direction : EdgeDirection)
    (inhibitory : Bool) : EdgeKey :=
  if direction = .Bidirectional ∧ target < source then ⟨target, source, relation, 1, inhibitory⟩
  else ⟨source, target, relation, if direction = .Bidirectional then 1 else 0, inhibitory⟩

def mergeTags (existing incoming : List String) : List String :=
  (existing ++ incoming).foldl
    (fun merged tag => if tag ∈ merged then merged else merged ++ [tag]) []

variable [Zero W]

def edgeRecord (ids : List String) (src j : Nat) : EdgeRecord W where
  key := canonicalEdgeKey (ids.getD src "") (ids.getD (graph.csr.targets.getD j 0) "")
    (resolveName graph (graph.csr.relations.getD j 0)) (graph.csr.directions.getD j .Forward)
    (graph.csr.inhibitory.getD j false)
  weight := graph.csr.readWeight (EdgeIdx.new j)
  causalStrength := graph.csr.causalStrengths.getD j 0

-- Of a bidirectional edge the slot against the numbering is skipped.
def isMirrorSlot (src j : Nat) : Bool :=
  decide (graph.csr.directions.getD j .Forward = .Bidirectional ∧
    graph.csr.targets.getD j 0 < src)

-- The count of the edges skipped for an invalid id is only printed.
def collectEdges : List (EdgeRecord W) :=
  let nodeIds := nodeExternalIds graph
  (List.range graph.numNodes).flatMap fun src =>
    if !isValidExternalId (nodeIds.getD src "") then []
    else
      (graph.csr.outRange src).filterMap fun j =>
        if isMirrorSlot graph src j then none
        else if !isValidExternalId (nodeIds.getD (graph.csr.targets.getD j 0) "") then none
        else some (edgeRecord graph nodeIds src j)

def pushNew {α : Type} [DecidableEq α] (seen : List α) (item : α) : List α :=
  if item ∈ seen then seen else seen ++ [item]

def claimNode (nodeIds : List String) (claims : SourceClaims) (idx : Nat) : SourceClaims :=
  let externalId := nodeIds.getD idx ""
  if !isValidExternalId externalId then claims
  else
    let provenance := graph.resolveNodeProvenance idx
    if provenance.canonical then
      { claims with
        sourceHint := claims.sourceHint.or provenance.sourcePath
        nodeIds := pushNew claims.nodeIds externalId }
    else claims

def collectSourceClaims : SourceClaims :=
  let claims := (List.range (nodeExternalIds graph).length).foldl
    (claimNode graph (nodeExternalIds graph)) ⟨none, [], []⟩
  { claims with edges := ((collectEdges graph).map EdgeRecord.key).foldl pushNew [] }

end Reading

section Merging

variable {W T : Type} [Zero W] [Zero T]

def mergeNodeProvenance (graph : Graph W T) (node : Nat) (incoming : ResolvedNodeProvenance) :
    Graph W T :=
  if graph.nodes.count ≤ node then graph
  else
    let current := graph.resolveNodeProvenance node
    let lineStart := current.lineStart.or incoming.lineStart
    let lineEnd :=
      match current.lineEnd, incoming.lineEnd.or incoming.lineStart with
      | some existing, some extra => some (max existing extra)
      | some existing, none => some existing
      | none, some extra => some extra
      | none, none => lineStart
    graph.setNodeProvenance node {
      sourcePath := current.sourcePath.or incoming.sourcePath
      lineStart := lineStart
      lineEnd := lineEnd
      excerpt := current.excerpt.or incoming.excerpt
      «namespace» := current.namespace.or incoming.namespace
      canonical := current.canonical || incoming.canonical }

def nodeTags (graph : Graph W T) (idx : Nat) : List String :=
  (graph.nodes.tags.getD idx []).map (resolveName graph)

-- The node of one graph goes to another one.
def copyNode (graph : Graph W T) (externalId : String) (idx : Nat) (next : Graph W T) :
    Except MergeError (Graph W T) :=
  match next.addNode externalId (resolveName graph (graph.nodes.label.getD idx 0))
    (graph.nodes.nodeType.getD idx .File) (nodeTags graph idx)
    (graph.nodes.lastModified.getD idx 0) (graph.nodes.changeFrequency.getD idx 0) with
  | (.error e, _) => .error (.Graph e)
  | (.ok nodeId, next) => .ok (next.setNodeProvenance nodeId (graph.resolveNodeProvenance idx))

variable [Max T]

def mergeExisting (graph : Graph W T) (idx : Nat) (merged : Graph W T) (existing : Nat) :
    Graph W T :=
  let (tags, strings) :=
    merged.strings.internAll (mergeTags (nodeTags merged existing) (nodeTags graph idx))
  mergeNodeProvenance
    { merged with
      strings := strings
      nodes := {
        merged.nodes with
        tags := merged.nodes.tags.set existing tags
        lastModified := merged.nodes.lastModified.set existing
          (max (merged.nodes.lastModified.getD existing 0) (graph.nodes.lastModified.getD idx 0)) } }
    existing (graph.resolveNodeProvenance idx)

def mergeNode (graph : Graph W T) (ids : List String) (merged : Graph W T) (idx : Nat) :
    Except MergeError (Graph W T) :=
  let externalId := ids.getD idx ""
  if !isValidExternalId externalId then .ok merged
  else
    match merged.resolveId externalId with
    | some existing => .ok (mergeExisting graph idx merged existing)
    | none => copyNode graph externalId idx merged

def mergeNodes (merged graph : Graph W T) : Except MergeError (Graph W T) :=
  (List.range graph.numNodes).foldlM (mergeNode graph (nodeExternalIds graph)) merged

-- The records of the edges by key.
abbrev EdgeRecords (W : Type) := List (EdgeKey × List (EdgeRecord W))

omit [Zero W] in
def recordsOf (records : EdgeRecords W) (key : EdgeKey) : List (EdgeRecord W) :=
  (records.lookup key).getD []

omit [Zero W] in
def setRecords (key : EdgeKey) (slots : List (EdgeRecord W)) : EdgeRecords W → EdgeRecords W
  | [] => [(key, slots)]
  | (other, found) :: records =>
      if other = key then (other, slots) :: records
      else (other, found) :: setRecords key slots records

omit [Zero W] in
def pushRecord (records : EdgeRecords W) (record : EdgeRecord W) : EdgeRecords W :=
  setRecords record.key (recordsOf records record.key ++ [record]) records

variable [Max W]

-- The occurrences of the overlay are paired with those of the base one after the other.
omit [Zero W] in
def overlayRecord (state : EdgeRecords W × (EdgeKey → Nat)) (record : EdgeRecord W) :
    EdgeRecords W × (EdgeKey → Nat) :=
  let occurrence := state.2 record.key
  let slots := recordsOf state.1 record.key
  let slots :=
    match slots[occurrence]? with
    | some existing => slots.set occurrence {
        existing with
        weight := max existing.weight record.weight
        causalStrength := max existing.causalStrength record.causalStrength }
    | none => slots ++ [record]
  (setRecords record.key slots state.1,
    fun key => if key = record.key then occurrence + 1 else state.2 key)

def mergeRecords (base overlay : Graph W T) : EdgeRecords W :=
  ((collectEdges overlay).foldl overlayRecord
    ((collectEdges base).foldl pushRecord [], fun _ => 0)).1

def addRecord (merged : Graph W T) (record : EdgeRecord W) : Except MergeError (Graph W T) :=
  match merged.resolveId record.key.source, merged.resolveId record.key.target with
  | some source, some target =>
      match merged.addEdge source target record.key.relation record.weight
        (if record.key.direction = 1 then .Bidirectional else .Forward) record.key.inhibitory
        record.causalStrength with
      | (.error e, _) => .error (.Graph e)
      | (.ok _, merged) => .ok merged
  | _, _ => .error .Panicked

-- A hash map lists its groups in some order.
structure HashOrder (W : Type) where
  order : EdgeRecords W → EdgeRecords W
  perm : ∀ records, (order records).Perm records

def mergeGraphs (hash : HashOrder W) (base overlay : Graph W T) :
    Except MergeError (Graph W T) := do
  let merged ← mergeNodes Graph.new base
  let merged ← mergeNodes merged overlay
  let merged ← ((hash.order (mergeRecords base overlay)).flatMap Prod.snd).foldlM addRecord merged
  .ok (if 0 < merged.numNodes then merged.finalize else merged)

-- What one source claims and no other one. Of the counts of the other claims only whether
-- there are any is asked.
def claimedAlone {α : Type} [DecidableEq α] (claimed : SourceClaims → List α)
    (claimsBySource : List (String × SourceClaims)) (targetSource : String)
    (targetClaims : SourceClaims) : List α :=
  (claimed targetClaims).filter fun item =>
    !(claimsBySource.any fun entry =>
      decide (entry.1 ≠ targetSource) && decide (item ∈ claimed entry.2))

omit [Max T] [Max W] in
def pruneEdge (base : Graph W T) (baseIds retained : List String) (removedEdgeKeys : List EdgeKey)
    (pruned : Graph W T) (slot : Nat × Nat) : Except MergeError (Graph W T) :=
  let (src, j) := slot
  let srcExt := baseIds.getD src ""
  let tgtExt := baseIds.getD (base.csr.targets.getD j 0) ""
  if srcExt ∉ retained then .ok pruned
  else if tgtExt ∉ retained then .ok pruned
  else if isMirrorSlot base src j then .ok pruned
  else
    let relation := resolveName base (base.csr.relations.getD j 0)
    let direction := base.csr.directions.getD j .Forward
    let inhibitory := base.csr.inhibitory.getD j false
    if canonicalEdgeKey srcExt tgtExt relation direction inhibitory ∈ removedEdgeKeys then .ok pruned
    else
      match pruned.resolveId srcExt, pruned.resolveId tgtExt with
      | some source, some target =>
          match pruned.addEdge source target relation (base.csr.readWeight (EdgeIdx.new j)) direction
            inhibitory (base.csr.causalStrengths.getD j 0) with
          | (.error e, _) => .error (.Graph e)
          | (.ok _, pruned) => .ok pruned
      | _, _ => .error .Panicked

def pruneSourceClaims (hash : HashOrder W) (base : Graph W T) (targetSource : String)
    (claimsBySource : List (String × SourceClaims)) : Except MergeError (Graph W T) :=
  match claimsBySource.lookup targetSource with
  | none => mergeGraphs hash Graph.new base
  | some targetClaims => do
      let removedNodeIds := claimedAlone SourceClaims.nodeIds claimsBySource targetSource targetClaims
      let removedEdgeKeys := claimedAlone SourceClaims.edges claimsBySource targetSource targetClaims
      let baseIds := nodeExternalIds base
      let isRetained externalId := isValidExternalId externalId && externalId ∉ removedNodeIds
      let pruned ← ((List.range baseIds.length).filter fun idx =>
        isRetained (baseIds.getD idx "")).foldlM
          (fun pruned idx => copyNode base (baseIds.getD idx "") idx pruned) Graph.new
      let slots := (List.range base.numNodes).flatMap fun src =>
        (base.csr.outRange src).map fun j => (src, j)
      let pruned ← slots.foldlM
        (pruneEdge base baseIds (baseIds.filter isRetained) removedEdgeKeys) pruned
      .ok (if 0 < pruned.numNodes then pruned.finalize else pruned)

end Merging

end M1nd.Ingest
