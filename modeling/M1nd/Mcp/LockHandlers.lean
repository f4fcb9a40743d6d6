import M1nd.Control.Policy
import M1nd.Core.Plasticity

namespace M1nd.Mcp

open M1nd.Control
open M1nd.Core
open M1nd.Library.Json (Bytes Value)

export M1nd.Core (Graph)

-- What a lock needs of f32 beyond its arithmetic: the order `total_cmp` and the bound that a
-- weight may move within. A finite value minus itself is zero.
class LockF32 (W : Type) (F : outParam Type) extends FiniteF32 W F, Core.Float32 F where
  totalLe : F → F → Bool
  tolerance : F
  sub_self_le : ∀ f, isFinite f = true → lt tolerance (abs (f - f)) = false

inductive LockScope
  | Node
  | Subgraph
  | QueryNeighborhood
  | Path
deriving DecidableEq

structure LockScopeConfig where
  scopeType : LockScope
  rootNodes : List String
  radius : Option Nat
  pathNodes : Option (List String)

structure EdgeSnapshotEntry (F : Type) where
  source : String
  target : String
  relation : String
  weight : F
deriving DecidableEq

abbrev LockEdges (F : Type) := Std.ExtTreeMap Bytes (EdgeSnapshotEntry F)

structure LockSnapshot (F : Type) where
  nodes : BTreeSet String
  edges : LockEdges F
  graphGeneration : Nat
  capturedAtMs : Nat
  keyFormat : String

inductive WatchStrategy
  | Manual
  | OnIngest
  | OnLearn
  | Periodic
deriving DecidableEq

structure WatchConfig where
  strategy : WatchStrategy
  lastScanMs : Nat

structure LockState (F : Type) where
  lockId : String
  agentId : String
  scope : LockScopeConfig
  baseline : LockSnapshot F
  watcher : Option WatchConfig
  baselineStale : Bool
  createdAtMs : Nat
  lastDiffMs : Nat

structure PerspectiveLimits where
  maxLockBaselineNodes : Nat
  maxLockBaselineEdges : Nat
  maxLockDiffNewNodes : Nat
  maxLockDiffNewEdges : Nat

structure SessionState (W T F : Type) where
  graph : Graph W T
  graphGeneration : Nat
  locks : BTreeMap (LockState F)
  perspectiveLimits : PerspectiveLimits
  pendingWatcherEvents : List String

inductive LockError
  | LockNotFound (lockId : String)
  | LockOwnership (lockId owner caller : String)
  | LockScopeTooLarge (nodeCount cap : Nat)
  | InvalidParams (tool detail : String)
deriving DecidableEq

section Capture

variable {W T F : Type} (graph : Graph W T)

-- A graph resolves every handle that it holds.
def resolveHandle (handle : Nat) : String :=
  (graph.strings.tryResolve handle).getD ""

def externalIds : List (Option String) :=
  graph.idToNode.toList.foldl
    (fun ids (ext, nid) => ids.set nid (some (resolveHandle graph ext)))
    (List.replicate graph.numNodes none)

def selectRoots (names : List String) : BTreeSet Nat × List (Nat × Nat) :=
  names.foldl
    (fun (selected, frontier) name =>
      match graph.resolveId name with
      | some nid =>
          if selected.contains nid then (selected, frontier)
          else (selected.insert nid, frontier ++ [(nid, 0)])
      | none => (selected, frontier))
    (∅, [])

def outTargets (idx : Nat) : List Nat :=
  let lo := graph.csr.offsets.getD idx 0
  (List.range' lo (graph.csr.offsets.getD (idx + 1) 0 - lo)).map fun j => graph.csr.targets.getD j 0

def reachTarget (cap depth : Nat) (search : BTreeSet Nat × List (Nat × Nat)) (target : Nat) :
    Except LockError (BTreeSet Nat × List (Nat × Nat)) :=
  let search :=
    if search.1.contains target then search
    else (search.1.insert target, search.2 ++ [(target, depth + 1)])
  if cap < search.1.size then .error (.LockScopeTooLarge search.1.size cap) else .ok search

-- Each turn takes one node off the frontier.
def growScope (cap radius : Nat) :
    Nat → BTreeSet Nat × List (Nat × Nat) → Except LockError (BTreeSet Nat)
  | 0, search => .ok search.1
  | fuel + 1, search =>
      match search.2 with
      | [] => .ok search.1
      | (idx, depth) :: frontier =>
          if radius ≤ depth then growScope cap radius fuel (search.1, frontier)
          else do
            let search ← (outTargets graph idx).foldlM (reachTarget cap depth) (search.1, frontier)
            growScope cap radius fuel search

def LockScopeConfig.names (scope : LockScopeConfig) : List String :=
  scope.rootNodes ++ scope.pathNodes.getD []

-- A node enters the frontier once, and the loop stops when more are selected than the cap allows.
def selectNodes (limits : PerspectiveLimits) (scope : LockScopeConfig) :
    Except LockError (BTreeSet Nat) := do
  let (selected, frontier) := selectRoots graph scope.names
  let cap := limits.maxLockBaselineNodes
  let selected ←
    if scope.scopeType = .Subgraph ∧ graph.finalized = true then
      growScope graph cap (scope.radius.getD 2) (frontier.length + cap + 1) (selected, frontier)
    else .ok selected
  if cap < selected.size then .error (.LockScopeTooLarge selected.size cap) else .ok selected

def capturedNodes (selected : BTreeSet Nat) : BTreeSet String :=
  .ofList (selected.toList.filterMap fun idx => (externalIds graph).getD idx none)

-- The parallel arcs of a group agree on these.
structure Arc where
  source : String
  target : String
  relation : String
  direction : EdgeDirection
  inhibitory : Bool
deriving DecidableEq

variable [LockF32 W F] [Zero W]

-- What a slot adds to the capture.
def incidentArc (selected : BTreeSet Nat) (ids : List (Option String)) (slot : Nat × Nat) :
    Option (Arc × F) :=
  let dst := graph.csr.targets.getD slot.2 0
  if !selected.contains slot.1 && !selected.contains dst then none
  else
    match ids.getD slot.1 none, ids.getD dst none with
    | some source, some target =>
        some (⟨source, target, resolveHandle graph (graph.csr.relations.getD slot.2 0),
            graph.csr.directions.getD slot.2 .Forward, graph.csr.inhibitory.getD slot.2 false⟩,
          FiniteF32.get (graph.csr.readWeight (EdgeIdx.new slot.2)))
    | _, _ => none

omit [LockF32 W F] [Zero W] in
def pushWeight (arc : Arc) (weight : F) : List (Arc × List F) → List (Arc × List F)
  | [] => [(arc, [weight])]
  | (other, weights) :: groups =>
      if other = arc then (other, weights ++ [weight]) :: groups
      else (other, weights) :: pushWeight arc weight groups

def observeSlot (cap : Nat) (selected : BTreeSet Nat) (ids : List (Option String))
    (observed : List (Arc × List F) × Nat) (slot : Nat × Nat) :
    Except LockError (List (Arc × List F) × Nat) :=
  match incidentArc graph selected ids slot with
  | none => .ok observed
  | some (arc, weight) =>
      let count := observed.2 + 1
      if cap < count then .error (.LockScopeTooLarge count cap)
      else .ok (pushWeight arc weight observed.1, count)

def directionCode : EdgeDirection → Nat
  | .Forward => 0
  | .Bidirectional => 1

omit [LockF32 W F] [Zero W] in
def edgeKey (arc : Arc) (occurrence : Nat) : Bytes :=
  (Value.array [.string arc.source, .string arc.target, .string arc.relation,
    .ofNat (directionCode arc.direction), .bool arc.inhibitory, .ofNat occurrence]).write

omit [Zero W] in
variable (W) in
def groupEntries (group : Arc × List F) : List (Bytes × EdgeSnapshotEntry F) :=
  (group.2.mergeSort (LockF32.totalLe W)).zipIdx.map fun (weight, occurrence) =>
    (edgeKey group.1 occurrence, ⟨group.1.source, group.1.target, group.1.relation, weight⟩)

-- No answer depends on the order in which a hash map lists its groups.
def captureBaseline (limits : PerspectiveLimits) (scope : LockScopeConfig) :
    Except LockError (BTreeSet String × LockEdges F) := do
  let selected ← selectNodes graph limits scope
  let slots := if graph.finalized then edgeSlots graph.numNodes graph.csr.offsets else []
  let (groups, _) ← slots.foldlM
    (observeSlot graph limits.maxLockBaselineEdges selected (externalIds graph)) ([], 0)
  .ok (capturedNodes graph selected, .ofList (groups.flatMap (groupEntries W)))

end Capture

section Diff

variable {W T F : Type}

structure EdgeWeightChange (F : Type) where
  edgeKey : Bytes
  oldWeight : F
  newWeight : F
deriving DecidableEq

-- The time that the diff took is left out.
structure LockDiffResult (F : Type) where
  lockId : String
  noChanges : Bool
  newNodes : List String
  removedNodes : List String
  newEdges : List Bytes
  removedEdges : List Bytes
  boundaryEdgesAdded : List Bytes
  boundaryEdgesRemoved : List Bytes
  weightChanges : List (EdgeWeightChange F)
  baselineStale : Bool
deriving DecidableEq

def isBoundary (nodes : BTreeSet String) (edge : EdgeSnapshotEntry F) : Bool :=
  !(nodes.contains edge.source && nodes.contains edge.target)

def edgeKeys (nodes : BTreeSet String) (edges : LockEdges F) (boundary : Bool) : BTreeSet Bytes :=
  .ofList ((edges.toList.filter fun (_, edge) => isBoundary nodes edge == boundary).map Prod.fst)

-- The sets list their elements in order.
def sortedDifference {α : Type} [Ord α] [Std.TransOrd α] (left right : BTreeSet α) : List α :=
  (left.filter fun key => !right.contains key).toList

variable [LockF32 W F]

variable (W) in
def weightChange (baseline : LockEdges F) (entry : Bytes × EdgeSnapshotEntry F) :
    Option (EdgeWeightChange F) :=
  match baseline[entry.1]? with
  | none => none
  | some old =>
      if Core.Float32.lt (LockF32.tolerance W) (Core.Float32.abs (entry.2.weight - old.weight)) then
        some ⟨entry.1, old.weight, entry.2.weight⟩
      else none

-- The whole difference, before the lists are cut to what is shown.
variable (W) in
def computeDiff (lockId : String) (lock : LockState F) (currentNodes : BTreeSet String)
    (currentEdges : LockEdges F) : LockDiffResult F :=
  let baseline := lock.baseline
  let newNodes := sortedDifference currentNodes baseline.nodes
  let removedNodes := sortedDifference baseline.nodes currentNodes
  let currentInternal := edgeKeys currentNodes currentEdges false
  let baselineInternal := edgeKeys baseline.nodes baseline.edges false
  let newEdges := sortedDifference currentInternal baselineInternal
  let removedEdges := sortedDifference baselineInternal currentInternal
  let currentBoundary := edgeKeys currentNodes currentEdges true
  let baselineBoundary := edgeKeys baseline.nodes baseline.edges true
  let boundaryEdgesAdded := sortedDifference currentBoundary baselineBoundary
  let boundaryEdgesRemoved := sortedDifference baselineBoundary currentBoundary
  let weightChanges := currentEdges.toList.filterMap (weightChange W baseline.edges)
  { lockId := lockId
    noChanges := newNodes.isEmpty && removedNodes.isEmpty && newEdges.isEmpty &&
      removedEdges.isEmpty && boundaryEdgesAdded.isEmpty && boundaryEdgesRemoved.isEmpty &&
      weightChanges.isEmpty
    newNodes := newNodes
    removedNodes := removedNodes
    newEdges := newEdges
    removedEdges := removedEdges
    boundaryEdgesAdded := boundaryEdgesAdded
    boundaryEdgesRemoved := boundaryEdgesRemoved
    weightChanges := weightChanges
    baselineStale := lock.baselineStale }

omit [LockF32 W F] in
def truncateDiff (limits : PerspectiveLimits) (diff : LockDiffResult F) : LockDiffResult F :=
  { diff with
    newNodes := diff.newNodes.take limits.maxLockDiffNewNodes
    newEdges := diff.newEdges.take limits.maxLockDiffNewEdges
    boundaryEdgesAdded := diff.boundaryEdgesAdded.take limits.maxLockDiffNewEdges }

structure LockDiffOutput (F : Type) where
  diff : LockDiffResult F
  diffTruncated : Bool
  watcherEventsDrained : Nat
  rebaseSuggested : Option String
  proofState : String
  nextSuggestedTool : Option String
  nextSuggestedTarget : Option String
  nextStepHint : Option String

def lockDiffContract (diff : LockDiffResult F) :
    String × Option String × Option String × Option String :=
  if diff.baselineStale then
    ("proving", some "lock_rebase", some diff.lockId,
      some ("The graph changed since the baseline. Review this diff first. Rebase only after " ++
        "accepting the new baseline."))
  else if diff.noChanges then
    ("ready_to_edit", none, none, some "The lock scope is unchanged relative to its baseline.")
  else
    match diff.newNodes.head?.or diff.removedNodes.head? with
    | some node =>
        ("triaging", some "view", some node,
          some ("Inspect `" ++ node ++ "` first to understand the most visible structural " ++
            "change inside the lock scope."))
    | none =>
        ("proving", some "lock_rebase", some diff.lockId,
          some ("Edge-level changes were detected. Rebase the lock after reviewing whether the " ++
            "scope should be refreshed."))

end Diff

section Handlers

variable {W T F : Type}

def requireLock (state : SessionState W T F) (agentId lockId : String) :
    Except LockError (LockState F) :=
  match state.locks[lockId]? with
  | none => .error (.LockNotFound lockId)
  | some lock =>
      if lock.agentId ≠ agentId then .error (.LockOwnership lockId lock.agentId agentId)
      else .ok lock

def drainWatcherEvents (state : SessionState W T F) (lockId : String) :
    Nat × SessionState W T F :=
  let kept := state.pendingWatcherEvents.filter fun event => event != lockId
  (state.pendingWatcherEvents.length - kept.length, { state with pendingWatcherEvents := kept })

variable [LockF32 W F] [Zero W]

def handleLockDiff (state : SessionState W T F) (agentId lockId : String) (nowMs : Nat) :
    Except LockError (LockDiffOutput F × SessionState W T F) := do
  let lock ← requireLock state agentId lockId
  let (currentNodes, currentEdges) ←
    captureBaseline state.graph state.perspectiveLimits lock.scope
  let limits := state.perspectiveLimits
  let whole := computeDiff W lockId lock currentNodes currentEdges
  let diffTruncated := decide (limits.maxLockDiffNewNodes < whole.newNodes.length) ||
    decide (limits.maxLockDiffNewEdges < whole.newEdges.length) ||
    decide (limits.maxLockDiffNewEdges < whole.boundaryEdgesAdded.length)
  let diff := truncateDiff limits whole
  let (drained, state) := drainWatcherEvents state lockId
  let state := { state with locks := state.locks.insert lockId { lock with lastDiffMs := nowMs } }
  let (proofState, nextSuggestedTool, nextSuggestedTarget, nextStepHint) := lockDiffContract diff
  .ok ({
    diff := diff
    diffTruncated := diffTruncated
    watcherEventsDrained := drained
    rebaseSuggested :=
      if lock.baselineStale then
        some ("Review the reported changes, then call lock_rebase only if accepting a new " ++
          "baseline.")
      else none
    proofState := proofState
    nextSuggestedTool := nextSuggestedTool
    nextSuggestedTarget := nextSuggestedTarget
    nextStepHint := nextStepHint }, state)

structure LockRebaseOutput where
  lockId : String
  previousGeneration : Nat
  newGeneration : Nat
  baselineNodes : Nat
  baselineEdges : Nat
  watcherPreserved : Bool
  proofState : String
  nextSuggestedTool : Option String
  nextSuggestedTarget : Option String
  nextStepHint : Option String

def handleLockRebase (state : SessionState W T F) (agentId lockId : String) (nowMs : Nat) :
    Except LockError (LockRebaseOutput × SessionState W T F) := do
  let lock ← requireLock state agentId lockId
  let (nodes, edges) ← captureBaseline state.graph state.perspectiveLimits lock.scope
  if nodes.isEmpty then
    .error (.InvalidParams "lock_rebase" ("The observed scope no longer exists. Inspect the " ++
      "removal diff, then release this lock or create a new scope."))
  else if state.perspectiveLimits.maxLockBaselineNodes < nodes.size then
    .error (.LockScopeTooLarge nodes.size state.perspectiveLimits.maxLockBaselineNodes)
  else
    let rebased := {
      lock with
      baseline := {
        nodes := nodes
        edges := edges
        graphGeneration := state.graphGeneration
        capturedAtMs := nowMs
        keyFormat := "v2_directed_external" }
      baselineStale := false
      lastDiffMs := nowMs }
    .ok ({
      lockId := lockId
      previousGeneration := lock.baseline.graphGeneration
      newGeneration := state.graphGeneration
      baselineNodes := nodes.size
      baselineEdges := edges.size
      watcherPreserved := lock.watcher.isSome
      proofState := "triaging"
      nextSuggestedTool := some "lock_diff"
      nextSuggestedTarget := some lockId
      nextStepHint := some ("The lock baseline is fresh again. Diff it after the next " ++
        "structural change to detect drift.") },
      { state with locks := state.locks.insert lockId rebased })

end Handlers

end M1nd.Mcp
