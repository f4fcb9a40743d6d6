import M1nd.Core.Antibody
import Mathlib.Algebra.Order.Field.Basic
import Mathlib.Data.Rat.Floor
import Std.Data.ExtTreeSet

namespace M1nd.Core

def DEFAULT_MAX_DEPTH : Nat := 15

def MAX_PARTICLES : Nat := 100

def MAX_ACTIVE_PARTICLES : Nat := 10000

def DEFAULT_LOCK_PATTERNS : List String :=
  ["asyncio\\.Lock", "threading\\.Lock", "Mutex", "RwLock", "Semaphore", "asyncio\\.Semaphore",
    "Lock\\(\\)", "\\.acquire\\(", "\\.lock\\("]

def DEFAULT_READ_ONLY_PATTERNS : List String :=
  ["get_", "read_", "fetch_", "list_", "is_", "has_", "check_", "count_", "len\\(", "\\bGET\\b",
    "select ", "SELECT "]

inductive TurbulenceSeverity
  | Critical
  | High
  | Medium
  | Low
deriving DecidableEq

structure TurbulencePoint (K : Type) where
  node : Nat
  nodeLabel : String
  particleCount : Nat
  hasLock : Bool
  isReadOnly : Bool
  turbulenceScore : K
  severity : TurbulenceSeverity
  entryPairs : List (String × String)
  nearestUpstreamLock : Option String
  paths : List (List String)
deriving DecidableEq

structure ValvePoint where
  node : Nat
  nodeLabel : String
  lockType : String
  particlesSerialized : Nat
  downstreamProtected : Nat
deriving DecidableEq

structure ProtectedNode (K : Type) where
  nodeLabel : String
  lockIds : List String
  originalScore : Option K
  suppressed : Bool
deriving DecidableEq

structure FlowSummary (K : Type) where
  totalEntryPoints : Nat
  totalParticles : Nat
  totalNodesVisited : Nat
  turbulenceCount : Nat
  valveCount : Nat
  advisoryLockProtectedCount : Nat
  coveragePct : K
deriving DecidableEq

structure FlowSimulationResult (K : Type) where
  turbulencePoints : List (TurbulencePoint K)
  valvePoints : List ValvePoint
  protectedNodes : List (ProtectedNode K)
  summary : FlowSummary K
deriving DecidableEq

structure FlowConfig (K : Type) where
  lockPatterns : List String
  readOnlyPatterns : List String
  maxDepth : Nat
  turbulenceThreshold : K
  includePaths : Bool
  maxParticles : Nat
  minEdgeWeight : K
  maxTotalSteps : Nat
  scopeFilter : Option String
  advisoryLockProtectedNodes : Std.ExtTreeMap String (List String)

inductive FlowError
  | NoEntryPoints
deriving DecidableEq

structure Particle where
  id : Nat
  origin : Nat
  path : List Nat
  position : Nat
  depth : Nat
  serializedBy : Option Nat
  visited : List Bool

structure ParticleArrival where
  origin : Nat
  particleId : Nat
  serializedBy : Option Nat
  path : List Nat
deriving DecidableEq

-- The arrivals at the nodes, the valves with what they serialized, and the counters. Nothing reads
-- whether a limit has cut the search of a particle short.
structure FlowState where
  accumulator : List (List ParticleArrival)
  valves : Std.ExtTreeMap Nat (String × Nat)
  globalVisited : List Bool
  totalParticlesSpawned : Nat
  globalSteps : Nat
  cut : Bool

-- The search of one particle. It stops where it hits a limit.
structure FlowRun where
  flow : FlowState
  queue : List Particle
  activeCount : Nat
  stopped : Bool

namespace FlowState

def new (n : Nat) : FlowState where
  accumulator := List.replicate n []
  valves := ∅
  globalVisited := List.replicate n false
  totalParticlesSpawned := 0
  globalSteps := 0
  cut := false

def record (flow : FlowState) (node : Nat) (arrival : ParticleArrival) : FlowState :=
  { flow with
    accumulator := flow.accumulator.modify node (· ++ [arrival])
    globalVisited := flow.globalVisited.set node true }

def recordSerialization (flow : FlowState) (node : Nat) (lockType : String) : FlowState :=
  let entry := (flow.valves[node]?).getD (lockType, 0)
  { flow with valves := flow.valves.insert node (entry.1, entry.2 + 1) }

end FlowState

-- f32 is exact here, in any ordered field.
variable {K T : Type} [Field K] [LinearOrder K]

def FlowConfig.withDefaults : FlowConfig K where
  lockPatterns := DEFAULT_LOCK_PATTERNS
  readOnlyPatterns := DEFAULT_READ_ONLY_PATTERNS
  maxDepth := DEFAULT_MAX_DEPTH
  turbulenceThreshold := 0.5
  includePaths := true
  maxParticles := MAX_PARTICLES
  minEdgeWeight := 0.1
  maxTotalSteps := 50000
  scopeFilter := none
  advisoryLockProtectedNodes := ∅

section Texts

variable [Lowercase]

def textContains (text pattern : String) : Bool :=
  pattern.toList <:+: text.toList

-- No backslash is left for the second replacement.
def flowCleanPattern (pat : String) : String :=
  String.ofList ((Lowercase.toLowercase pat).toList.filter fun c => c ∉ ['\\', '^', '$'])

def flowMatchesAnyPattern (text : String) (patterns : List String) : Option String :=
  patterns.find? fun pat => textContains (Lowercase.toLowercase text) (flowCleanPattern pat)

variable (graph : Graph K T)

def flowNodeLabel (node : Nat) : Option String :=
  if node < graph.nodes.count then do
    let handle ← graph.nodes.label[node]?
    graph.strings.tryResolve handle
  else some ("node_" ++ toString node)

def flowNodeText (node : Nat) : Option String :=
  if graph.nodes.count ≤ node then some ""
  else do
    let handle ← graph.nodes.label[node]?
    let label ← graph.strings.tryResolve handle
    let provenance ← graph.nodes.provenance[node]?
    let excerpt ← match provenance.excerpt with
      | none => some ""
      | some e => graph.strings.tryResolve e
    some (label ++ " " ++ excerpt)

-- What a test finds in the texts of the ends of the edges of a node.
def findInTargets (node : Nat) (test : String → Option String) : Option (Option String) :=
  if node < graph.nodes.count then
    (graph.csr.outRange node).findSomeM? fun j => do
      let target ← graph.csr.targets[j]?
      (flowNodeText graph target).map test
  else some none

def heuristicKeywords : List String :=
  ["lock", "mutex", "guard", "semaphore", "synchronize", "serialize"]

-- A node with an edge to a lock is a valve, too.
def flowIsValve (config : FlowConfig K) (node : Nat) : Option (Option String) := do
  let text ← flowNodeText graph node
  match flowMatchesAnyPattern text config.lockPatterns with
  | some pat => some (some pat)
  | none =>
      match ← findInTargets graph node (flowMatchesAnyPattern · config.lockPatterns) with
      | some pat => some (some pat)
      | none =>
          some ((heuristicKeywords.find? (textContains (Lowercase.toLowercase text))).map
            ("heuristic:" ++ ·))

def writerWords : List String :=
  ["set_", "write_", "update_", "delete_", "insert_", "put_", "remove_", "mutate"]

def flowIsReadOnly (config : FlowConfig K) (node : Nat) : Option Bool := do
  let text ← flowNodeText graph node
  if flowMatchesAnyPattern text config.readOnlyPatterns = none then some false
  else
    (findInTargets graph node fun targetText =>
      writerWords.find? (textContains (Lowercase.toLowercase targetText))).map Option.isNone

def flowFindNearestUpstreamLock (path : List Nat) (config : FlowConfig K) : Option (Option Nat) :=
  path.reverse.findSomeM? fun node =>
    (flowIsValve graph config node).map fun lock => lock.map fun _ => node

end Texts

section Degrees

variable (graph : Graph K T)

def downstreamTarget (found : List Bool × List Nat) (target : Nat) : List Bool × List Nat :=
  if found.1[target]? = some false then (found.1.set target true, found.2 ++ [target]) else found

-- The queue holds one level after the other.
def countDownstream : Nat → List Bool → List Nat → Nat → Option Nat
  | 0, _, _, count => some count
  | depth + 1, visited, level, count => do
      let found ← level.foldlM (fun found current => (graph.csr.outRange current).foldlM
        (fun found j => (graph.csr.targets[j]?).map (downstreamTarget found)) found) (visited, [])
      countDownstream depth found.1 found.2 (count + found.2.length)

def flowCountDownstream (node maxDepth : Nat) : Option Nat :=
  if graph.numNodes ≤ node then some 0
  else countDownstream graph maxDepth ((List.replicate graph.numNodes false).set node true) [node] 0

def flowInDegree (node : Nat) : Nat :=
  if graph.nodes.count ≤ node then 0 else (graph.csr.inRange node).length

def flowMaxInDegree : Nat :=
  (List.range graph.numNodes).foldl (fun maxDeg node => max maxDeg (flowInDegree graph node)) 1

end Degrees

namespace FlowEngine

variable [Lowercase] (graph : Graph K T) (config : FlowConfig K)

-- A dense graph gets a smaller budget. f64 is exact here.
def stepBudget : Nat :=
  let density : Rat := graph.csr.numEdges / graph.numNodes
  let budgetScale : Rat := if 10 < density then max (10 / density) (1 / 10) else 1
  max (config.maxTotalSteps * budgetScale).floor.toNat 1000

def scopeAllowed : Option (Option (List Bool)) :=
  match config.scopeFilter with
  | none => some none
  | some filter => do
      let allowed ← (List.range graph.numNodes).mapM fun i => do
        let handle ← graph.nodes.label[i]?
        let label ← graph.strings.tryResolve handle
        some (containsLowercase label filter)
      some (some allowed)

-- The end of an edge that particles go along.
def followedTarget (allowed : Option (List Bool)) (j : Nat) : Option (Option Nat) := do
  let inhibitory ← graph.csr.inhibitory[j]?
  if inhibitory = true then some none
  else do
    let weight ← graph.csr.weights[EdgeIdx.new j]?
    if weight < config.minEdgeWeight then some none
    else do
      let target ← graph.csr.targets[j]?
      if graph.numNodes ≤ target then some none
      else
        match allowed with
        | none => some (some target)
        | some allowed => (allowed[target]?).map fun inScope =>
            if inScope = true then some target else none

def extendedPath (particle : Particle) (target : Nat) : List Nat :=
  if config.includePaths = true then particle.path ++ [target] else []

-- What the end of an edge does to a search.
def visit (particle : Particle) (serializedBy : Option Nat) (run : FlowRun) (target : Nat) :
    FlowRun :=
  let path := extendedPath config particle target
  let arrival : ParticleArrival :=
    { origin := particle.origin, particleId := particle.id, serializedBy := serializedBy,
      path := path }
  if particle.visited[target]? = some true then
    { run with flow := run.flow.record target arrival }
  else if MAX_ACTIVE_PARTICLES ≤ run.activeCount then { run with stopped := true }
  else
    { run with
      flow := run.flow.record target arrival
      queue := run.queue ++ [{
        id := particle.id
        origin := particle.origin
        path := path
        position := target
        depth := particle.depth + 1
        serializedBy := serializedBy
        visited := particle.visited.set target true }]
      activeCount := run.activeCount + 1 }

def followEdge (allowed : Option (List Bool)) (maxTotalSteps : Nat) (particle : Particle)
    (serializedBy : Option Nat) (run : FlowRun) (j : Nat) : Option FlowRun :=
  if run.stopped = true then some run
  else
    let run := { run with flow := { run.flow with globalSteps := run.flow.globalSteps + 1 } }
    if maxTotalSteps ≤ run.flow.globalSteps then some { run with stopped := true }
    else do
      match ← followedTarget graph config allowed j with
      | none => some run
      | some target => some (visit config particle serializedBy run target)

-- A particle that a valve serializes stays serialized.
def passValve (particle : Particle) (flow : FlowState) : Option (Option Nat × FlowState) := do
  match ← flowIsValve graph config particle.position with
  | none => some (particle.serializedBy, flow)
  | some lockType =>
      some (some particle.position, flow.recordSerialization particle.position lockType)

-- Each particle in the queue has been counted, so that their limit is enough fuel.
def drain (allowed : Option (List Bool)) (maxTotalSteps : Nat) : Nat → FlowRun → Option FlowRun
  | fuel, run =>
      match run.queue with
      | [] => some run
      | particle :: queue =>
          match fuel with
          | 0 => none
          | fuel + 1 =>
              let run := { run with queue := queue }
              if config.maxDepth ≤ particle.depth ∨ graph.numNodes ≤ particle.position then
                drain allowed maxTotalSteps fuel run
              else do
                let (serializedBy, flow) ← passValve graph config particle run.flow
                let run := { run with flow := flow }
                if maxTotalSteps ≤ run.flow.globalSteps then some { run with stopped := true }
                else do
                  let run ← (graph.csr.outRange particle.position).foldlM
                    (followEdge graph config allowed maxTotalSteps particle serializedBy) run
                  if run.stopped = true ∨ MAX_ACTIVE_PARTICLES ≤ run.activeCount ∨
                      maxTotalSteps ≤ run.flow.globalSteps then some { run with stopped := true }
                  else drain allowed maxTotalSteps fuel run

def initialParticle (n entry pid : Nat) : Particle where
  id := pid
  origin := entry
  path := [entry]
  position := entry
  depth := 0
  serializedBy := none
  visited := (List.replicate n false).set entry true

def spawn (allowed : Option (List Bool)) (maxTotalSteps entry : Nat) (flow : FlowState) :
    Option FlowState := do
  let pid := flow.totalParticlesSpawned + 1
  let flow := { flow with totalParticlesSpawned := pid }.record entry
    { origin := entry, particleId := pid, serializedBy := none, path := [entry] }
  let run ← drain graph config allowed maxTotalSteps MAX_ACTIVE_PARTICLES
    { flow := flow, queue := [initialParticle graph.numNodes entry pid], activeCount := 1,
      stopped := false }
  some { run.flow with cut := run.flow.cut || run.stopped }

def spawnAll (allowed : Option (List Bool)) (maxTotalSteps numParticles : Nat) (flow : FlowState)
    (entry : Nat) : Option FlowState :=
  if graph.numNodes ≤ entry then some flow
  else (List.range numParticles).foldlM (fun flow _ =>
    spawn graph config allowed maxTotalSteps entry flow) flow

-- The arrivals of the particles of all entries.
def propagate (entryNodes : List Nat) (numParticles : Nat) : Option FlowState := do
  let allowed ← scopeAllowed graph config
  entryNodes.foldlM
    (spawnAll graph config allowed (stepBudget graph config) (min numParticles config.maxParticles))
    (.new graph.numNodes)

def origins (arrivals : List ParticleArrival) : Std.ExtTreeSet Nat :=
  Std.ExtTreeSet.ofList (arrivals.map ParticleArrival.origin)

def originsUnserialized (arrivals : List ParticleArrival) : Std.ExtTreeSet Nat :=
  origins (arrivals.filter fun arrival => arrival.serializedBy.isNone)

def flowTurbulentNodes (accumulator : List (List ParticleArrival)) :
    List (Nat × List ParticleArrival) :=
  (accumulator.zipIdx.filter fun entry => 1 < (origins entry.1).size).map Prod.swap

def particleCount (arrivals : List ParticleArrival) : Nat :=
  if 1 < (originsUnserialized arrivals).size then (originsUnserialized arrivals).size
  else (origins arrivals).size

def nearestLock (arrivals : List ParticleArrival) : Option (Option Nat) :=
  arrivals.findSomeM? fun arrival => flowFindNearestUpstreamLock graph arrival.path config

-- How the node of a candidate is accessed.
structure Access (K : Type) where
  hasLock : Bool
  nearestLock : Option Nat
  isReadOnly : Bool
  centrality : K

def Access.lockFactor (access : Access K) : K :=
  if access.hasLock = true then 0 else if access.nearestLock.isSome then 0.3 else 1

-- The factors of a score that do not depend on locks.
def openScore (numParticles count : Nat) (access : Access K) : K :=
  let baseScore : K := min (count / max numParticles 1) 1
  let readFactor : K := if access.isReadOnly = true then 0.2 else 1
  let centralityFactor : K := 0.5 + 0.5 * access.centrality
  let utilityFactor : K :=
    if access.isReadOnly = true ∧ 0.9 < access.centrality then 0.1 else 1
  baseScore * readFactor * centralityFactor * utilityFactor

def advisoryFactor (isAdvisoryProtected : Bool) : K :=
  if isAdvisoryProtected = true then 0.15 else 1

def severityOf (score : K) (count : Nat) (access : Access K) (isAdvisoryProtected : Bool) :
    TurbulenceSeverity :=
  if 0.8 ≤ score ∧ 3 ≤ count ∧ access.nearestLock = none ∧ access.hasLock = false ∧
      isAdvisoryProtected = false then .Critical
  else if 0.6 ≤ score then .High
  else if 0.3 ≤ score then .Medium
  else .Low

def accessOf (node : Nat) (arrivals : List ParticleArrival) : Option (Access K) := do
  let lock ← flowIsValve graph config node
  let isReadOnly ← flowIsReadOnly graph config node
  let nearest ← nearestLock graph config arrivals
  some {
    hasLock := lock.isSome
    nearestLock := nearest
    isReadOnly := isReadOnly
    centrality := flowInDegree graph node / max (flowMaxInDegree graph) 1 }

def pairsOf : List String → List (String × String)
  | [] => []
  | label :: rest => rest.map (fun other => (label, other)) ++ pairsOf rest

def entryPairs (arrivals : List ParticleArrival) : Option (List (String × String)) :=
  ((origins arrivals).toList.mapM (flowNodeLabel graph)).map pairsOf

def pathLabels (arrivals : List ParticleArrival) : Option (List (List String)) :=
  if config.includePaths = true then
    (arrivals.filter fun arrival => arrival.path ≠ []).mapM fun arrival =>
      arrival.path.mapM (flowNodeLabel graph)
  else some []

-- What is reported of a candidate: its protection, and the point if its score is high enough.
def assess (numParticles : Nat) (candidate : Nat × List ParticleArrival) :
    Option (Option (ProtectedNode K) × Option (TurbulencePoint K)) := do
  let nodeLabel ← flowNodeLabel graph candidate.1
  let access ← accessOf graph config candidate.1 candidate.2
  let lockIds := (config.advisoryLockProtectedNodes[nodeLabel]?).getD []
  let isAdvisoryProtected := !lockIds.isEmpty
  let count := particleCount candidate.2
  let preAdvisoryScore := openScore numParticles count access * access.lockFactor
  let score := preAdvisoryScore * advisoryFactor isAdvisoryProtected
  let protectedNode : Option (ProtectedNode K) :=
    if isAdvisoryProtected = true then some {
      nodeLabel := nodeLabel
      lockIds := lockIds
      originalScore := some preAdvisoryScore
      suppressed := score < config.turbulenceThreshold ∧
        config.turbulenceThreshold ≤ preAdvisoryScore }
    else none
  if score < config.turbulenceThreshold then some (protectedNode, none)
  else do
    let pairs ← entryPairs graph candidate.2
    let paths ← pathLabels graph config candidate.2
    let nearestLabel ← match access.nearestLock with
      | none => some none
      | some lock => (flowNodeLabel graph lock).map some
    some (protectedNode, some {
      node := candidate.1
      nodeLabel := nodeLabel
      particleCount := count
      hasLock := access.hasLock
      isReadOnly := access.isReadOnly
      turbulenceScore := score
      severity := severityOf score count access isAdvisoryProtected
      entryPairs := pairs
      nearestUpstreamLock := nearestLabel
      paths := paths })

def valvePoint (entry : Nat × String × Nat) : Option ValvePoint := do
  let nodeLabel ← flowNodeLabel graph entry.1
  let downstream ← flowCountDownstream graph entry.1 config.maxDepth
  some {
    node := entry.1
    nodeLabel := nodeLabel
    lockType := entry.2.1
    particlesSerialized := entry.2.2
    downstreamProtected := downstream }

def turbulencePoints (assessed : List (Option (ProtectedNode K) × Option (TurbulencePoint K))) :
    List (TurbulencePoint K) :=
  (assessed.filterMap Prod.snd).mergeSort fun a b =>
    b.turbulenceScore < a.turbulenceScore ∨
      a.turbulenceScore = b.turbulenceScore ∧ a.node ≤ b.node

def protectedNodes (assessed : List (Option (ProtectedNode K) × Option (TurbulencePoint K))) :
    List (ProtectedNode K) :=
  (assessed.filterMap Prod.fst).mergeSort fun a b => a.nodeLabel ≤ b.nodeLabel

def simulate (entryNodes : List Nat) (numParticles : Nat) :
    Option (Except FlowError (FlowSimulationResult K)) :=
  if graph.numNodes = 0 ∨ entryNodes = [] then some (.error .NoEntryPoints)
  else do
    let flow ← propagate graph config entryNodes numParticles
    let assessed ← (flowTurbulentNodes flow.accumulator).mapM
      (assess graph config (min numParticles config.maxParticles))
    let valvePoints ← flow.valves.toList.mapM (valvePoint graph config)
    let visitedCount := flow.globalVisited.count true
    some (.ok {
      turbulencePoints := turbulencePoints assessed
      valvePoints := valvePoints
      protectedNodes := protectedNodes assessed
      summary := {
        totalEntryPoints := entryNodes.length
        totalParticles := flow.totalParticlesSpawned
        totalNodesVisited := visitedCount
        turbulenceCount := (turbulencePoints assessed).length
        valveCount := valvePoints.length
        advisoryLockProtectedCount := (protectedNodes assessed).length
        coveragePct := visitedCount / graph.numNodes } })

end FlowEngine

end M1nd.Core
