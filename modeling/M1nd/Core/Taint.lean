import M1nd.Core.Epidemic
import M1nd.Core.Flow

namespace M1nd.Core

inductive TaintType
  | UserInput
  | SensitiveData
  | Custom (boundaryPatterns : List String)

structure TaintConfig (K : Type) where
  maxDepth : Nat
  numParticles : Nat
  epidemicIterations : Nat
  minProbability : K
  taintType : TaintType

structure BoundaryCheck (K : Type) where
  nodeId : String
  label : String
  boundaryType : String
  taintReached : Bool
  infectionProbability : K

structure TaintLeak (K : Type) where
  entryNode : String
  exitNode : String
  probability : K
  path : List String

structure TaintSummary (K : Type) where
  entryPoints : Nat
  totalNodesReached : Nat
  boundaryHits : Nat
  boundaryMisses : Nat
  leaksFound : Nat
  maxInfectionProbability : K

structure TaintResult (K : Type) where
  boundaryHits : List (BoundaryCheck K)
  boundaryMisses : List (BoundaryCheck K)
  leaks : List (TaintLeak K)
  flowResult : FlowSimulationResult K
  epidemicResult : EpidemicResult K
  riskScore : K
  summary : TaintSummary K

inductive TaintError (K : Type)
  | NoEntryPoints
  | Epidemic (error : EpidemicError K)

section Patterns

def defaultBoundaryPatterns : TaintType → List String
  | .UserInput =>
      ["validate", "sanitize", "escape", "encode", "clean", "filter", "check_input", "verify",
        "parse_input", "whitelist", "allowlist", "blocklist", "blacklist", "csrf", "xss",
        "sql_injection", "injection"]
  | .SensitiveData =>
      ["auth", "authenticate", "authorize", "verify_token", "check_permission", "check_role",
        "is_admin", "encrypt", "decrypt", "hash", "hmac", "sign", "mask", "redact", "anonymize",
        "obfuscate", "access_control", "permission", "credential"]
  | .Custom _ => []

def customPatterns : TaintType → List String
  | .Custom boundaryPatterns => boundaryPatterns
  | _ => []

variable [Lowercase]

def detectBoundaryType (labelLower : String) (defaultPatterns customPatterns : List String) :
    Option String :=
  (defaultPatterns.find? (textContains labelLower)).or
    (customPatterns.find? fun pattern => textContains labelLower (Lowercase.toLowercase pattern))

def boundaryTypeOf (taintType : TaintType) (label : String) : Option String :=
  detectBoundaryType (Lowercase.toLowercase label) (defaultBoundaryPatterns taintType)
    (customPatterns taintType)

end Patterns

-- f32 is exact here, in any ordered field.
variable {K T : Type} [Field K] [LinearOrder K]

namespace TaintEngine

section Phases

def flowConfigOf (config : TaintConfig K) : FlowConfig K :=
  { FlowConfig.withDefaults with maxDepth := min config.maxDepth 255 }

def epidemicConfigOf (config : TaintConfig K) : EpidemicConfig K where
  infectionRate := none
  iterations := config.epidemicIterations
  direction := .Forward
  topK := 200
  burnoutThreshold := 1
  promotionThreshold := 0.5

variable (config : TaintConfig K) (predictions : List (EpidemicPrediction K))

def infectedNodes : List String :=
  (predictions.filter fun p => config.minProbability ≤ p.infectionProbability).map
    EpidemicPrediction.nodeId

-- Entries behind the nodes have no external id, and an empty one does not count.
def seedExtIds (nodeToExt : List String) (entryNodeIds : List Nat) : List String :=
  (entryNodeIds.filterMap fun nid => nodeToExt[nid]?).filter fun s => !s.isEmpty

def boundaryCheck [Lowercase] (graph : Graph K T) (nodeToExt seeds : List String) (i : Nat) :
    Option (Option (BoundaryCheck K)) := do
  let label ← nodeLabel graph i
  let extId := nodeToExt.getD i ""
  some ((boundaryTypeOf config.taintType label).map fun btype => {
    nodeId := extId
    label := label
    boundaryType := btype
    taintReached := decide (extId ∈ seeds) || decide (extId ∈ infectedNodes config predictions)
    infectionProbability :=
      if extId ∈ seeds then 1
      else ((predictions.find? fun p => p.nodeId = extId).map
        EpidemicPrediction.infectionProbability).getD 0 })

-- An infected node that is no boundary and has none on its transmission path.
def leakOf (boundaryExtIds : List String) (pred : EpidemicPrediction K) : Option (TaintLeak K) :=
  if pred.infectionProbability < config.minProbability then none
  else if pred.nodeId ∈ boundaryExtIds then none
  else if !(pred.transmissionPath.any fun node => node ∈ boundaryExtIds) &&
      !pred.transmissionPath.isEmpty then
    some {
      entryNode := pred.transmissionPath.head?.getD ""
      exitNode := pred.nodeId
      probability := pred.infectionProbability
      path := pred.transmissionPath }
  else none

def leaksOf (boundaryExtIds : List String) : List (TaintLeak K) :=
  (predictions.filterMap (leakOf config boundaryExtIds)).mergeSort fun a b =>
    b.probability ≤ a.probability

end Phases

-- The natural logarithm.
variable (root ln : K → K)

def computeRiskScore (hits misses : List (BoundaryCheck K)) (leaks : List (TaintLeak K))
    (epidemic : EpidemicResult K) : K :=
  let totalBoundaries := hits.length + misses.length
  let missRatio := if 0 < totalBoundaries then (misses.length / totalBoundaries : K) else 0.5
  let leakFactor := if leaks.isEmpty then 0 else ln (1 + leaks.length) / ln (1 + (100 : Nat))
  let summary := epidemic.summary
  let total := summary.totalSusceptible + summary.totalInfected + summary.totalRecovered
  let spreadFactor := if 0 < summary.totalInfected then
    (if 0 < total then (summary.totalInfected / total : K) else 0) else 0
  sirClamp (0.4 * missRatio + 0.35 * leakFactor + 0.25 * spreadFactor) 0 1

variable [Lowercase] (graph : Graph K T) (entryNodeIds : List Nat) (config : TaintConfig K)

-- The loop over the external ids is that of `sirBuildNodeToExt`.
def verdictsOf (flowResult : FlowSimulationResult K) (epidemicResult : EpidemicResult K) :
    Option (TaintResult K) := do
  let nodeToExt ← sirBuildNodeToExt graph
  let seeds := seedExtIds nodeToExt entryNodeIds
  let checks ← (List.range graph.numNodes).mapM
    (boundaryCheck config epidemicResult.predictions graph nodeToExt seeds)
  let checks := checks.filterMap id
  let hits := checks.filter BoundaryCheck.taintReached
  let misses := checks.filter fun check => !check.taintReached
  let leaks := leaksOf config epidemicResult.predictions ((hits ++ misses).map BoundaryCheck.nodeId)
  let largest := (epidemicResult.predictions.head?.map
    EpidemicPrediction.infectionProbability).getD 0
  some {
    boundaryHits := hits
    boundaryMisses := misses
    leaks := leaks
    flowResult := flowResult
    epidemicResult := epidemicResult
    riskScore := computeRiskScore ln hits misses leaks epidemicResult
    summary := {
      entryPoints := entryNodeIds.length
      totalNodesReached := epidemicResult.predictions.length + entryNodeIds.length
      boundaryHits := hits.length
      boundaryMisses := misses.length
      leaksFound := leaks.length
      maxInfectionProbability := max largest (if seeds.isEmpty then 0 else 1) } }

def analyze : Option (Except (TaintError K) (TaintResult K)) :=
  if entryNodeIds = [] then some (.error .NoEntryPoints)
  else do
    match ← FlowEngine.simulate graph (flowConfigOf config) entryNodeIds config.numParticles with
    | .error _ => some (.error .NoEntryPoints)
    | .ok flowResult => do
        match ← EpidemicEngine.simulate root graph entryNodeIds [] (epidemicConfigOf config) with
        | .error error => some (.error (.Epidemic error))
        | .ok epidemicResult =>
            (verdictsOf ln graph entryNodeIds config flowResult epidemicResult).map .ok

end TaintEngine

end M1nd.Core
