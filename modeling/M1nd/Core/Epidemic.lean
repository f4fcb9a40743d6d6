import M1nd.Core.Neighbors
import M1nd.Library.Lineage
import Mathlib.Algebra.Order.Field.Basic

namespace M1nd.Core

open M1nd.Library.Flooding
open M1nd.Library.Lineage

inductive Compartment
  | Susceptible
  | Infected
  | Recovered
deriving DecidableEq

inductive EpidemicDirection
  | Forward
  | Backward
  | Both
deriving DecidableEq

structure EpidemicConfig (K : Type) where
  infectionRate : Option K
  iterations : Nat
  direction : EpidemicDirection
  topK : Nat
  burnoutThreshold : K
  promotionThreshold : K

structure EpidemicPrediction (K : Type) where
  nodeId : String
  label : String
  nodeType : String
  infectionProbability : K
  generation : Option Nat
  contributingInfected : List String
  transmissionPath : List String
  edgeWeightToNearest : K
deriving DecidableEq

structure EpidemicSummary (K : Type) where
  totalSusceptible : Nat
  totalInfected : Nat
  totalRecovered : Nat
  peakInfectionIteration : Nat
  r0Estimate : K
  epidemicExtinct : Bool
deriving DecidableEq

structure UnreachableComponent where
  representativeNode : String
  nodeCount : Nat
deriving DecidableEq

-- A warning names an infection rate and what it was clamped to.
structure EpidemicResult (K : Type) where
  predictions : List (EpidemicPrediction K)
  summary : EpidemicSummary K
  unreachableComponents : List UnreachableComponent
  warnings : List (K × K)
deriving DecidableEq

inductive EpidemicError (K : Type)
  | NoValidInfectedNodes
  | EpidemicBurnout (infectedPct : K) (iteration : Nat)
deriving DecidableEq

def MAX_ITERATIONS : Nat := 500

def BURNOUT_MIN_ITERATIONS : Nat := 10

def EXTINCTION_PLATEAU_ITERATIONS : Nat := 5

-- The arrays of a simulation. What is u32::MAX in them is `none` here.
structure EpidemicState (K : Type) where
  compartment : List Compartment
  probability : List K
  generation : List (Option Nat)
  parent : List (Option Nat)
  contributing : List (List Nat)
  edgeWeightNearest : List K
  newProbability : List K
deriving DecidableEq

-- What an infected node sends along one of its edges.
structure Transmission (K : Type) where
  src : Nat
  tgt : Nat
  pTransmit : K
  weight : K
deriving DecidableEq

structure EpidemicProgress (K : Type) where
  state : EpidemicState K
  peakInfected : Nat
  peakIteration : Nat
  totalNewInfections : Nat
  consecutiveZeroNew : Nat
  epidemicExtinct : Bool
deriving DecidableEq

-- f32 is exact here, in any ordered field.
variable {K T : Type} [Field K] [LinearOrder K]

def MAX_INFECTION_RATE : K := 0.95

def MIN_INFECTION_RATE : K := 0.001

def RECOVERED_FIREWALL_FACTOR : K := 0.5

def COUPLING_FACTORS : List (String × K) :=
  [("imports", 0.8), ("calls", 0.7), ("inherits", 0.6), ("references", 0.4),
    ("contains", 0.3), ("related_to", 0.2)]

def DEFAULT_COUPLING_FACTOR : K := 0.1

section Helpers

def sirCouplingFactor (relation : String) : K :=
  (COUPLING_FACTORS.lookup relation).getD DEFAULT_COUPLING_FACTOR

def sirClamp (v lo hi : K) : K :=
  if v < lo then lo else if hi < v then hi else v

def sirNodeTypeStr : NodeType → String
  | .File => "file"
  | .Directory => "directory"
  | .Function => "function"
  | .Class => "class"
  | .Struct => "struct"
  | .Enum => "enum"
  | .Type => "type"
  | .Module => "module"
  | .Reference => "reference"
  | .Concept => "concept"
  | .Material => "material"
  | .Process => "process"
  | .Product => "product"
  | .Supplier => "supplier"
  | .Regulatory => "regulatory"
  | .System => "system"
  | .Cost => "cost"
  | .Custom _ => "custom"

def sirBuildNodeToExt (graph : Graph K T) : Option (List String) :=
  graph.idToNode.toList.foldlM
    (fun nodeToExt entry => do
      let ext ← graph.strings.tryResolve entry.1
      some (if entry.2 < nodeToExt.length then nodeToExt.set entry.2 ext else nodeToExt))
    (List.replicate graph.numNodes "")

def sirReconstructPath (target : Nat) (parent : List (Option Nat)) (nodeToExt : List String) :
    List String :=
  ((climb parent parent.length target).map fun node => nodeToExt.getD node "").reverse

end Helpers

namespace EpidemicState

def susceptible (n : Nat) : EpidemicState K where
  compartment := List.replicate n .Susceptible
  probability := List.replicate n 0
  generation := List.replicate n none
  parent := List.replicate n none
  contributing := List.replicate n []
  edgeWeightNearest := List.replicate n 0
  newProbability := List.replicate n 0

def infect (n : Nat) (state : EpidemicState K) (idx : Nat) : EpidemicState K :=
  if idx < n then
    { state with
      compartment := state.compartment.set idx .Infected
      probability := state.probability.set idx 1
      generation := state.generation.set idx (some 0)
      parent := state.parent.set idx (some idx)
      contributing := state.contributing.set idx [idx] }
  else state

def recover (n : Nat) (state : EpidemicState K) (idx : Nat) : EpidemicState K :=
  if idx < n then
    { state with
      compartment := state.compartment.set idx .Recovered
      probability := state.probability.set idx 0
      generation := state.generation.set idx (some 0)
      parent := state.parent.set idx (some idx) }
  else state

def start (n : Nat) (infected recovered : List Nat) : EpidemicState K :=
  recovered.foldl (recover n) (infected.foldl (infect n) (susceptible n))

-- An iteration starts from the probabilities that there are.
def renew (state : EpidemicState K) : EpidemicState K :=
  { state with newProbability := state.probability }

-- The generation that a transmission brings to its target, if it is an earlier one.
def nearer (state : EpidemicState K) (t : Transmission K) : Option Nat :=
  match state.generation.getD t.src none, state.generation.getD t.tgt none with
  | none, _ => none
  | some srcGen, none => some (srcGen + 1)
  | some srcGen, some tgtGen => if srcGen + 1 < tgtGen then some (srcGen + 1) else none

-- The probabilities add up as those of independent events.
def receive (state : EpidemicState K) (t : Transmission K) : EpidemicState K :=
  let pNew := t.pTransmit * state.probability.getD t.src 0
  let oldP := state.newProbability.getD t.tgt 0
  { state with newProbability := state.newProbability.set t.tgt (1 - (1 - oldP) * (1 - pNew)) }

def record (state : EpidemicState K) (t : Transmission K) : EpidemicState K :=
  let received := state.receive t
  match state.nearer t with
  | none => received
  | some generation =>
      { received with
        generation := state.generation.set t.tgt (some generation)
        parent := state.parent.set t.tgt (some t.src)
        contributing := state.contributing.set t.tgt (state.contributing.getD t.src [])
        edgeWeightNearest := state.edgeWeightNearest.set t.tgt t.weight }

-- The susceptible nodes that have a probability now and had none.
def newInfections (state : EpidemicState K) : Nat :=
  (List.range state.compartment.length).countP fun i =>
    state.compartment[i]? = some .Susceptible ∧ 0 < state.newProbability.getD i 0 ∧
      state.probability.getD i 0 = 0

def promote (promotionThreshold : K) (state : EpidemicState K) : EpidemicState K :=
  { state with
    compartment := List.zipWith
      (fun c p => if c = .Susceptible ∧ promotionThreshold < p then .Infected else c)
      state.compartment state.newProbability
    probability := state.newProbability }

end EpidemicState

namespace EpidemicEngine

-- The square root of the degrees.
variable (root : K → K) (graph : Graph K T)

def edgeTransmissionProbability (edgeIdx : Nat) (uniformRate : Option K) : Option K :=
  match uniformRate with
  | some rate => some rate
  | none => do
      let weight ← graph.csr.weights[EdgeIdx.new edgeIdx]?
      let relation ← graph.csr.relations[edgeIdx]?
      let relationStr ← graph.strings.tryResolve relation
      some (sirClamp (weight * sirCouplingFactor relationStr) 0 MAX_INFECTION_RATE)

def sirComputeEdgeTransmission (edgeIdx : Nat) (uniformRate : Option K) (src : Nat)
    (compartment : List Compartment) : Option K := do
  let p ← edgeTransmissionProbability graph edgeIdx uniformRate
  let p := if compartment[src]? = some .Recovered then p * RECOVERED_FIREWALL_FACTOR else p
  let srcOutDegree := (graph.csr.outRange src).length
  some (if 1 < srcOutDegree then p / root srcOutDegree else p)

-- The neighbors of a node and the slots that carry the weights, the outgoing edges first.
def contacts (direction : EpidemicDirection) (src : Nat) : Option (List (Nat × Nat)) := do
  let forward ←
    if direction = .Backward then some []
    else (graph.csr.outRange src).mapM fun edgePos => do
      let tgt ← graph.csr.targets[edgePos]?
      some (tgt, edgePos)
  let backward ←
    if direction = .Forward then some []
    else (graph.csr.inRange src).mapM fun revPos => do
      let tgt ← graph.csr.revSources[revPos]?
      let fwdEdgeIdx ← graph.csr.revEdgeIdx[revPos]?
      some (tgt, fwdEdgeIdx)
  some (forward ++ backward)

def transmissionsOf (direction : EpidemicDirection) (uniformRate : Option K)
    (state : EpidemicState K) (src : Nat) : Option (List (Transmission K)) :=
  if state.compartment[src]? = some .Infected ∧ 0 < state.probability.getD src 0 then do
    let contacts ← contacts graph direction src
    (contacts.filter fun contact => state.compartment[contact.1]? = some .Susceptible).mapM
      fun contact => do
        let pTransmit ←
          sirComputeEdgeTransmission root graph contact.2 uniformRate src state.compartment
        let weight ← graph.csr.weights[EdgeIdx.new contact.2]?
        some { src := src, tgt := contact.1, pTransmit := pTransmit, weight := weight }
  else some []

-- Nothing that decides on the transmissions of an iteration changes before its end.
def transmissions (direction : EpidemicDirection) (uniformRate : Option K)
    (state : EpidemicState K) : Option (List (Transmission K)) :=
  ((List.range graph.numNodes).mapM (transmissionsOf root graph direction uniformRate state)).map
    List.flatten

def spread (direction : EpidemicDirection) (uniformRate : Option K) (state : EpidemicState K) :
    Option (EpidemicState K) :=
  (transmissions root graph direction uniformRate state).map
    (List.foldl EpidemicState.record state.renew)

def clampedRate (config : EpidemicConfig K) : Option K :=
  config.infectionRate.map fun r => sirClamp r MIN_INFECTION_RATE MAX_INFECTION_RATE

-- The distance from which on two rates differ is f32::EPSILON.
def warningsOf (config : EpidemicConfig K) : List (K × K) :=
  match config.infectionRate with
  | none => []
  | some r =>
      let clamped := sirClamp r MIN_INFECTION_RATE MAX_INFECTION_RATE
      if 1 / (2 ^ 23 : Nat) < max (clamped - r) (r - clamped) then [(r, clamped)] else []

-- The counters after an iteration that has spread so far.
def advance (promotionThreshold : K) (t : Nat) (progress : EpidemicProgress K)
    (state : EpidemicState K) : EpidemicProgress K :=
  let newInfections := state.newInfections
  let state := state.promote promotionThreshold
  let currentInfected := state.compartment.count .Infected
  { state := state
    peakInfected := max progress.peakInfected currentInfected
    peakIteration :=
      if progress.peakInfected < currentInfected then t + 1 else progress.peakIteration
    totalNewInfections := progress.totalNewInfections + newInfections
    consecutiveZeroNew := if newInfections = 0 then progress.consecutiveZeroNew + 1 else 0
    epidemicExtinct := progress.epidemicExtinct }

def infectedPct (state : EpidemicState K) : K :=
  state.compartment.count .Infected / max state.compartment.length 1

-- The iterations that are left come first, then the number of the one that comes.
def iterate (config : EpidemicConfig K) : Nat → Nat → EpidemicProgress K →
    Option (Except (EpidemicError K) (EpidemicProgress K))
  | 0, _, progress => some (.ok progress)
  | left + 1, t, progress => do
      let state ← spread root graph config.direction (clampedRate config) progress.state
      let progress := advance config.promotionThreshold t progress state
      let infectedPct := infectedPct progress.state
      if t < BURNOUT_MIN_ITERATIONS ∧ config.burnoutThreshold < infectedPct then
        some (.error (.EpidemicBurnout (infectedPct * 100) (t + 1)))
      else if state.newInfections = 0 ∧
          EXTINCTION_PLATEAU_ITERATIONS ≤ progress.consecutiveZeroNew then
        some (.ok { progress with epidemicExtinct := true })
      else iterate config left (t + 1) progress

def predictionIndices (infected recovered : List Nat) (config : EpidemicConfig K)
    (probability : List K) : List Nat :=
  (((List.range graph.numNodes).filter fun i =>
    i ∉ infected ∧ i ∉ recovered ∧ 0 < probability.getD i 0).mergeSort fun a b =>
      probability.getD b 0 ≤ probability.getD a 0).take config.topK

def predictionOf (nodeToExt : List String) (state : EpidemicState K) (i : Nat) :
    Option (EpidemicPrediction K) := do
  let interned ← graph.nodes.label[i]?
  let label ← graph.strings.tryResolve interned
  let nodeType ← graph.nodes.nodeType[i]?
  some {
    nodeId := nodeToExt.getD i ""
    label := label
    nodeType := sirNodeTypeStr nodeType
    infectionProbability := state.probability.getD i 0
    generation := state.generation.getD i none
    contributingInfected := ((state.contributing.getD i []).filter (· < graph.numNodes)).map
      fun c => nodeToExt.getD c ""
    transmissionPath := sirReconstructPath i state.parent nodeToExt
    edgeWeightToNearest := state.edgeWeightNearest.getD i 0 }

def summaryOf (initialInfected : Nat) (progress : EpidemicProgress K) : EpidemicSummary K :=
  let totalInfected := progress.state.compartment.count .Infected
  let totalRecovered := progress.state.compartment.count .Recovered
  { totalSusceptible := progress.state.compartment.length - totalInfected - totalRecovered
    totalInfected := totalInfected
    totalRecovered := totalRecovered
    peakInfectionIteration := progress.peakIteration
    r0Estimate := if 0 < initialInfected then progress.totalNewInfections / initialInfected else 0
    epidemicExtinct := progress.epidemicExtinct }

-- The marks of the nodes, and the components that are found.
def visitComponent (reachable : List Bool) (nodeToExt : List String)
    (found : List Bool × List UnreachableComponent) (origin : Nat) :
    Option (List Bool × List UnreachableComponent) :=
  if reachable.getD origin false = true ∨ found.1.getD origin false = true then some found
  else do
    let flood ←
      floodQueue graph.neighborsOf reachable graph.numNodes (startAt found.1 origin)
    some (flood.visited,
      if 0 < flood.left then found.2 ++ [⟨nodeToExt.getD origin "", flood.left⟩] else found.2)

def findUnreachableComponents (reachable : List Bool) : Option (List UnreachableComponent) := do
  let nodeToExt ← sirBuildNodeToExt graph
  let found ← (List.range graph.numNodes).foldlM (visitComponent graph reachable nodeToExt)
    (List.replicate graph.numNodes false, [])
  some found.2

def reachableOf (state : EpidemicState K) : List Bool :=
  List.zipWith (fun p c => decide (0 < p ∨ c ≠ .Susceptible)) state.probability state.compartment

def startProgress (infected recovered : List Nat) : EpidemicProgress K where
  state := .start graph.numNodes infected recovered
  peakInfected := infected.countP (· < graph.numNodes)
  peakIteration := 0
  totalNewInfections := 0
  consecutiveZeroNew := 0
  epidemicExtinct := false

def resultOf (infected recovered : List Nat) (config : EpidemicConfig K)
    (progress : EpidemicProgress K) : Option (EpidemicResult K) := do
  let nodeToExt ← sirBuildNodeToExt graph
  let predictions ← (predictionIndices graph infected recovered config
    progress.state.probability).mapM (predictionOf graph nodeToExt progress.state)
  let unreachableComponents ← findUnreachableComponents graph (reachableOf progress.state)
  some {
    predictions := predictions
    summary := summaryOf (infected.countP (· < graph.numNodes)) progress
    unreachableComponents := unreachableComponents
    warnings := warningsOf config }

def emptyResult (config : EpidemicConfig K) : EpidemicResult K where
  predictions := []
  summary := ⟨0, 0, 0, 0, 0, true⟩
  unreachableComponents := []
  warnings := warningsOf config

def simulate (infected recovered : List Nat) (config : EpidemicConfig K) :
    Option (Except (EpidemicError K) (EpidemicResult K)) :=
  if infected = [] then some (.error .NoValidInfectedNodes)
  else if graph.numNodes = 0 then some (.ok (emptyResult config))
  else do
    match ← iterate root graph config (min config.iterations MAX_ITERATIONS) 0
      (startProgress graph infected recovered) with
    | .error error => some (.error error)
    | .ok progress => (resultOf graph infected recovered config progress).map .ok

end EpidemicEngine

end M1nd.Core
