import M1nd.Core.Plasticity

namespace M1nd.Core

inductive ImpactDirection
  | Forward
  | Reverse
  | Both
deriving DecidableEq

structure ImpactEntry where
  node : Nat
  signalStrength : Rat
  hopDistance : Nat
deriving DecidableEq

structure ImpactResult where
  source : Nat
  blastRadius : List ImpactEntry
  totalEnergy : Rat
  maxHopsReached : Nat

structure ImpactRadiusCalculator where
  maxHops : Nat
  minSignal : Rat

-- f32 is exact here.
def IMPACT_DECAY : Rat := 11 / 20

-- The best signals so far with their hop distances, and the nodes that got them on this level.
structure Wave where
  bestSignal : List Rat
  hopDist : List Nat
  next : List Nat
deriving DecidableEq

variable {T : Type}

section Slots

-- The end and the weight of a slot.
def readForward (graph : Graph Rat T) (j : Nat) : Option (Nat × Rat) := do
  let target ← graph.csr.targets[j]?
  let w ← graph.csr.weights[EdgeIdx.new j]?
  some (target, w)

def readReverse (graph : Graph Rat T) (j : Nat) : Option (Nat × Rat) := do
  let source ← graph.csr.revSources[j]?
  let forward ← graph.csr.revEdgeIdx[j]?
  let w ← graph.csr.weights[forward]?
  some (source, w)

end Slots

namespace ImpactRadiusCalculator

variable (calculator : ImpactRadiusCalculator)

-- A node that is not there is left out.
def arrive (depth : Nat) (signal : Rat) (wave : Wave) (hop : Nat × Rat) : Wave :=
  let newSignal := signal * hop.2 * IMPACT_DECAY
  match wave.bestSignal[hop.1]? with
  | none => wave
  | some best =>
      if calculator.minSignal < newSignal ∧ best < newSignal then {
        bestSignal := wave.bestSignal.set hop.1 newSignal
        hopDist := wave.hopDist.set hop.1 (depth + 1)
        next := wave.next ++ [hop.1] }
      else wave

def spreadForward (graph : Graph Rat T) (direction : ImpactDirection) (depth node : Nat)
    (signal : Rat) (wave : Wave) : Option Wave :=
  if direction ≠ .Reverse then
    (graph.csr.outRange node).foldlM
      (fun wave j => (readForward graph j).map (calculator.arrive depth signal wave)) wave
  else some wave

def spreadReverse (graph : Graph Rat T) (direction : ImpactDirection) (depth node : Nat)
    (signal : Rat) (wave : Wave) : Option Wave :=
  if direction ≠ .Forward then
    (graph.csr.inRange node).foldlM
      (fun wave j => (readReverse graph j).map (calculator.arrive depth signal wave)) wave
  else some wave

-- The signal of a node is the best one when it is its turn.
def expand (graph : Graph Rat T) (direction : ImpactDirection) (depth : Nat) (wave : Wave)
    (node : Nat) : Option Wave := do
  let signal ← wave.bestSignal[node]?
  let wave ← calculator.spreadForward graph direction depth node signal wave
  calculator.spreadReverse graph direction depth node signal wave

def level (graph : Graph Rat T) (direction : ImpactDirection) (depth : Nat) (frontier : List Nat)
    (wave : Wave) : Option Wave :=
  frontier.foldlM (calculator.expand graph direction depth) { wave with next := [] }

-- The levels that are left come first, then those that are made. The frontier is what the level
-- before has reached.
def levels (graph : Graph Rat T) (direction : ImpactDirection) :
    Nat → Nat → Wave → Option (Wave × Nat)
  | 0, depth, wave => some (wave, depth)
  | left + 1, depth, wave =>
      if wave.next = [] then some (wave, depth)
      else do
        let wave ← calculator.level graph direction depth wave.next wave
        levels graph direction left (depth + 1) wave

-- The hop distances that are not set are u8::MAX.
def start (graph : Graph Rat T) (source : Nat) : Wave where
  bestSignal := (List.replicate graph.numNodes 0).set source 1
  hopDist := (List.replicate graph.numNodes 255).set source 0
  next := [source]

def entryOf (source : Nat) (wave : Wave) (i : Nat) : Option ImpactEntry := do
  let best ← wave.bestSignal[i]?
  let hop ← wave.hopDist[i]?
  if i ≠ source ∧ calculator.minSignal < best then
    some { node := i, signalStrength := best, hopDistance := hop }
  else none

def resultOf (graph : Graph Rat T) (source : Nat) (wave : Wave) (maxHops : Nat) : ImpactResult :=
  let blastRadius := ((List.range graph.numNodes).filterMap (calculator.entryOf source wave)).mergeSort
    fun entry other => other.signalStrength ≤ entry.signalStrength
  { source := source
    blastRadius := blastRadius
    totalEnergy := (blastRadius.map ImpactEntry.signalStrength).sum
    maxHopsReached := maxHops }

def compute (graph : Graph Rat T) (source : Nat) (direction : ImpactDirection) :
    Option ImpactResult :=
  if graph.numNodes ≤ source then
    some { source := source, blastRadius := [], totalEnergy := 0, maxHopsReached := 0 }
  else (calculator.levels graph direction calculator.maxHops 0 (start graph source)).map
    fun reached => calculator.resultOf graph source reached.1 reached.2

end ImpactRadiusCalculator

end M1nd.Core
