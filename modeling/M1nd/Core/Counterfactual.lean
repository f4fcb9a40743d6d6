import M1nd.Core.Impact
import M1nd.Core.Neighbors

namespace M1nd.Core

open M1nd.Library.Flooding

-- f32 is exact here. The bounds are those of the types of the decay and the threshold.
structure PropagationConfig where
  decay : Rat
  threshold : Rat
  maxDepth : Nat
  saturationCap : Rat
  inhibitoryFactor : Rat
  decay_pos : 0 < decay
  decay_le_one : decay ≤ 1
  threshold_pos : 0 < threshold

def REEXPANSION_MARGIN : Rat := 4 / 1000

abbrev Seeds := List (Nat × Rat)

-- The dense buffers of a propagation, and the frontier that is being filled.
structure Propagation where
  activation : List Rat
  visited : List Bool
  frontier : List Nat
deriving DecidableEq

variable {T : Type}

section Slots

-- The end of a slot, its weight, and whether it inhibits.
def readSlot (graph : Graph Rat T) (j : Nat) : Option (Nat × Rat × Bool) := do
  let tgt ← graph.csr.targets[j]?
  let w ← graph.csr.weights[EdgeIdx.new j]?
  let inhibitory ← graph.csr.inhibitory[j]?
  some (tgt, w, inhibitory)

def PropagationConfig.signal (config : PropagationConfig) (srcAct w : Rat) (inhibitory : Bool) :
    Rat :=
  let signal := srcAct * w * config.decay
  if inhibitory then -signal * config.inhibitoryFactor else signal

end Slots

namespace Propagation

variable (config : PropagationConfig) (n : Nat)

def start : Propagation where
  activation := List.replicate n 0
  visited := List.replicate n false
  frontier := []

def seed (state : Propagation) (entry : Nat × Rat) : Propagation :=
  if entry.1 < n then
    let s := min entry.2 config.saturationCap
    { activation := if state.activation.getD entry.1 0 < s then state.activation.set entry.1 s
        else state.activation
      visited := state.visited.set entry.1 true
      frontier := if state.visited.getD entry.1 false = true then state.frontier
        else state.frontier ++ [entry.1] }
  else state

-- The levels that are left. The frontier is what the level before has filled.
def levels (expand : Propagation → Nat → Option Propagation) :
    Nat → Propagation → Option Propagation
  | 0, state => some state
  | left + 1, state =>
      if state.frontier = [] then some state
      else do
        let state ← state.frontier.foldlM expand { state with frontier := [] }
        levels expand left state

-- The positive activations of some nodes, the strongest first.
def scores (keep : Nat → Bool) (activation : List Rat) : Seeds :=
  ((activation.zipIdx.filter fun entry => decide (0 < entry.1) && keep entry.2).map
    Prod.swap).mergeSort fun a b => b.2 ≤ a.2

end Propagation

namespace WavefrontEngine

variable (config : PropagationConfig) (graph : Graph Rat T)

-- A visited node whose activation grows by more than the margin is queued again.
def arrive (srcAct : Rat) (state : Propagation) (slot : Nat × Rat × Bool) : Propagation :=
  let signal := config.signal srcAct slot.2.1 slot.2.2
  match state.activation[slot.1]? with
  | none => state
  | some old =>
      if slot.2.2 = false ∧ config.threshold < signal then
        if old < signal then
          { activation := state.activation.set slot.1 signal
            visited := state.visited.set slot.1 true
            frontier :=
              if state.visited.getD slot.1 false = false ∨ REEXPANSION_MARGIN < signal - old then
                state.frontier ++ [slot.1]
              else state.frontier }
        else state
      else if slot.2.2 = true then
        { state with activation := state.activation.set slot.1 (max (old + signal) 0) }
      else state

def expand (state : Propagation) (src : Nat) : Option Propagation := do
  let srcAct ← state.activation[src]?
  if srcAct < config.threshold then some state
  else
    (graph.csr.outRange src).foldlM
      (fun state j => (readSlot graph j).map (arrive config srcAct state)) state

def reach (seeds : Seeds) : Option Propagation :=
  Propagation.levels (expand config graph) (min config.maxDepth 20)
    (seeds.foldl (Propagation.seed config graph.numNodes) (.start graph.numNodes))

def propagate (seeds : Seeds) : Option Seeds :=
  if graph.numNodes = 0 ∨ seeds = [] then some []
  else (reach config graph seeds).map fun state =>
    Propagation.scores (fun _ => true) state.activation

end WavefrontEngine

structure RemovalMask where
  removedNodes : List Bool
  removedEdges : List Bool

namespace RemovalMask

def new (numNodes numEdges : Nat) : RemovalMask where
  removedNodes := List.replicate numNodes false
  removedEdges := List.replicate numEdges false

-- A slot behind the end of the mask is not marked.
def removeNode (graph : Graph Rat T) (mask : RemovalMask) (node : Nat) : Option RemovalMask :=
  if mask.removedNodes.length ≤ node then some mask
  else do
    let outgoing := (graph.csr.outRange node).foldl (fun edges j => edges.set j true)
      mask.removedEdges
    let removedEdges ← (graph.csr.inRange node).foldlM
      (fun edges r => (graph.csr.revEdgeIdx[r]?).map fun forward => edges.set forward true)
      outgoing
    some { removedNodes := mask.removedNodes.set node true, removedEdges := removedEdges }

end RemovalMask

section Masked

variable (config : PropagationConfig) (graph : Graph Rat T) (mask : RemovalMask)

-- The copy of the wavefront engine: a node is queued when it is visited first, and only then.
def arriveMasked (srcAct : Rat) (state : Propagation) (slot : Nat × Rat × Bool) : Propagation :=
  let signal := config.signal srcAct slot.2.1 slot.2.2
  match state.activation[slot.1]? with
  | none => state
  | some old =>
      if slot.2.2 = false ∧ config.threshold < signal then
        { activation := if old < signal then state.activation.set slot.1 signal
            else state.activation
          visited := state.visited.set slot.1 true
          frontier := if state.visited.getD slot.1 false = true then state.frontier
            else state.frontier ++ [slot.1] }
      else if slot.2.2 = true then
        { state with activation := state.activation.set slot.1 (max (old + signal) 0) }
      else state

-- Removed slots and slots to removed nodes are skipped.
def passMasked (srcAct : Rat) (state : Propagation) (j : Nat) : Option Propagation := do
  if ← mask.removedEdges[EdgeIdx.new j]? then some state
  else do
    let tgt ← graph.csr.targets[j]?
    if graph.numNodes ≤ tgt then some state
    else if ← mask.removedNodes[tgt]? then some state
    else (readSlot graph j).map (arriveMasked config srcAct state)

def expandMasked (state : Propagation) (src : Nat) : Option Propagation := do
  let srcAct ← state.activation[src]?
  if srcAct < config.threshold then some state
  else (graph.csr.outRange src).foldlM (passMasked config graph mask srcAct) state

def seedMasked (state : Propagation) (entry : Nat × Rat) : Option Propagation :=
  if graph.numNodes ≤ entry.1 then some state
  else do
    if ← mask.removedNodes[entry.1]? then some state
    else some (state.seed config graph.numNodes entry)

def propagateWithMask (seeds : Seeds) : Option Seeds :=
  if graph.numNodes = 0 ∨ seeds = [] then some []
  else do
    let state ← seeds.foldlM (seedMasked config graph mask) (.start graph.numNodes)
    let state ← Propagation.levels (expandMasked config graph mask) (min config.maxDepth 20) state
    some (Propagation.scores (fun v => mask.removedNodes.getD v false = false) state.activation)

end Masked

-- The bits of a filter and how many of them an item sets.
structure BloomFilter where
  bits : List Bool
  numHashes : Nat

-- The numbers of bits and of hashes for a capacity come from logarithms.
abbrev BloomSizes := Nat → Nat × Nat

namespace BloomFilter

def withCapacity (sizes : BloomSizes) (expectedItems : Nat) : BloomFilter where
  bits := List.replicate (sizes (max expectedItems 1)).1 false
  numHashes := (sizes (max expectedItems 1)).2

def computeHashes (filter : BloomFilter) (item : Nat) : List Nat :=
  let h1 := item * 2654435761 % 2 ^ 32
  let h2 := (item * 2246822519 + 1) % 2 ^ 32
  (List.range (min filter.numHashes 16)).map fun i => (h1 + i * h2) % filter.bits.length

def insert (filter : BloomFilter) (item : Nat) : BloomFilter where
  bits := (filter.computeHashes item).foldl (fun bits hash => bits.set hash true) filter.bits
  numHashes := filter.numHashes

def probablyContains (filter : BloomFilter) (item : Nat) : Bool :=
  (filter.computeHashes item).all fun hash => filter.bits.getD hash false

end BloomFilter

structure HeapState where
  activation : List Rat
  bloom : BloomFilter
  heap : List (Nat × Rat)

-- The greatest entry of a heap, and the others. Which of equal ones comes first is not promised.
def popGreatest : List (Nat × Rat) → Option ((Nat × Rat) × List (Nat × Rat))
  | [] => none
  | entry :: rest =>
      match popGreatest rest with
      | none => some (entry, [])
      | some (top, others) =>
          if top.2 ≤ entry.2 then some (entry, rest) else some (top, entry :: others)

namespace HeapEngine

variable (sizes : BloomSizes) (config : PropagationConfig) (graph : Graph Rat T)

def seed (state : HeapState) (entry : Nat × Rat) : HeapState :=
  if entry.1 < graph.numNodes then
    let s := min entry.2 config.saturationCap
    { activation := state.activation.set entry.1 s
      bloom := state.bloom.insert entry.1
      heap := state.heap ++ [(entry.1, s)] }
  else state

def arrive (srcAct : Rat) (state : HeapState) (slot : Nat × Rat × Bool) : HeapState :=
  let signal := config.signal srcAct slot.2.1 slot.2.2
  match state.activation[slot.1]? with
  | none => state
  | some old =>
      if slot.2.2 = false ∧ config.threshold < signal ∧ old < signal then
        let activation := state.activation.set slot.1 signal
        if state.bloom.probablyContains slot.1 = false then
          { activation := activation
            bloom := state.bloom.insert slot.1
            heap := state.heap ++ [(slot.1, signal)] }
        else if REEXPANSION_MARGIN < signal - old then
          { state with activation := activation, heap := state.heap ++ [(slot.1, signal)] }
        else { state with activation := activation }
      else if slot.2.2 = true then
        { state with activation := state.activation.set slot.1 (max (old + signal) 0) }
      else state

def expand (state : HeapState) (src : Nat) : Option HeapState := do
  let srcAct ← state.activation[src]?
  (graph.csr.outRange src).foldlM
    (fun state j => (readSlot graph j).map (arrive config srcAct state)) state

-- The pops that are left.
def drain : Nat → HeapState → Option HeapState
  | left, state =>
      match popGreatest state.heap with
      | none => some state
      | some (entry, rest) =>
          if entry.2 < config.threshold then some state
          else
            match left with
            | 0 => some state
            | left + 1 => do
                let state ← expand config graph { state with heap := rest } entry.1
                drain left state

def maxOps : Nat :=
  max (min (graph.numNodes * config.maxDepth) (2 ^ 32 - 1)) 10000

def propagate (seeds : Seeds) : Option Seeds :=
  if graph.numNodes = 0 ∨ seeds = [] then some []
  else
    (drain config graph (maxOps config graph) (seeds.foldl (seed config graph)
      { activation := List.replicate graph.numNodes 0
        bloom := .withCapacity sizes graph.numNodes
        heap := [] })).map fun state => Propagation.scores (fun _ => true) state.activation

end HeapEngine

namespace HybridEngine

variable (sizes : BloomSizes) (config : PropagationConfig) (graph : Graph Rat T) (seeds : Seeds)

def avgDegree : Rat :=
  if graph.numNodes = 0 then 0 else (graph.csr.numEdges : Rat) / graph.numNodes

def preferHeap (seedCount : Nat) : Bool :=
  decide ((seedCount : Rat) / (max graph.numNodes 1 : Nat) < 1 / 1000) &&
    decide (avgDegree graph < 8)

def propagate : Option Seeds :=
  if preferHeap graph seeds.length = true then HeapEngine.propagate sizes config graph seeds
  else WavefrontEngine.propagate config graph seeds

end HybridEngine

section Trials

variable (graph : Graph Rat T)

-- The nodes with edges, those with the highest rank first.
def seedCandidates (pagerank : List Rat) : Option (List (Nat × Rat)) := do
  let ranked ← ((List.range graph.numNodes).filter fun i => graph.csr.outRange i ≠ []).mapM
    fun i => pagerank[i]?.map fun rank => (i, rank)
  some (ranked.mergeSort fun a b => b.2 ≤ a.2)

def generateDiverseSeeds (pagerank : List Rat) (numTrials : Nat) : Option (List Seeds) := do
  let candidates ← seedCandidates graph pagerank
  if candidates = [] then some []
  else
    let stride := max candidates.length 1 / max numTrials 1
    (List.range numTrials).mapM fun t =>
      candidates[t * max stride 1 % candidates.length]?.map fun candidate => [(candidate.1, 1)]

-- The first of some nodes that is not removed.
def firstKept (removed : List Bool) (read : Nat → Option Nat) : List Nat → Option (Option Nat)
  | [] => some none
  | j :: slots => do
      let node ← read j
      if ← removed[node]? then firstKept removed read slots else some (some node)

-- A removed seed gives way to a neighbor, or else to any node that is left.
def adjustSeed (removed : List Bool) (entry : Nat × Rat) : Option (Nat × Rat) := do
  if ← removed[entry.1]? then
    match ← firstKept removed (fun j => graph.csr.targets[j]?) (graph.csr.outRange entry.1) with
    | some tgt => some (tgt, entry.2)
    | none =>
        match ← firstKept removed (fun r => graph.csr.revSources[r]?)
          (graph.csr.inRange entry.1) with
        | some src => some (src, entry.2)
        | none =>
            match ← firstKept removed some (List.range graph.numNodes) with
            | some i => some (i, entry.2)
            | none => some (entry.1, 0)
  else some entry

def adjustSeeds (removed : List Bool) (seeds : Seeds) : Option Seeds := do
  let adjusted ← seeds.mapM (adjustSeed graph removed)
  some (adjusted.filter fun entry => 0 < entry.2)

end Trials

section Reachability

variable (graph : Graph Rat T)

def edgeDegree (i : Nat) : Nat :=
  (graph.csr.outRange i).length + (graph.csr.inRange i).length

-- The last one of the greatest.
def maxByKey (key : Nat → Nat) (items : List Nat) : Option Nat :=
  items.foldl (fun best item =>
    match best with
    | none => some item
    | some top => if key top ≤ key item then some item else some top) none

def reachabilityStart (removed : List Bool) : Option Nat :=
  maxByKey (edgeDegree graph)
    ((List.range graph.numNodes).filter fun i => removed[i]? = some false)

def computeReachability (removed : List Bool) : Option Nat :=
  if graph.numNodes = 0 then some 0
  else
    match reachabilityStart graph removed with
    | none => some 0
    | some start =>
        (floodQueue graph.neighborsOf removed graph.numNodes
          (startAt (List.replicate graph.numNodes false) start)).map Flood.entered

end Reachability

structure CounterfactualResult where
  removedNodes : List Nat
  totalImpact : Rat
  pctActivationLost : Rat
  orphanedNodes : List Nat
  weakenedNodes : List (Nat × Rat)
  communitiesSplit : Nat
  reachabilityBefore : Nat
  reachabilityAfter : Nat

structure CounterfactualEngine where
  numTrials : Nat

-- What the trials add up.
structure Losses where
  baseline : Rat
  removed : Rat
  perNode : List Rat

section Simulation

def totalActivation (scores : Seeds) : Rat :=
  (scores.map Prod.snd).sum

-- The score of a node, zero where it has none.
def scoreOf (scores : Seeds) (node : Nat) : Rat :=
  ((scores.find? fun entry => entry.1 = node).map Prod.snd).getD 0

def Losses.add (losses : Losses) (baseline removed : Seeds) : Losses where
  baseline := losses.baseline + totalActivation baseline
  removed := losses.removed + totalActivation removed
  perNode := losses.perNode.mapIdx fun i loss =>
    let base := scoreOf baseline i
    if 0 < base then loss + (base - scoreOf removed i) / base else loss

-- Nodes that are not there are left alone.
def removalOf (graph : Graph Rat T) (removeNodes : List Nat) : Option (List Bool × RemovalMask) :=
  removeNodes.foldlM
    (fun removal node =>
      if node < graph.numNodes then
        (removal.2.removeNode graph node).map fun mask => (removal.1.set node true, mask)
      else some removal)
    (List.replicate graph.numNodes false, .new graph.numNodes graph.csr.numEdges)

variable (sizes : BloomSizes) (config : PropagationConfig) (graph : Graph Rat T)

def trial (removal : List Bool × RemovalMask) (losses : Losses) (seeds : Seeds) :
    Option Losses := do
  let adjusted ← adjustSeeds graph removal.1 seeds
  let baseline ← HybridEngine.propagate sizes config graph seeds
  let removed ← propagateWithMask config graph removal.2 adjusted
  some (losses.add baseline removed)

-- The ranks of the nodes come with the graph.
def CounterfactualEngine.simulateRemoval (engine : CounterfactualEngine) (pagerank : List Rat)
    (removeNodes : List Nat) : Option CounterfactualResult := do
  let seedTrials ← generateDiverseSeeds graph pagerank engine.numTrials
  let removal ← removalOf graph removeNodes
  let losses ← seedTrials.foldlM (trial sizes config graph removal)
    { baseline := 0, removed := 0, perNode := List.replicate graph.numNodes 0 }
  let numTrials : Rat := (max seedTrials.length 1 : Nat)
  let pctLost :=
    if 0 < losses.baseline then
      max 0 (min 1 ((losses.baseline - losses.removed) / losses.baseline))
    else 0
  let average (i : Nat) : Rat := losses.perNode.getD i 0 / numTrials
  let kept (i : Nat) : Bool := removal.1.getD i false = false
  let reachabilityBefore ← computeReachability graph (List.replicate graph.numNodes false)
  let reachabilityAfter ← computeReachability graph removal.1
  some {
    removedNodes := removeNodes
    totalImpact := pctLost
    pctActivationLost := pctLost
    orphanedNodes := (List.range graph.numNodes).filter fun i =>
      decide (99 / 100 < average i) && kept i
    weakenedNodes := ((List.range graph.numNodes).filter fun i =>
      decide (1 / 2 < average i) && decide (average i ≤ 99 / 100) && kept i).map
        fun i => (i, average i)
    communitiesSplit := 0
    reachabilityBefore := reachabilityBefore
    reachabilityAfter := reachabilityAfter }

end Simulation

end M1nd.Core
