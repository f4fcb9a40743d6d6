import M1nd.Core.Graph.Runs
import M1nd.Core.Snapshot.Decode
import Mathlib.Data.Rat.Defs
import Mathlib.Algebra.Order.Field.Rat

namespace M1nd.Core

-- The arithmetic of f32 on all its values.
class Float32 (F : Type) extends Add F, Sub F, Mul F, Div F, Min F, Max F, Zero F, One F where
  abs : F → F
  le : F → F → Bool
  lt : F → F → Bool
  minChange : F

-- Where a type has a zero of its own, that is the one.
attribute [instance (100)] Float32.toZero Float32.toOne

structure PlasticityConfig (W F : Type) where
  learningRate : F
  decayRate : F
  ltpThreshold : Nat
  ltdThreshold : Nat
  ltpBonus : W
  ltdPenalty : W
  homeostaticCeiling : W
  weightFloor : W
  weightCap : W
  memoryCapacity : Nat
  casRetryLimit : Nat

structure PlasticityResult where
  edgesStrengthened : Nat
  edgesDecayed : Nat
  ltpEvents : Nat
  ltdEvents : Nat
  homeostaticRescales : Nat
deriving DecidableEq

structure PlasticityEngine (W F : Type) where
  config : PlasticityConfig W F
  queryCount : Nat

def PlasticityEngine.new {W F : Type} (config : PlasticityConfig W F) : PlasticityEngine W F where
  config := config
  queryCount := 0

-- The counters of a synapse are u16.
def saturatingSucc (count : Nat) : Nat := min (count + 1) 65535

inductive CasError
  | CasRetryExhausted (edge limit : Nat)
deriving DecidableEq

section Weights

variable {W T : Type}

-- A weak compare-and-swap can fail without a cause. The write gives up when it fails as often
-- as it may be tried, and panics behind the end of the weights.
def CsrGraph.atomicWriteWeight (csr : CsrGraph W) (edge : Nat) (newVal : W) (maxRetries : Nat)
    (failures : Nat) : Option (Except CasError Unit × CsrGraph W) :=
  if csr.weights.length ≤ edge then none
  else if failures < maxRetries then some (.ok (), csr.storeWeight edge newVal)
  else some (.error (.CasRetryExhausted edge maxRetries), csr)

-- A learning cycle under way. The writes still to come fail as often as `failures` says.
structure Learning (W T : Type) where
  graph : Graph W T
  failures : List Nat
  result : PlasticityResult

namespace Learning

-- The result of the write to the CSR is dropped. The plasticity arrays are all as long as the
-- strengthen counts, and nothing is written behind their end.
def writeBoth (state : Learning W T) (limit edge slot : Nat) (newWeight : W)
    (mark : EdgePlasticity W → EdgePlasticity W) : Option (Learning W T) := do
  let (_, csr) ← state.graph.csr.atomicWriteWeight edge newWeight limit (state.failures.headD 0)
  let plasticity := state.graph.edgePlasticity
  some { state with
    graph := {
      state.graph with
      csr := csr
      edgePlasticity := mark {
        plasticity with currentWeight := plasticity.currentWeight.set slot newWeight } }
    failures := state.failures.tail }

end Learning

def EdgePlasticity.markStrengthened (slot query : Nat) (plasticity : EdgePlasticity W) :
    EdgePlasticity W :=
  { plasticity with
    strengthenCount := plasticity.strengthenCount.modify slot saturatingSucc
    lastUsedQuery := plasticity.lastUsedQuery.set slot query }

def EdgePlasticity.markWeakened (slot : Nat) (plasticity : EdgePlasticity W) : EdgePlasticity W :=
  { plasticity with weakenCount := plasticity.weakenCount.modify slot saturatingSucc }

def EdgePlasticity.markLtp (slot : Nat) (plasticity : EdgePlasticity W) : EdgePlasticity W :=
  { plasticity with ltpApplied := plasticity.ltpApplied.set slot true }

def EdgePlasticity.markLtd (slot : Nat) (plasticity : EdgePlasticity W) : EdgePlasticity W :=
  { plasticity with ltdApplied := plasticity.ltdApplied.set slot true }

end Weights

namespace PlasticityEngine

section Update

variable {W F T : Type} [FiniteF32 W F] [Float32 F]

def hebbianEdge (engine : PlasticityEngine W F) (actVal : List F) (srcAct : W)
    (state : Learning W T) (j : Nat) : Option (Learning W T) := do
  let tgt ← state.graph.csr.targets[j]?
  if state.graph.nodes.count ≤ tgt then some state
  else
    let tgtAct := actVal.getD tgt 0
    if Float32.le tgtAct 0 then some state
    else do
      let delta := engine.config.learningRate * FiniteF32.get srcAct * tgtAct
      let current ← state.graph.csr.weights[EdgeIdx.new j]?
      let newWeight := min (FiniteF32.get current + delta) (FiniteF32.get engine.config.weightCap)
      let state ← state.writeBoth engine.config.casRetryLimit (EdgeIdx.new j) j
        (FiniteF32.new newWeight) (.markStrengthened j engine.queryCount)
      some { state with
        result := {
          state.result with edgesStrengthened := state.result.edgesStrengthened + 1 } }

def hebbianStrengthen (engine : PlasticityEngine W F) (activated : List (Nat × W))
    (state : Learning W T) : Option (Learning W T) :=
  let actVal := activated.foldl
    (fun values node => values.set node.1 (FiniteF32.get node.2))
    (List.replicate state.graph.nodes.count 0)
  activated.foldlM
    (fun state node =>
      (state.graph.csr.outRange node.1).foldlM (engine.hebbianEdge actVal node.2) state)
    state

def decayEdge (engine : PlasticityEngine W F) (state : Learning W T) (j : Nat) :
    Option (Learning W T) := do
  let decayFactor := 1 - engine.config.decayRate
  let current ← state.graph.csr.weights[EdgeIdx.new j]?
  let newWeight := max (FiniteF32.get current * decayFactor)
    (FiniteF32.get engine.config.weightFloor)
  if Float32.lt Float32.minChange (Float32.abs (newWeight - FiniteF32.get current)) then do
    let state ← state.writeBoth engine.config.casRetryLimit (EdgeIdx.new j) j
      (FiniteF32.new newWeight) (.markWeakened j)
    some { state with
      result := { state.result with edgesDecayed := state.result.edgesDecayed + 1 } }
  else some state

def synapticDecay (engine : PlasticityEngine W F) (activatedSet : List Bool)
    (state : Learning W T) : Option (Learning W T) :=
  (activatedSet.zipIdx.take state.graph.nodes.count).foldlM
    (fun state node =>
      if node.1 then some state
      else (state.graph.csr.outRange node.2).foldlM engine.decayEdge state)
    state

def ltpEdge (engine : PlasticityEngine W F) (state : Learning W T) (j : Nat) :
    Option (Learning W T) :=
  let plasticity := state.graph.edgePlasticity
  if !plasticity.ltpApplied.getD j false &&
      engine.config.ltpThreshold ≤ plasticity.strengthenCount.getD j 0 then do
    let current ← state.graph.csr.weights[EdgeIdx.new j]?
    let newWeight := min (FiniteF32.get current + FiniteF32.get engine.config.ltpBonus)
      (FiniteF32.get engine.config.weightCap)
    let state ← state.writeBoth engine.config.casRetryLimit (EdgeIdx.new j) j
      (FiniteF32.new newWeight) (.markLtp j)
    some { state with result := { state.result with ltpEvents := state.result.ltpEvents + 1 } }
  else some state

def ltdEdge (engine : PlasticityEngine W F) (state : Learning W T) (j : Nat) :
    Option (Learning W T) :=
  let plasticity := state.graph.edgePlasticity
  if !plasticity.ltdApplied.getD j false &&
      engine.config.ltdThreshold ≤ plasticity.weakenCount.getD j 0 then do
    let current ← state.graph.csr.weights[EdgeIdx.new j]?
    let newWeight := max (FiniteF32.get current - FiniteF32.get engine.config.ltdPenalty)
      (FiniteF32.get engine.config.weightFloor)
    let state ← state.writeBoth engine.config.casRetryLimit (EdgeIdx.new j) j
      (FiniteF32.new newWeight) (.markLtd j)
    some { state with result := { state.result with ltdEvents := state.result.ltdEvents + 1 } }
  else some state

-- The loop runs over the plasticity of the staged edges, too.
def applyLtpLtd (engine : PlasticityEngine W F) (state : Learning W T) : Option (Learning W T) :=
  (List.range state.graph.edgePlasticity.strengthenCount.length).foldlM
    (fun state j => do engine.ltdEdge (← engine.ltpEdge state j) j) state

def incomingWeight (csr : CsrGraph W) (range : List Nat) : Option F :=
  range.foldlM
    (fun total j => do
      let forward ← csr.revEdgeIdx[j]?
      let weight ← csr.weights[forward]?
      some (total + FiniteF32.get weight))
    0

def scaleEdge (engine : PlasticityEngine W F) (scale : F) (state : Learning W T) (j : Nat) :
    Option (Learning W T) := do
  let forward ← state.graph.csr.revEdgeIdx[j]?
  let current ← state.graph.csr.weights[forward]?
  state.writeBoth engine.config.casRetryLimit forward forward
    (FiniteF32.new (FiniteF32.get current * scale)) id

def normalizeNode (engine : PlasticityEngine W F) (state : Learning W T) (i : Nat) :
    Option (Learning W T) := do
  let range := state.graph.csr.inRange i
  let ceiling := FiniteF32.get engine.config.homeostaticCeiling
  let totalIncoming ← incomingWeight state.graph.csr range
  if Float32.lt ceiling totalIncoming then do
    let state ← range.foldlM (engine.scaleEdge (ceiling / totalIncoming)) state
    some { state with
      result := {
        state.result with homeostaticRescales := state.result.homeostaticRescales + 1 } }
  else some state

def homeostaticNormalize (engine : PlasticityEngine W F) (state : Learning W T) :
    Option (Learning W T) :=
  (List.range state.graph.nodes.count).foldlM engine.normalizeNode state

-- The query memory is not part of the graph, but recording a query in one of no capacity panics.
def update (engine : PlasticityEngine W F) (graph : Graph W T) (activatedNodes : List (Nat × W))
    (failures : List Nat) : Option (PlasticityResult × PlasticityEngine W F × Graph W T) := do
  let engine := { engine with queryCount := (engine.queryCount + 1) % 2 ^ 32 }
  let activatedSet := activatedNodes.foldl (fun set node => set.set node.1 true)
    (List.replicate graph.nodes.count false)
  let state ← engine.hebbianStrengthen activatedNodes ⟨graph, failures, ⟨0, 0, 0, 0, 0⟩⟩
  let state ← engine.synapticDecay activatedSet state
  let state ← engine.applyLtpLtd state
  let state ← engine.homeostaticNormalize state
  if engine.config.memoryCapacity = 0 then none
  else some (state.result, engine, state.graph)

end Update

end PlasticityEngine

section Import

variable {W F T : Type} [FiniteF32 W F]

structure SynapticState (F : Type) where
  sourceLabel : String
  targetLabel : String
  relation : String
  direction : Option Nat
  inhibitory : Option Bool
  originalWeight : F
  currentWeight : F
  strengthenCount : Nat
  weakenCount : Nat
  ltpApplied : Bool
  ltdApplied : Bool
  lastUsedQuery : Nat

structure Triple where
  source : String
  target : String
  relation : String
deriving DecidableEq

structure FullKey where
  triple : Triple
  direction : Nat
  inhibitory : Bool
deriving DecidableEq

structure RestorePlan (F : Type) where
  slot : Nat
  originalWeight : F
  currentWeight : F
  strengthenCount : Nat
  weakenCount : Nat
  ltpApplied : Bool
  ltdApplied : Bool
  lastUsedQuery : Nat

-- A handle without a string is skipped.
def importedExtIds (graph : Graph W T) : List String :=
  graph.idToNode.toList.foldl
    (fun ids entry =>
      match graph.strings.tryResolve entry.1 with
      | some s => ids.set entry.2 s
      | none => ids)
    (List.replicate graph.nodes.count "")

def importedSources (graph : Graph W T) : Except SnapshotError (List Nat) :=
  (List.range graph.nodes.count).foldlM
    (fun sources i => do
      let lo ← orPanic graph.csr.offsets[i]?
      let hi ← orPanic graph.csr.offsets[i + 1]?
      (List.range' lo (hi - lo)).foldlM
        (fun sources j => if sources.length ≤ j then .error .Panicked else .ok (sources.set j i))
        sources)
    (List.replicate graph.csr.numEdges 0)

-- A slot that does not lie between two nodes of the graph has no identity.
def synapticKey (graph : Graph W T) (ids : List String) (sources : List Nat) (j : Nat) :
    Except SnapshotError (Option FullKey) := do
  let source ← orPanic sources[j]?
  let target ← orPanic graph.csr.targets[j]?
  match ids[source]?, ids[target]? with
  | some sourceId, some targetId => do
      let relation ← orPanic graph.csr.relations[j]?
      let direction ← orPanic graph.csr.directions[j]?
      let inhibitory ← orPanic graph.csr.inhibitory[j]?
      .ok (some ⟨⟨sourceId, targetId, (graph.strings.tryResolve relation).getD ""⟩,
        direction.code, inhibitory⟩)
  | _, _ => .ok none

def tripleSlots (keys : List (Option FullKey)) (triple : Triple) : List Nat :=
  (List.range keys.length).filter fun j =>
    ((keys.getD j none).map FullKey.triple) = some triple

def fullSlots (keys : List (Option FullKey)) (key : FullKey) : List Nat :=
  (List.range keys.length).filter fun j => keys.getD j none = some key

-- A strength that cannot be read counts as one that disagrees.
def parallelSlotsAreInterchangeable [DecidableEq W] (graph : Graph W T) : List Nat → Bool
  | [] => true
  | first :: rest =>
      match graph.csr.causalStrengths[first]? with
      | none => false
      | some reference =>
          (first :: rest).all fun slot => graph.csr.causalStrengths[slot]? = some reference

structure Importing (F : Type) where
  cursor : FullKey → Nat
  selected : List Nat
  plans : List (RestorePlan F)

-- The slot a row is for, if the graph has one.
def resolveSynapse [DecidableEq W] (graph : Graph W T) (keys : List (Option FullKey))
    (cursor : FullKey → Nat) (state : SynapticState F) :
    Except SnapshotError (Option Nat × (FullKey → Nat)) :=
  let triple : Triple := ⟨state.sourceLabel, state.targetLabel, state.relation⟩
  match state.direction, state.inhibitory with
  | some direction, some inhibitory =>
      if 1 < direction then
        .error (.CorruptState
          s!"unknown synaptic direction {direction} for {triple.source} -> {triple.target}")
      else
        let key : FullKey := ⟨triple, direction, inhibitory⟩
        let slots := fullSlots keys key
        if slots.isEmpty then .ok (none, cursor)
        else
          let next := Function.update cursor key (cursor key + 1)
          if 1 < slots.length && !parallelSlotsAreInterchangeable graph slots then .ok (none, next)
          else
            match slots[cursor key]? with
            | some slot => .ok (some slot, next)
            | none =>
                let owners := slots.length
                .error (.CorruptState
                  (s!"duplicate full synaptic key for {triple.source} -> {triple.target} " ++
                    s!"({triple.relation}, direction={direction}, inhibitory={inhibitory}): " ++
                    s!"more rows than the {owners} parallel edge(s) that own it"))
  | none, none =>
      match tripleSlots keys triple with
      | [] => .ok (none, cursor)
      | [slot] => .ok (some slot, cursor)
      | slots =>
          let owners := slots.length
          .error (.CorruptState
            (s!"legacy triple-only synaptic state for {triple.source} -> {triple.target} " ++
              s!"({triple.relation}) is ambiguous across {owners} edges"))
  | _, _ =>
      .error (.CorruptState
        (s!"partial synaptic identity for {triple.source} -> {triple.target} " ++
          s!"({triple.relation})"))

def planSynapse [DecidableEq W] (graph : Graph W T) (keys : List (Option FullKey))
    (importing : Importing F) (state : SynapticState F) : Except SnapshotError (Importing F) := do
  let source := state.sourceLabel
  let target := state.targetLabel
  let relation := state.relation
  let isFinite : F → Bool := FiniteF32.isFinite W
  if !isFinite state.originalWeight then
    .error (.CorruptState s!"non-finite original weight for {source} -> {target} ({relation})")
  else do
    let currentWeight :=
      if isFinite state.currentWeight then state.currentWeight else state.originalWeight
    match ← resolveSynapse graph keys importing.cursor state with
    | (none, cursor) => .ok { importing with cursor := cursor }
    | (some slot, cursor) =>
        if importing.selected.contains slot then
          .error (.CorruptState
            s!"multiple synaptic rows resolve to CSR slot {slot} for {source} -> {target}")
        else .ok {
          cursor := cursor
          selected := slot :: importing.selected
          plans := importing.plans ++ [{
            slot := slot
            originalWeight := state.originalWeight
            currentWeight := currentWeight
            strengthenCount := state.strengthenCount
            weakenCount := state.weakenCount
            ltpApplied := state.ltpApplied
            ltdApplied := state.ltdApplied
            lastUsedQuery := state.lastUsedQuery }] }

def RestorePlan.apply (graph : Graph W T) (plan : RestorePlan F) : Graph W T :=
  { graph with
    csr := graph.csr.storeWeight plan.slot (FiniteF32.new plan.currentWeight)
    edgePlasticity := graph.edgePlasticity.store plan.slot {
      originalWeight := FiniteF32.new plan.originalWeight
      currentWeight := FiniteF32.new plan.currentWeight
      strengthenCount := plan.strengthenCount
      weakenCount := plan.weakenCount
      ltpApplied := plan.ltpApplied
      ltdApplied := plan.ltdApplied
      lastUsedQuery := plan.lastUsedQuery } }

def PlasticityEngine.importState [DecidableEq W] (engine : PlasticityEngine W F)
    (graph : Graph W T) (states : List (SynapticState F)) :
    Except SnapshotError (Nat × PlasticityEngine W F × Graph W T) :=
  let numCsr := graph.csr.numEdges
  let plasticity := graph.edgePlasticity
  if plasticity.originalWeight.length ≠ numCsr ∨ plasticity.currentWeight.length ≠ numCsr ∨
      plasticity.strengthenCount.length ≠ numCsr ∨ plasticity.weakenCount.length ≠ numCsr ∨
      plasticity.ltpApplied.length ≠ numCsr ∨ plasticity.ltdApplied.length ≠ numCsr ∨
      plasticity.lastUsedQuery.length ≠ numCsr ∨ graph.csr.weights.length ≠ numCsr then
    .error (.CorruptState "CSR and edge-plasticity arrays have different lengths")
  else do
    let ids := importedExtIds graph
    let sources ← importedSources graph
    let keys ← (List.range numCsr).mapM (synapticKey graph ids sources)
    let importing ← states.foldlM (planSynapse graph keys) ⟨fun _ => 0, [], []⟩
    let queryCount := importing.plans.foldl (fun count plan => max count plan.lastUsedQuery)
      engine.queryCount
    .ok (importing.plans.length, { engine with queryCount := queryCount },
      importing.plans.foldl RestorePlan.apply graph)

end Import

end M1nd.Core

namespace M1nd.Core

-- Exact arithmetic. On small binary fractions f32 computes exactly, too.
instance exactF32 : FiniteF32 Rat Rat where
  new w := w
  get w := w
  isFinite _ := true
  isFinite_get _ := rfl
  new_get _ := rfl
  get_new _ _ := rfl

instance exactF64 : FiniteF64 Nat where
  isFinite _ := true

instance exactArithmetic : Float32 Rat where
  abs x := if x < 0 then -x else x
  le x y := decide (x ≤ y)
  lt x y := decide (x < y)
  minChange := 1 / 1000000

end M1nd.Core
