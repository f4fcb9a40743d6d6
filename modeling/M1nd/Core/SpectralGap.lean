import M1nd.Core.Plasticity

namespace M1nd.Core

-- The arithmetic of f64, and the conversions to it.
class SpectralF64 (D : Type) (F : outParam Type) extends
    Add D, Sub D, Mul D, Div D, Max D, Min D, Zero D where
  ofNat : Nat → D
  ofF32 : F → D
  toF32 : D → F
  sqrt : D → D
  lt : D → D → Bool
  le : D → D → Bool
  maxValue : D
  maxEigFactor : D
  tiny : D
  half : D
  maxConnectivity : D
  fragileBelow : F
  moderateBelow : F

attribute [instance (100)] SpectralF64.toZero

inductive TopologyError
  | EmptyGraph
deriving DecidableEq

inductive RobustnessLevel
  | Fragile
  | Moderate
  | Robust
deriving DecidableEq

structure SpectralGapResult (W : Type) where
  algebraicConnectivity : W
  spectralGap : W
  numComponents : Nat
  robustness : RobustnessLevel
  trials : Nat
  converged : Bool

structure SpectralGapAnalyzer (D : Type) where
  maxIterations : Nat
  tolerance : D
  numTrials : Nat

variable {W F D T : Type}

section Components

-- A breadth-first search under way. A node that is not visited has no component.
structure ComponentSearch where
  component : List (Option Nat)
  queue : List Nat

def visitTarget (graph : Graph W T) (label : Nat) (search : ComponentSearch) (j : Nat) :
    Option ComponentSearch := do
  let tgt ← graph.csr.targets[j]?
  some (
    if search.component[tgt]? = some none then
      { component := search.component.set tgt (some label), queue := search.queue ++ [tgt] }
    else search)

-- Each node is queued once, so that the number of the nodes is enough fuel.
def spread (graph : Graph W T) (label : Nat) : Nat → ComponentSearch → Option (List (Option Nat))
  | fuel, search =>
      match search.queue with
      | [] => some search.component
      | node :: queue =>
          match fuel with
          | 0 => none
          | fuel + 1 =>
              (graph.csr.outRange node).foldlM (visitTarget graph label)
                { search with queue := queue } >>= spread graph label fuel

def startComponent (graph : Graph W T) (found : List (Option Nat) × Nat) (start : Nat) :
    Option (List (Option Nat) × Nat) :=
  if found.1[start]? = some none then
    (spread graph found.2 graph.numNodes
      { component := found.1.set start (some found.2), queue := [start] }).map (·, found.2 + 1)
  else some found

def countComponents (graph : Graph W T) : Option Nat :=
  ((List.range graph.numNodes).foldlM (startComponent graph)
    (List.replicate graph.numNodes none, 0)).map Prod.snd

end Components

section PowerIteration

variable [FiniteF32 W F] [SpectralF64 D F]

def sumF64 (values : List D) : D :=
  values.foldl (· + ·) 0

def edgeWeight (graph : Graph W T) (j : Nat) : Option D :=
  graph.csr.weights[EdgeIdx.new j]?.map fun weight => SpectralF64.ofF32 (FiniteF32.get weight)

def degreeOf (graph : Graph W T) (i : Nat) : Option D :=
  (graph.csr.outRange i).foldlM
    (fun degree j => (edgeWeight graph j).map fun weight => degree + weight) 0

def orthogonalize (v : List D) : List D :=
  let avg := sumF64 v / SpectralF64.ofNat v.length
  v.map fun x => x - avg

def normOf (v : List D) : D :=
  SpectralF64.sqrt (sumF64 (v.map fun x => x * x))

-- The seeds are products of u64.
def initialVector (n trial : Nat) : List D :=
  orthogonalize ((List.range n).map fun i =>
    SpectralF64.ofNat (i * (2654435761 + trial * 1000003) % 2 ^ 64) /
      SpectralF64.ofNat (2 ^ 64 - 1) - SpectralF64.half)

def shiftedRow (graph : Graph W T) (degree : List D) (maxEigEst : D) (v : List D) (i : Nat) :
    Option D := do
  let degree ← degree[i]?
  let vi ← v[i]?
  (graph.csr.outRange i).foldlM
    (fun sum j => do
      let tgt ← graph.csr.targets[j]?
      let weight ← edgeWeight graph j
      let vt ← v[tgt]?
      some (sum + weight * vt))
    ((maxEigEst - degree) * vi)

-- The eigenvalue so far, and whether the vector has converged.
def powerIterate (graph : Graph W T) (degree : List D) (maxEigEst tolerance : D) :
    Nat → List D → D → Option (D × Bool)
  | 0, _, eigenvalue => some (eigenvalue, false)
  | iterations + 1, v, eigenvalue => do
      let w ← (List.range graph.numNodes).mapM (shiftedRow graph degree maxEigEst v)
      let w := orthogonalize w
      let newNorm := normOf w
      if SpectralF64.lt newNorm SpectralF64.tiny then some (eigenvalue, false)
      else
        let next := w.map (· / newNorm)
        let residual := normOf (List.zipWith (· - ·) next v)
        let eigenvalue := sumF64 (List.zipWith (· * ·) w v)
        if SpectralF64.lt residual tolerance then some (eigenvalue, true)
        else powerIterate graph degree maxEigEst tolerance iterations next eigenvalue

def powerTrial (analyzer : SpectralGapAnalyzer D) (graph : Graph W T) (degree : List D)
    (maxEigEst : D) (best : D × Bool) (trial : Nat) : Option (D × Bool) :=
  let v : List D := initialVector graph.numNodes trial
  let norm := normOf v
  if SpectralF64.lt norm SpectralF64.tiny then some best
  else
    (powerIterate graph degree maxEigEst analyzer.tolerance analyzer.maxIterations
      (v.map (· / norm)) 0).map fun found =>
        let lambda2 := max (maxEigEst - found.1) 0
        (if SpectralF64.lt lambda2 best.1 then lambda2 else best.1, best.2 || found.2)

end PowerIteration

namespace SpectralGapAnalyzer

variable [FiniteF32 W F] [Float32 F] [SpectralF64 D F]

def robustnessOf (D : Type) [SpectralF64 D F] (algebraicConnectivity : F) : RobustnessLevel :=
  if Float32.lt algebraicConnectivity (SpectralF64.fragileBelow D) then .Fragile
  else if Float32.lt algebraicConnectivity (SpectralF64.moderateBelow D) then .Moderate
  else .Robust

def withoutEdges (numComponents : Nat) : SpectralGapResult W where
  algebraicConnectivity := FiniteF32.new 0
  spectralGap := FiniteF32.new 0
  numComponents := numComponents
  robustness := .Fragile
  trials := 0
  converged := true

-- Nothing is returned where an index is read behind the end of an array.
def analyze (analyzer : SpectralGapAnalyzer D) (graph : Graph W T) :
    Option (Except TopologyError (SpectralGapResult W)) := do
  if graph.numNodes = 0 then some (.error .EmptyGraph)
  else do
    let numComponents ← countComponents graph
    if graph.numNodes = 1 then some (.ok (withoutEdges numComponents))
    else do
      let degree : List D ← (List.range graph.numNodes).mapM (degreeOf graph)
      let maxEigEst := degree.foldl max 0 * SpectralF64.maxEigFactor
      if SpectralF64.le maxEigEst 0 then some (.ok (withoutEdges numComponents))
      else do
        let (lambda2, converged) ← (List.range analyzer.numTrials).foldlM
          (powerTrial analyzer graph degree maxEigEst) (SpectralF64.maxValue, false)
        let algebraicConnectivity := SpectralF64.toF32 (min lambda2 SpectralF64.maxConnectivity)
        let spectralGap : F :=
          SpectralF64.toF32 ((SpectralF64.ofF32 algebraicConnectivity : D) / maxEigEst)
        some (.ok {
          algebraicConnectivity := FiniteF32.new algebraicConnectivity
          spectralGap := FiniteF32.new spectralGap
          numComponents := numComponents
          robustness := robustnessOf D algebraicConnectivity
          trials := analyzer.numTrials
          converged := converged })

end SpectralGapAnalyzer

end M1nd.Core
