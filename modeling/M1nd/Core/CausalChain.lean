import M1nd.Core.Plasticity

namespace M1nd.Core

-- The total order of f32, and what its multiplication keeps.
class ChainF32 (F : Type) extends Float32 F where
  totalLe : F → F → Bool
  totalLe_refl : ∀ x, totalLe x x
  totalLe_trans : ∀ x y z, totalLe x y → totalLe y z → totalLe x z
  zero_totalLe_one : totalLe 0 1
  zero_totalLe_mul : ∀ x c, totalLe 0 x → totalLe x 1 → le c 0 = false → le c 1 →
    totalLe 0 (x * c)
  mul_totalLe : ∀ x c, totalLe 0 x → totalLe x 1 → le c 0 = false → le c 1 → totalLe (x * c) x

structure CausalChain (W : Type) where
  path : List Nat
  relations : List Nat
  cumulativeStrength : W
deriving DecidableEq

structure ChainEntry (F : Type) where
  path : List Nat
  relations : List Nat
  cumulative : F

-- A binary heap takes out an entry that none of the others is above.
structure ChainHeap (F : Type) [ChainF32 F] where
  pop : List (ChainEntry F) → Option (ChainEntry F × List (ChainEntry F))
  pop_none : ∀ entries, pop entries = none ↔ entries = []
  pop_perm : ∀ entries entry rest, pop entries = some (entry, rest) →
    entries.Perm (entry :: rest)
  pop_max : ∀ entries entry rest, pop entries = some (entry, rest) →
    ∀ other ∈ rest, ChainF32.totalLe other.cumulative entry.cumulative

structure CausalChainDetector (W : Type) where
  maxDepth : Nat
  minStrength : W
  chainBudget : Nat

-- What a search has found, and whether it ran out of its budget.
structure ChainSearch (W : Type) where
  chains : List (CausalChain W)
  exhausted : Bool
deriving DecidableEq

variable {W F T : Type} [FiniteF32 W F] [ChainF32 F]

def ChainEntry.toChain (entry : ChainEntry F) : CausalChain W where
  path := entry.path
  relations := entry.relations
  cumulativeStrength := FiniteF32.new entry.cumulative

def ChainEntry.start (source : Nat) : ChainEntry F where
  path := [source]
  relations := []
  cumulative := 1

namespace CausalChainDetector

variable (detector : CausalChainDetector W)

def tooWeak (cumulative : F) : Bool :=
  Float32.lt cumulative (FiniteF32.get detector.minStrength)

-- The chain that goes on along a slot, if it may.
def extension (graph : Graph W T) (entry : ChainEntry F) (j : Nat) :
    Option (Option (ChainEntry F)) := do
  let causal ← graph.csr.causalStrengths[j]?
  if Float32.le (FiniteF32.get causal) 0 then some none
  else do
    let target ← graph.csr.targets[j]?
    if target ∈ entry.path then some none
    else
      let newCumulative := entry.cumulative * FiniteF32.get causal
      if detector.tooWeak newCumulative then some none
      else (graph.csr.relations[j]?).map fun relation => some {
        path := entry.path ++ [target]
        relations := entry.relations ++ [relation]
        cumulative := newCumulative }

def extend (graph : Graph W T) (entry : ChainEntry F) (entries : List (ChainEntry F)) (j : Nat) :
    Option (List (ChainEntry F)) :=
  (detector.extension graph entry j).map fun longer => entries ++ longer.toList

def search (heap : ChainHeap F) (graph : Graph W T) :
    Nat → List (ChainEntry F) → List (CausalChain W) → Option (ChainSearch W)
  | budget, entries, chains =>
      match heap.pop entries with
      | none => some { chains := chains, exhausted := false }
      | some (entry, rest) =>
          match budget with
          | 0 => some { chains := chains, exhausted := true }
          | budget + 1 =>
              if detector.tooWeak entry.cumulative then search heap graph budget rest chains
              else do
                let current ← entry.path.getLast?
                let depth := entry.path.length
                let chains := if 1 < depth then chains ++ [entry.toChain] else chains
                if detector.maxDepth < depth then search heap graph budget rest chains
                else do
                  let entries ← (graph.csr.outRange current).foldlM (detector.extend graph entry) rest
                  search heap graph budget entries chains

def stronger (chain other : CausalChain W) : Bool :=
  ChainF32.totalLe (FiniteF32.get other.cumulativeStrength)
    (FiniteF32.get chain.cumulativeStrength)

def detect (heap : ChainHeap F) (graph : Graph W T) (source : Nat) :
    Option (List (CausalChain W)) :=
  if graph.numNodes ≤ source then some []
  else (detector.search heap graph detector.chainBudget [ChainEntry.start source] []).map
    fun found => found.chains.mergeSort stronger

end CausalChainDetector

end M1nd.Core
