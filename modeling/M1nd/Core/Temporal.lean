import M1nd.Core.Plasticity
import Mathlib.Data.List.Destutter
import Mathlib.Data.List.Sort

namespace M1nd.Core

def CO_CHANGE_MAX_ROW : Nat := 100

-- The order of the finite values is the total one of their bits.
class CoChangeF32 (W : Type) (F : outParam Type) where
  totalLe : W → W → Bool
  ofCount : Nat → F
  decayFactor : F
  bootstrapWeight : F
  minStrength : F
  jaccardSmoothing : F

structure CoChangeEntry (W : Type) where
  target : Nat
  strength : W
  coCount : Nat
deriving DecidableEq

structure CoChangeMatrix (W : Type) where
  rows : List (List (CoChangeEntry W))
  nodeCounts : List Nat
  totalEntries : Nat
  budget : Nat
  isLearned : Bool
deriving DecidableEq

inductive TemporalError
  | MatrixBudgetExhausted (budget : Nat)
  | CorruptState (reason : String)
  | SchemaDrift (reason : String)
  | Panicked
deriving DecidableEq

-- The counts are u32.
def saturatingCount (count : Nat) : Nat := min (count + 1) (2 ^ 32 - 1)

-- One more joint observation.
def CoChangeEntry.strengthen {W : Type} (entry : CoChangeEntry W) : CoChangeEntry W :=
  { entry with coCount := saturatingCount entry.coCount }

variable {W F T : Type} [Zero W] [FiniteF32 W F] [Float32 F] [CoChangeF32 W F]

section Bootstrap

-- A breadth-first search from one node under way. The queue has a depth and a strength for each
-- node.
structure OriginSearch (W F : Type) where
  visited : List Bool
  queue : List (Nat × Nat × F)
  entries : List (CoChangeEntry W)

def visitEdge (graph : Graph W T) (depth : Nat) (strength : F) (search : OriginSearch W F)
    (j : Nat) : Option (OriginSearch W F) := do
  let tgt ← graph.csr.targets[j]?
  if graph.nodes.count ≤ tgt || search.visited.getD tgt false then some search
  else do
    let weight ← graph.csr.weights[EdgeIdx.new j]?
    let newStrength := strength * FiniteF32.get weight * CoChangeF32.decayFactor W *
      CoChangeF32.bootstrapWeight W
    some {
      visited := search.visited.set tgt true
      queue := search.queue ++ [(tgt, depth + 1, newStrength)]
      entries :=
        if Float32.lt (CoChangeF32.minStrength W) newStrength &&
            decide (search.entries.length < CO_CHANGE_MAX_ROW) then
          search.entries ++ [⟨tgt, FiniteF32.new newStrength, 0⟩]
        else search.entries }

-- The search ends when its queue is empty. Each node is queued once, so that the number of the
-- nodes is enough fuel.
def searchOrigin (graph : Graph W T) : Nat → OriginSearch W F → Option (OriginSearch W F)
  | fuel, search =>
      match search.queue with
      | [] => some search
      | (node, depth, strength) :: queue =>
          match fuel with
          | 0 => none
          | fuel + 1 => do
              let search := { search with queue := queue }
              if 3 ≤ depth then searchOrigin graph fuel search
              else
                searchOrigin graph fuel
                  (← (graph.csr.outRange node).foldlM (visitEdge graph depth strength) search)

-- The entries of one origin, the strongest first.
def originRow (graph : Graph W T) (start : Nat) : Option (List (CoChangeEntry W)) := do
  let search ← searchOrigin graph graph.nodes.count {
    visited := (List.replicate graph.nodes.count false).set start true
    queue := [(start, 0, (1 : F))]
    entries := [] }
  some ((search.entries.insertionSort fun a b =>
    CoChangeF32.totalLe b.strength a.strength = true).take CO_CHANGE_MAX_ROW)

-- The loop is left at the first origin that finds the budget used up, and then at all others.
def bootstrapOrigin (graph : Graph W T) (budget : Nat)
    (matrix : List (List (CoChangeEntry W)) × Nat) (start : Nat) :
    Option (List (List (CoChangeEntry W)) × Nat) :=
  if budget ≤ matrix.2 then some matrix
  else do
    let entries ← originRow graph start
    some (matrix.1.set start entries, matrix.2 + entries.length)

def CoChangeMatrix.bootstrap (graph : Graph W T) (budget : Nat) : Option (CoChangeMatrix W) := do
  let (rows, totalEntries) ← (List.range graph.nodes.count).foldlM (bootstrapOrigin graph budget)
    (List.replicate graph.nodes.count [], 0)
  some {
    rows := rows
    nodeCounts := List.replicate graph.nodes.count 0
    totalEntries := totalEntries
    budget := budget
    isLearned := false }

end Bootstrap

namespace CoChangeMatrix

def noteNodeAppearance (matrix : CoChangeMatrix W) (node : Nat) : CoChangeMatrix W :=
  { matrix with nodeCounts := matrix.nodeCounts.modify node saturatingCount }

def entryStrength (matrix : CoChangeMatrix W) (row : Nat) (entry : CoChangeEntry W) : W :=
  if entry.coCount = 0 then entry.strength
  else
    let countA := matrix.nodeCounts.getD row 0
    let countB := matrix.nodeCounts.getD entry.target 0
    let union := max (countA + countB - entry.coCount) entry.coCount
    let smoothed := CoChangeF32.ofCount W entry.coCount /
      (CoChangeF32.ofCount W union + CoChangeF32.jaccardSmoothing W)
    FiniteF32.new (min (max smoothed 0) 1)

-- The place of the first of the weakest entries.
def weakest (matrix : CoChangeMatrix W) (row : Nat) (entries : List (CoChangeEntry W)) :
    Option Nat :=
  (entries.zipIdx.foldl
    (fun best entry =>
      match best with
      | none => some entry
      | some least =>
          if CoChangeF32.totalLe (matrix.entryStrength row least.1)
              (matrix.entryStrength row entry.1) then some least
          else some entry)
    none).map Prod.snd

def recordCoChange (matrix : CoChangeMatrix W) (source target : Nat) :
    Except TemporalError Unit × CoChangeMatrix W :=
  match matrix.rows[source]? with
  | none => (.ok (), matrix)
  | some row =>
      match row.findIdx? fun entry => entry.target = target with
      | some i =>
          (.ok (), {
            matrix with
            rows := matrix.rows.set source (row.modify i CoChangeEntry.strengthen)
            isLearned := true })
      | none =>
          if matrix.budget ≤ matrix.totalEntries then
            (.error (.MatrixBudgetExhausted matrix.budget), matrix)
          else
            let newEntry : CoChangeEntry W := ⟨target, 0, 1⟩
            if CO_CHANGE_MAX_ROW ≤ row.length then
              match matrix.weakest source row with
              | some i =>
                  (.ok (), {
                    matrix with
                    rows := matrix.rows.set source (row.set i newEntry)
                    isLearned := true })
              | none => (.ok (), { matrix with isLearned := true })
            else
              (.ok (), {
                matrix with
                rows := matrix.rows.set source (row ++ [newEntry])
                totalEntries := matrix.totalEntries + 1
                isLearned := true })

-- Each pair of the nodes of a commit, in both directions.
def commitPairs : List Nat → List (Nat × Nat)
  | [] => []
  | node :: nodes => (nodes.flatMap fun other => [(node, other), (other, node)]) ++ commitPairs nodes

-- The nodes that a commit changed, each of them once.
def commitNodes (graph : Graph W T) (group : List String) : List Nat :=
  ((group.filterMap fun path =>
    graph.resolveId (if path.startsWith "file::" then path else s!"file::{path}")).insertionSort
      (· ≤ ·)).destutter (· ≠ ·)

-- What a record returns is dropped.
def populateFromCommitGroups (graph : Graph W T) (matrix : CoChangeMatrix W)
    (commitGroups : List (List String)) : CoChangeMatrix W :=
  commitGroups.foldl
    (fun matrix group =>
      let nodes := commitNodes graph group
      (commitPairs nodes).foldl (fun matrix pair => (matrix.recordCoChange pair.1 pair.2).2)
        (nodes.foldl noteNodeAppearance matrix))
    matrix

end CoChangeMatrix

end M1nd.Core
