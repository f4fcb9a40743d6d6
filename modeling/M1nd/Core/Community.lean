import M1nd.Core.SpectralGap
import M1nd.Library.Modularity

namespace M1nd.Core

open M1nd.Library.WeightMap

structure CommunityResult where
  assignments : List Nat
  numCommunities : Nat
  modularity : Rat
  passes : Nat
deriving DecidableEq

-- The minimal gain is not read.
structure CommunityDetector where
  maxPasses : Nat

-- The order in which a pass meets the communities next to a node. It is that of a hash map and
-- may differ from one map to the next.
structure HashOrder where
  order : Nat → Nat → List (Nat × Rat) → List (Nat × Rat)
  perm : ∀ pass node comms, (order pass node comms).Perm comms

-- The adjacency of the nodes without the directions of the edges. f64 is exact here.
structure Neighborhood where
  adj : List (List (Nat × Rat))
  degree : List Rat
  twoM : Rat
deriving DecidableEq

variable {T : Type}

section Adjacency

structure AdjacencyBuild where
  adj : List (List (Nat × Rat))
  seen : List (Nat × Nat)

def enter (adj : List (List (Nat × Rat))) (node neighbor : Nat) (w : Rat) :
    Option (List (List (Nat × Rat))) :=
  adj[node]?.map fun row => adj.set node (addTo row neighbor w)

-- A self-loop counts twice.
def enterBoth (adj : List (List (Nat × Rat))) (i target : Nat) (w : Rat) :
    Option (List (List (Nat × Rat))) := do
  let adj ← enter adj i target w
  if i ≠ target then enter adj target i w else enter adj i i w

def canonicalPair (i target : Nat) : Nat × Nat :=
  if i ≤ target then (i, target) else (target, i)

-- The first slot between two nodes counts.
def addSlot (graph : Graph Rat T) (i : Nat) (build : AdjacencyBuild) (j : Nat) :
    Option AdjacencyBuild := do
  let target ← graph.csr.targets[j]?
  let w ← graph.csr.weights[EdgeIdx.new j]?
  let pair := canonicalPair i target
  if pair ∈ build.seen then some build
  else (enterBoth build.adj i target w).map fun adj => { adj := adj, seen := pair :: build.seen }

def addSlots (graph : Graph Rat T) (build : AdjacencyBuild) (i : Nat) : Option AdjacencyBuild :=
  (graph.csr.outRange i).foldlM (addSlot graph i) build

def neighborhood (graph : Graph Rat T) : Option Neighborhood :=
  ((List.range graph.numNodes).foldlM (addSlots graph)
    { adj := List.replicate graph.numNodes [], seen := [] }).map fun build =>
      let degree := build.adj.map fun row => (row.map Prod.snd).sum
      { adj := build.adj, degree := degree, twoM := degree.sum }

end Adjacency

section LocalMoving

-- The inner sums of the communities are written and never read.
structure Moving where
  community : List Nat
  sumTot : List Rat

def weightWithin (community : List Nat) (row : List (Nat × Rat)) (c : Nat) : Option Rat :=
  row.foldlM (fun sum entry => do
    let neighbor ← community[entry.1]?
    some (if neighbor = c then sum + entry.2 else sum)) 0

def neighborComms (community : List Nat) (row : List (Nat × Rat)) : Option (List (Nat × Rat)) :=
  row.foldlM (fun comms entry => (community[entry.1]?).map fun cj => addTo comms cj entry.2) []

namespace Neighborhood

variable (net : Neighborhood) (orders : HashOrder)

def consider (ki kiInOld : Rat) (ci : Nat) (sumTot : List Rat) (best : Nat × Rat)
    (entry : Nat × Rat) : Option (Nat × Rat) := do
  let totNew ← sumTot[entry.1]?
  let totOld ← sumTot[ci]?
  let deltaQ := entry.2 / net.twoM - totNew * ki / (net.twoM * net.twoM)
  let deltaOld := kiInOld / net.twoM - totOld * ki / (net.twoM * net.twoM)
  let gain := deltaQ - deltaOld
  some (if best.2 < gain then (entry.1, gain) else best)

-- The state behind the visit of a node, and whether the node has moved.
def moveNode (pass : Nat) (state : Moving) (i : Nat) : Option (Moving × Bool) := do
  let ki ← net.degree[i]?
  let ci ← state.community[i]?
  let row ← net.adj[i]?
  let kiInOld ← weightWithin state.community row ci
  let totOld ← state.sumTot[ci]?
  let sumTot := state.sumTot.set ci (totOld - ki)
  let comms ← neighborComms state.community row
  let (bestComm, _) ←
    (orders.order pass i comms).foldlM (net.consider ki kiInOld ci sumTot) (ci, 0)
  let totBest ← sumTot[bestComm]?
  some ({ community := state.community.set i bestComm, sumTot := sumTot.set bestComm (totBest + ki) },
    decide (bestComm ≠ ci))

def visit (pass : Nat) (swept : Moving × Bool) (i : Nat) : Option (Moving × Bool) :=
  (net.moveNode orders pass swept.1 i).map fun next => (next.1, swept.2 || next.2)

structure Moved where
  community : List Nat
  passes : Nat
  converged : Bool

-- The passes that are left come first, then those that are made.
def localMoving : Nat → Nat → Moving → Option Moved
  | 0, pass, state => some { community := state.community, passes := pass, converged := false }
  | left + 1, pass, state => do
      let (next, improved) ←
        (List.range net.adj.length).foldlM (net.visit orders (pass + 1)) (state, false)
      if improved then localMoving left (pass + 1) next
      else some { community := next.community, passes := pass + 1, converged := true }

def start : Moving where
  community := List.range net.adj.length
  sumTot := net.degree

end Neighborhood

end LocalMoving

section Renumber

structure Renumbering where
  commMap : List (Nat × Nat)
  nextId : Nat
  assignments : List Nat

def renumberOne (numbered : Renumbering) (c : Nat) : Renumbering :=
  match numbered.commMap.lookup c with
  | some id => { numbered with assignments := numbered.assignments ++ [id] }
  | none =>
      { commMap := (c, numbered.nextId) :: numbered.commMap
        nextId := numbered.nextId + 1
        assignments := numbered.assignments ++ [numbered.nextId] }

def renumber (community : List Nat) : Renumbering :=
  community.foldl renumberOne { commMap := [], nextId := 0, assignments := [] }

end Renumber

namespace Neighborhood

variable (net : Neighborhood)

def addBond (assignments : List Nat) (i : Nat) (q : Rat) (entry : Nat × Rat) : Option Rat := do
  let ci ← assignments[i]?
  let cj ← assignments[entry.1]?
  if ci = cj then do
    let di ← net.degree[i]?
    let dj ← net.degree[entry.1]?
    some (q + (entry.2 - di * dj / net.twoM))
  else some q

def addBonds (assignments : List Nat) (q : Rat) (i : Nat) : Option Rat := do
  let row ← net.adj[i]?
  row.foldlM (net.addBond assignments i) q

def modularityOf (assignments : List Nat) : Option Rat :=
  ((List.range net.adj.length).foldlM (net.addBonds assignments) 0).map (· / net.twoM)

end Neighborhood

namespace CommunityDetector

def detect (detector : CommunityDetector) (orders : HashOrder) (graph : Graph Rat T) :
    Option (Except TopologyError CommunityResult) := do
  if graph.numNodes = 0 then some (.error .EmptyGraph)
  else do
    let net ← neighborhood graph
    if net.twoM ≤ 0 then
      some (.ok { assignments := List.range graph.numNodes, numCommunities := graph.numNodes,
                  modularity := 0, passes := 0 })
    else do
      let moved ← net.localMoving orders detector.maxPasses 0 net.start
      let numbered := renumber moved.community
      let q ← net.modularityOf numbered.assignments
      some (.ok { assignments := numbered.assignments, numCommunities := numbered.nextId,
                  modularity := q, passes := moved.passes })

end CommunityDetector

end M1nd.Core
