import M1nd.Core.Graph
import Mathlib.Data.List.Infix

namespace M1nd.Core

-- Only relations of dependency make cycles, the structural ones do not.
def layerCycleRelationCandidate (relation : String) : Bool :=
  let rel := relation.toLower
  let contains (part : String) : Bool := part.toList <:+: rel.toList
  if rel ∈ ["contains", "declares_module", "declares", "defined_in", "member_of", "parent", "child",
      "has_symbol", "has_file", "same_file"] then false
  else
    contains "import" || contains "depend" || rel = "uses" || contains "calls" ||
      contains "requires" || contains "references" || contains "extends" || contains "implements"

-- Nodes are named by their places in the list of the candidates.

inductive TarjanFrame
  | Enter (v : Nat)
  | Resume (v pos : Nat)
deriving DecidableEq

-- The vectors indexed by nodes are functions. The top of a stack is its head.
structure Tarjan where
  indexCounter : Nat
  stack : List Nat
  onStack : Nat → Bool
  indices : Nat → Option Nat
  lowlinks : Nat → Nat
  result : List (List Nat)
  callStack : List TarjanFrame

namespace Tarjan

def new : Tarjan where
  indexCounter := 0
  stack := []
  onStack _ := false
  indices _ := none
  lowlinks _ := 0
  result := []
  callStack := []

def enter (t : Tarjan) (v : Nat) (callers : List TarjanFrame) : Tarjan where
  indexCounter := t.indexCounter + 1
  stack := v :: t.stack
  onStack := Function.update t.onStack v true
  indices := Function.update t.indices v (some t.indexCounter)
  lowlinks := Function.update t.lowlinks v t.indexCounter
  result := t.result
  callStack := .Resume v 0 :: callers

def lower (t : Tarjan) (v low : Nat) : Tarjan :=
  { t with lowlinks := Function.update t.lowlinks v (min (t.lowlinks v) low) }

-- The neighbors from a position on, up to the first one that has not been visited. That one is
-- returned with the position behind it.
def scan (t : Tarjan) (v : Nat) : Nat → List Nat → Option (Nat × Nat) × Tarjan
  | _, [] => (none, t)
  | pos, w :: rest =>
      match t.indices w with
      | none => (some (w, pos + 1), t)
      | some index => (if t.onStack w then t.lower v index else t).scan v (pos + 1) rest

-- What is popped up to `v`, and what stays. Popping an empty stack panics.
def popScc (v : Nat) : List Nat → Option (List Nat × List Nat)
  | [] => none
  | w :: rest => if w = v then some ([w], rest) else (popScc v rest).map (Prod.map (w :: ·) id)

def close (t : Tarjan) (nodes : List Nat) (v : Nat) : Option Tarjan := do
  let (scc, stack) ← popScc v t.stack
  pure { t with
    stack := stack
    onStack := fun w => t.onStack w && w ∉ scc
    result :=
      if 1 < scc.length then t.result ++ [scc.map fun w => nodes.getD w 0] else t.result }

def finish (t : Tarjan) (nodes : List Nat) (v : Nat) (callers : List TarjanFrame) :
    Option Tarjan := do
  let index ← t.indices v
  let t ← if t.lowlinks v = index then t.close nodes v else some t
  match callers with
  | .Resume parent _ :: _ => some { t.lower parent (t.lowlinks v) with callStack := callers }
  | _ => some { t with callStack := callers }

def step (nodes : List Nat) (neighbors : Nat → Option (List Nat)) (t : Tarjan) : Option Tarjan :=
  match t.callStack with
  | [] => some t
  | .Enter v :: callers => some (t.enter v callers)
  | .Resume v pos :: callers => do
      let neighbors ← neighbors v
      match t.scan v pos (neighbors.drop pos) with
      | (some (w, pos), t) => some { t with callStack := .Enter w :: .Resume v pos :: callers }
      | (none, t) => t.finish nodes v callers

-- The steps until the call stack is empty. The fuel bounds their number.
def loop (nodes : List Nat) (neighbors : Nat → Option (List Nat)) : Nat → Tarjan → Option Tarjan
  | 0, _ => none
  | fuel + 1, t =>
      if t.callStack = [] then some t
      else t.step nodes neighbors >>= loop nodes neighbors fuel

def start (nodes : List Nat) (neighbors : Nat → Option (List Nat)) (t : Tarjan) (v : Nat) :
    Option Tarjan :=
  if (t.indices v).isSome then some t
  else { t with callStack := [.Enter v] }.loop nodes neighbors (3 * nodes.length + 1)

end Tarjan

-- The last place of each candidate.
def nodeToIdx (nodes : List Nat) : Std.ExtTreeMap Nat Nat :=
  nodes.zipIdx.foldl (fun map entry => map.insert entry.1 entry.2) ∅

namespace Graph

variable {W T : Type}

-- Reading a slot outside of the arrays panics, and so does resolving a name that is not interned.
def cycleTarget (graph : Graph W T) (nodes : List Nat) (j : Nat) : Option (Option Nat) := do
  let handle ← graph.csr.relations[j]?
  let relation ← graph.strings.tryResolve handle
  if !layerCycleRelationCandidate relation then
    pure none
  else
    let target ← graph.csr.targets[j]?
    pure (if target ∈ nodes then (nodeToIdx nodes)[target]? else none)

def cycleNeighbors (graph : Graph W T) (nodes : List Nat) (v : Nat) : Option (List Nat) := do
  let node ← nodes[v]?
  let neighbors ← (graph.csr.outRange node).mapM (graph.cycleTarget nodes)
  pure (neighbors.filterMap id)

def tarjanScc (graph : Graph W T) (nodes : List Nat) : Option (List (List Nat)) :=
  if nodes.length = 0 then some []
  else do
    let t ← (List.range nodes.length).foldlM
      (fun t v => t.start nodes (graph.cycleNeighbors nodes) v) Tarjan.new
    pure t.result

end Graph

end M1nd.Core
