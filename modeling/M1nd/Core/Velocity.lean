import M1nd.Core.Plasticity
import Mathlib.Data.Rat.Sqrt

namespace M1nd.Core

-- What the scores need of f32 beyond its arithmetic.
class VelocityF32 (F : Type) extends Float32 F where
  ofCount : Nat → F
  sqrt : F → F
  minStddev : F
  accelerating : F
  decelerating : F
  minVelocity : F

inductive VelocityTrend
  | Accelerating
  | Decelerating
  | Stable
deriving DecidableEq

structure VelocityScore (W : Type) where
  node : Nat
  velocity : W
  trend : VelocityTrend
deriving DecidableEq

-- The mean and the standard deviation, and the node count they were computed for.
structure VelocityScorer (F : Type) where
  cachedStats : Option (Nat × F × F)

namespace VelocityScorer

variable {W F T : Type} [FiniteF32 W F] [VelocityF32 F]

def new : VelocityScorer F where
  cachedStats := none

def frequencies (graph : Graph W T) : Option (List F) :=
  (List.range graph.numNodes).mapM fun j => graph.nodes.changeFrequency[j]?.map FiniteF32.get

def sum (values : List F) : F :=
  values.foldl (· + ·) 0

def computeStats (frequencies : List F) : F × F :=
  let n : F := VelocityF32.ofCount frequencies.length
  let mean := sum frequencies / n
  let variance := sum (frequencies.map fun freq => (freq - mean) * (freq - mean)) / n
  (mean, max (VelocityF32.sqrt variance) VelocityF32.minStddev)

def frequencyStatsStatic (graph : Graph W T) : Option (F × F) :=
  if graph.numNodes = 0 then some (0, 1) else (frequencies graph).map computeStats

def recompute (graph : Graph W T) : Option ((F × F) × VelocityScorer F) := do
  let frequencies ← frequencies graph
  let stats := computeStats frequencies
  some (stats, ⟨some (graph.numNodes, stats)⟩)

def frequencyStats (scorer : VelocityScorer F) (graph : Graph W T) :
    Option ((F × F) × VelocityScorer F) :=
  if graph.numNodes = 0 then some ((0, 1), scorer)
  else
    match scorer.cachedStats with
    | some (cachedN, stats) =>
        if cachedN = graph.numNodes then some (stats, scorer) else recompute graph
    | none => recompute graph

def trendOf (z : F) : VelocityTrend :=
  if Float32.lt VelocityF32.accelerating z then .Accelerating
  else if Float32.lt z VelocityF32.decelerating then .Decelerating
  else .Stable

def scoreNode (graph : Graph W T) (stats : F × F) (i : Nat) : Option (Option (VelocityScore W)) := do
  let freq ← graph.nodes.changeFrequency[i]?
  let z := (FiniteF32.get freq - stats.1) / stats.2
  some (
    if Float32.lt VelocityF32.minVelocity (Float32.abs z) then
      some ⟨i, FiniteF32.new z, trendOf z⟩
    else none)

def scoreNodes (graph : Graph W T) (stats : F × F) : Option (List (VelocityScore W)) := do
  let scores ← (List.range graph.numNodes).mapM (scoreNode graph stats)
  some (scores.filterMap id)

-- The time is not read.
def scoreAll (graph : Graph W T) : Option (List (VelocityScore W)) := do
  let stats ← frequencyStatsStatic graph
  scoreNodes graph stats

def scoreAllCached (scorer : VelocityScorer F) (graph : Graph W T) :
    Option (List (VelocityScore W) × VelocityScorer F) := do
  let (stats, scorer) ← scorer.frequencyStats graph
  let scores ← scoreNodes graph stats
  some (scores, scorer)

def invalidateCache (_ : VelocityScorer F) : VelocityScorer F where
  cachedStats := none

end VelocityScorer

end M1nd.Core

namespace M1nd.Core

variable {W F T : Type} [Zero W] [FiniteF32 W F] [VelocityF32 F] {graph : Graph W T}
  {ops : List (GraphOp W T)}

-- The node arrays are written in place, too.
inductive VelocityOp (W T : Type)
  | change (op : GraphOp W T)
  | setLastModified (node : Nat) (lastModified : T)
  | setChangeFrequency (node : Nat) (changeFrequency : W)
  | scoreAll
  | scoreAllCached
  | invalidateCache

namespace Graph

def setLastModified (graph : Graph W T) (node : Nat) (lastModified : T) : Graph W T :=
  { graph with nodes :=
    { graph.nodes with lastModified := graph.nodes.lastModified.set node lastModified } }

def setChangeFrequency (graph : Graph W T) (node : Nat) (changeFrequency : W) : Graph W T :=
  { graph with nodes :=
    { graph.nodes with changeFrequency := graph.nodes.changeFrequency.set node changeFrequency } }

end Graph

namespace VelocityOp

def applyGraph (graph : Graph W T) : VelocityOp W T → Graph W T
  | change op => op.apply graph
  | setLastModified node lastModified => graph.setLastModified node lastModified
  | setChangeFrequency node changeFrequency => graph.setChangeFrequency node changeFrequency
  | scoreAll => graph
  | scoreAllCached => graph
  | invalidateCache => graph

def applyScorer (graph : Graph W T) (scorer : VelocityScorer F) :
    VelocityOp W T → VelocityScorer F
  | scoreAllCached => ((scorer.scoreAllCached graph).map Prod.snd).getD scorer
  | invalidateCache => scorer.invalidateCache
  | _ => scorer

def graphAfter (ops : List (VelocityOp W T)) : Graph W T :=
  ops.foldl applyGraph Graph.new

-- The scorer is made before the first operation.
def run (ops : List (VelocityOp W T)) : Graph W T × VelocityScorer F :=
  ops.foldl (fun run op => (op.applyGraph run.1, op.applyScorer run.1 run.2))
    (Graph.new, VelocityScorer.new)

-- Where a frequency is changed after a cached scoring call, the cache is invalidated or a node is
-- added since that call.
def Renewed (ops : List (VelocityOp W T)) : Prop :=
  ∀ before between after node changeFrequency,
    ops = before ++ scoreAllCached :: between ++ setChangeFrequency node changeFrequency :: after →
    invalidateCache ∈ between ++ after ∨
      (graphAfter before).nodes.count < (graphAfter ops).nodes.count

section Graphs

variable {op : VelocityOp W T} {ops after : List (VelocityOp W T)}

-- Nodes are never removed, and only the call for it changes their frequencies.
theorem count_applyGraph (graph : Graph W T) (op : VelocityOp W T) :
    graph.nodes.count < (op.applyGraph graph).nodes.count ∨
      (op.applyGraph graph).nodes.count = graph.nodes.count ∧
      ((∀ node freq, op ≠ setChangeFrequency node freq) →
        (op.applyGraph graph).nodes.changeFrequency = graph.nodes.changeFrequency) := by
  cases op with
  | change op =>
      cases op with
      | addNode externalId label nodeType tags lastModified changeFrequency =>
          obtain ⟨strings, he⟩ | ⟨nodes, strings, idToNode, hcount, he⟩ :=
            graph.addNode_cases externalId label nodeType tags lastModified changeFrequency
          · right
            rw [applyGraph, GraphOp.apply, he]
            exact ⟨rfl, fun _ => rfl⟩
          · left
            rw [applyGraph, GraphOp.apply, he]
            exact hcount.symm ▸ Nat.lt_succ_self _
      | addEdge source target relation weight direction inhibitory causalStrength =>
          right
          rw [applyGraph, GraphOp.apply, Graph.addEdge]
          split
          · exact ⟨rfl, fun _ => rfl⟩
          · split <;> exact ⟨rfl, fun _ => rfl⟩
      | storeWeight slot weight =>
          right
          rw [applyGraph, GraphOp.apply]
          split <;> exact ⟨rfl, fun _ => rfl⟩
      | storeSynapse slot synapse =>
          right
          rw [applyGraph, GraphOp.apply]
          split <;> exact ⟨rfl, fun _ => rfl⟩
      | finalize =>
          right
          rw [applyGraph, GraphOp.apply, Graph.finalize]
          split
          · exact ⟨rfl, fun _ => rfl⟩
          · split <;> exact ⟨rfl, fun _ => rfl⟩
  | setLastModified node lastModified => exact .inr ⟨rfl, fun _ => rfl⟩
  | setChangeFrequency node freq => exact .inr ⟨rfl, fun hne => absurd rfl (hne node freq)⟩
  | scoreAll => exact .inr ⟨rfl, fun _ => rfl⟩
  | scoreAllCached => exact .inr ⟨rfl, fun _ => rfl⟩
  | invalidateCache => exact .inr ⟨rfl, fun _ => rfl⟩

theorem count_foldl (graph : Graph W T) (ops : List (VelocityOp W T)) :
    graph.nodes.count ≤ (ops.foldl applyGraph graph).nodes.count ∧
      ((ops.foldl applyGraph graph).nodes.count = graph.nodes.count →
        (∀ node freq, setChangeFrequency node freq ∉ ops) →
        (ops.foldl applyGraph graph).nodes.changeFrequency = graph.nodes.changeFrequency) := by
  induction ops generalizing graph with
  | nil => exact ⟨Nat.le_refl _, fun _ _ => rfl⟩
  | cons op ops ih =>
      obtain ⟨hle, hkeep⟩ := ih (op.applyGraph graph)
      rw [List.foldl_cons]
      obtain hlt | ⟨hcount, hfreq⟩ := count_applyGraph graph op
      · exact ⟨hlt.le.trans hle, fun hsame _ => absurd (hlt.trans_le hle) (by omega)⟩
      · refine ⟨hcount ▸ hle, fun hsame hnone => ?_⟩
        have hrest := hkeep (hsame.trans hcount.symm)
          fun node freq hmem => hnone node freq (List.mem_cons_of_mem _ hmem)
        exact hrest.trans (hfreq fun node freq heq => hnone node freq (heq ▸ List.mem_cons_self))

omit [Zero W] [VelocityF32 F] in
theorem frequencies_eq {next : Graph W T} (hcount : next.nodes.count = graph.nodes.count)
    (hfreq : next.nodes.changeFrequency = graph.nodes.changeFrequency) :
    VelocityScorer.frequencies next = VelocityScorer.frequencies graph := by
  rw [VelocityScorer.frequencies, VelocityScorer.frequencies, Graph.numNodes, Graph.numNodes,
    hcount, hfreq]

theorem graphAfter_append : graphAfter (ops ++ after) = after.foldl applyGraph (graphAfter ops) :=
  List.foldl_append

end Graphs

section Runs

variable {ops : List (VelocityOp W T)} {op : VelocityOp W T}

theorem run_concat : (run (ops ++ [op]) : Graph W T × VelocityScorer F) =
    (op.applyGraph (run ops : Graph W T × VelocityScorer F).1, op.applyScorer
      (run ops : Graph W T × VelocityScorer F).1 (run ops : Graph W T × VelocityScorer F).2) := by
  rw [run, List.foldl_append]
  rfl

theorem fst_run : (run ops : Graph W T × VelocityScorer F).1 = graphAfter ops := by
  induction ops using List.reverseRecOn with
  | nil => rfl
  | append_singleton ops op ih =>
      rw [run_concat, graphAfter_append, ih]
      rfl

omit [Zero W] in
-- A scoring call keeps the cached stats or computes those of the graph.
theorem applyScorer_scoreAllCached (graph : Graph W T) (scorer : VelocityScorer F) :
    scoreAllCached.applyScorer graph scorer = scorer ∨
      ∃ stats, (VelocityScorer.frequencies graph).map VelocityScorer.computeStats = some stats ∧
        scoreAllCached.applyScorer graph scorer = ⟨some (graph.nodes.count, stats)⟩ := by
  have hstats : ∀ stats next, scorer.frequencyStats graph = some (stats, next) →
      next = scorer ∨ (VelocityScorer.frequencies graph).map VelocityScorer.computeStats =
        some stats ∧ next = ⟨some (graph.nodes.count, stats)⟩ := by
    have hrecompute : ∀ stats next, VelocityScorer.recompute graph = some (stats, next) →
        (VelocityScorer.frequencies graph).map VelocityScorer.computeStats =
          some stats ∧ next = ⟨some (graph.nodes.count, stats)⟩ := by
      intro stats next hnext
      obtain ⟨frequencies, hfrequencies, hnext⟩ := Option.bind_eq_some_iff.mp hnext
      obtain ⟨rfl, rfl⟩ := Prod.mk.inj (Option.some.inj hnext)
      exact ⟨by rw [hfrequencies, Option.map_some], rfl⟩
    intro stats next hnext
    unfold VelocityScorer.frequencyStats at hnext
    split at hnext
    · obtain ⟨-, rfl⟩ := Prod.mk.inj (Option.some.inj hnext)
      exact .inl rfl
    · split at hnext
      · split at hnext
        · obtain ⟨-, rfl⟩ := Prod.mk.inj (Option.some.inj hnext)
          exact .inl rfl
        · exact .inr (hrecompute stats next hnext)
      · exact .inr (hrecompute stats next hnext)
  rw [applyScorer]
  cases hcall : scorer.scoreAllCached graph with
  | none => exact .inl rfl
  | some result =>
      obtain ⟨⟨stats, next⟩, hfrequency, hrest⟩ := Option.bind_eq_some_iff.mp hcall
      obtain ⟨scores, -, hresult⟩ := Option.bind_eq_some_iff.mp hrest
      obtain rfl := Option.some.inj hresult
      obtain hsame | ⟨hfresh, hnext⟩ := hstats stats next hfrequency
      · exact .inl hsame
      · exact .inr ⟨stats, hfresh, hnext⟩

-- Cached stats were those of the graph at a scoring call that was not followed by an invalidation.
theorem cachedStats_backed {count : Nat} {stats : F × F}
    (hcached : (run ops : Graph W T × VelocityScorer F).2.cachedStats = some (count, stats)) :
    ∃ before after, ops = before ++ scoreAllCached :: after ∧ invalidateCache ∉ after ∧
      (graphAfter before).nodes.count = count ∧
      (VelocityScorer.frequencies (graphAfter before)).map VelocityScorer.computeStats =
        some stats := by
  induction ops using List.reverseRecOn with
  | nil => exact absurd hcached nofun
  | append_singleton ops op ih =>
      have hextend : op ≠ invalidateCache →
          (run ops : Graph W T × VelocityScorer F).2.cachedStats = some (count, stats) →
          ∃ before after, ops ++ [op] = before ++ scoreAllCached :: after ∧
            invalidateCache ∉ after ∧ (graphAfter before).nodes.count = count ∧
            (VelocityScorer.frequencies (graphAfter before)).map VelocityScorer.computeStats =
              some stats := by
        intro hne hbefore
        obtain ⟨before, after, rfl, hnone, hrest⟩ := ih hbefore
        refine ⟨before, after ++ [op], by simp, fun hmem => ?_, hrest⟩
        obtain hmem | hmem := List.mem_append.mp hmem
        · exact hnone hmem
        · exact hne (List.mem_singleton.mp hmem).symm
      rw [run_concat] at hcached
      cases op with
      | change op => exact hextend nofun hcached
      | setLastModified node lastModified => exact hextend nofun hcached
      | setChangeFrequency node freq => exact hextend nofun hcached
      | scoreAll => exact hextend nofun hcached
      | scoreAllCached =>
          rw [fst_run] at hcached
          obtain hsame | ⟨fresh, hfresh, hnext⟩ := applyScorer_scoreAllCached (graphAfter ops)
            (run ops : Graph W T × VelocityScorer F).2
          · rw [hsame] at hcached
            exact hextend nofun hcached
          · rw [hnext] at hcached
            obtain ⟨rfl, rfl⟩ := Prod.mk.inj (Option.some.inj hcached)
            exact ⟨ops, [], rfl, List.not_mem_nil, rfl, hfresh⟩
      | invalidateCache => exact absurd hcached nofun

-- Cached stats that are used are those of the graph.
theorem cachedStats_fresh (hrenewed : Renewed ops) {stats : F × F}
    (hcached : (run ops : Graph W T × VelocityScorer F).2.cachedStats =
      some ((graphAfter ops).nodes.count, stats)) :
    (VelocityScorer.frequencies (graphAfter ops)).map VelocityScorer.computeStats = some stats := by
  obtain ⟨before, after, rfl, hnone, hcount, hstats⟩ := cachedStats_backed hcached
  have hkept : ∀ node freq, setChangeFrequency node freq ∉ after := by
    intro node freq hmem
    obtain ⟨between, rest, rfl⟩ := List.append_of_mem hmem
    obtain hmem | hlt := hrenewed before between rest node freq (by simp)
    · obtain hmem | hmem := List.mem_append.mp hmem
      · exact hnone (List.mem_append_left _ hmem)
      · exact hnone (List.mem_append_right _ (List.mem_cons_of_mem _ hmem))
    · exact absurd hcount hlt.ne
  have hgraph : graphAfter (before ++ scoreAllCached :: after) =
      after.foldl applyGraph (graphAfter before) := graphAfter_append
  rw [hgraph] at hcount ⊢
  obtain ⟨-, hfreq⟩ := count_foldl (graphAfter before) after
  rw [frequencies_eq hcount.symm (hfreq hcount.symm hkept), hstats]

end Runs

end VelocityOp

namespace VelocityScorer

variable {scorer : VelocityScorer F}

omit [Zero W] in
theorem map_recompute (graph : Graph W T) :
    (recompute graph).map Prod.fst = (frequencies graph).map computeStats := by
  unfold recompute
  cases frequencies graph with
  | none => rfl
  | some frequencies => rfl

omit [Zero W] in
theorem frequencyStats_fresh (hfresh : ∀ stats,
    scorer.cachedStats = some (graph.nodes.count, stats) →
    (frequencies graph).map computeStats = some stats) :
    (scorer.frequencyStats graph).map Prod.fst = frequencyStatsStatic graph := by
  unfold frequencyStats frequencyStatsStatic
  by_cases hnone : graph.numNodes = 0
  · rw [if_pos hnone, if_pos hnone]
    rfl
  · rw [if_neg hnone, if_neg hnone]
    split
    case h_1 cachedN stats hcached =>
      split
      case isTrue hcount =>
        rw [hcount] at hcached
        exact (hfresh stats hcached).symm
      case isFalse => exact map_recompute graph
    case h_2 => exact map_recompute graph

end VelocityScorer

open VelocityOp in
-- Where changed frequencies renew the cache, a cached score is a fresh one, after any changes and
-- scoring calls.
theorem VelocityScorer.scoreAllCached_eq_scoreAll (ops : List (VelocityOp W T))
    (hrenewed : Renewed ops) :
    ((run ops : Graph W T × VelocityScorer F).2.scoreAllCached (graphAfter ops)).map Prod.fst =
      VelocityScorer.scoreAll (graphAfter ops) := by
  have hstats := VelocityScorer.frequencyStats_fresh fun stats hcached =>
    cachedStats_fresh (F := F) hrenewed hcached
  unfold VelocityScorer.scoreAllCached VelocityScorer.scoreAll
  rw [← hstats]
  cases (run ops : Graph W T × VelocityScorer F).2.frequencyStats (graphAfter ops) with
  | none => rfl
  | some result =>
      cases hscores : VelocityScorer.scoreNodes (graphAfter ops) result.1 with
      | none => simp [hscores]
      | some scores => simp [hscores]

instance exactVelocity : VelocityF32 Rat where
  ofCount n := n
  sqrt := Rat.sqrt
  minStddev := 1 / 100
  accelerating := 1 / 2
  decelerating := -1 / 2
  minVelocity := 1 / 10

-- Two nodes with different frequencies are scored, and then given the same one.
def VelocityOp.levelling : List (VelocityOp Rat Nat) :=
  [.change (.addNode "a" "a" .File [] 0 0), .change (.addNode "b" "b" .File [] 0 2),
    .scoreAllCached, .setChangeFrequency 0 2]

theorem VelocityScorer.scoreAllCached_eq_scoreAll_levelling :
    let ops := VelocityOp.levelling ++ [.invalidateCache]
    ((VelocityOp.run ops : Graph Rat Nat × VelocityScorer Rat).2.scoreAllCached
      (VelocityOp.graphAfter ops)).map Prod.fst =
        VelocityScorer.scoreAll (VelocityOp.graphAfter ops) := by
  refine VelocityScorer.scoreAllCached_eq_scoreAll _ fun before between after node freq hops => ?_
  left
  cases after using List.reverseRecOn with
  | nil => exact absurd (List.append_inj' hops rfl).2 nofun
  | append_singleton after last =>
      rw [← List.cons_append, ← List.append_assoc] at hops
      obtain rfl := List.singleton_inj.mp (List.append_inj' hops rfl).2
      simp

-- The cache holds what it computed for the same number of nodes.
theorem VelocityScorer.scoreAllCached_stale :
    ((VelocityOp.run VelocityOp.levelling : Graph Rat Nat × VelocityScorer Rat).2.scoreAllCached
      (VelocityOp.graphAfter VelocityOp.levelling)).map Prod.fst ≠
        VelocityScorer.scoreAll (VelocityOp.graphAfter VelocityOp.levelling) := by
  decide +kernel

end M1nd.Core
