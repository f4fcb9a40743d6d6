import M1nd.Core.Flow.Arrivals
import M1nd.Library.Collections

namespace M1nd.Core.FlowEngine

open M1nd.Library.Collections
open M1nd.Library.Loops
open M1nd.Library.Trails

section Simulation

variable {K T : Type} [Field K] [LinearOrder K] [Lowercase] {graph : Graph K T}
  {config : FlowConfig K} {allowed : Option (List Bool)} {flow : FlowState}
  {entryNodes : List Nat} {numParticles e v o : Nat}

section Ways

-- An edge that carries particles: it does not inhibit, it is strong enough, and its end is in scope.
def Carries (graph : Graph K T) (config : FlowConfig K) (a b : Nat) : Prop :=
  ∃ j ∈ graph.csr.outRange a, graph.csr.inhibitory[j]? = some false ∧
    (∃ weight, graph.csr.weights[EdgeIdx.new j]? = some weight ∧ config.minEdgeWeight ≤ weight) ∧
      graph.csr.targets[j]? = some b ∧ b < graph.nodes.count ∧ InScope graph config b

-- A path of such edges from an entry to a node.
def Reaches (graph : Graph K T) (config : FlowConfig K) (e v : Nat) (path : List Nat) : Prop :=
  Path (Carries graph config) e path ∧ path.getLast? = some v ∧ path.length ≤ config.maxDepth + 1

omit [Field K] in
theorem passable_eq (hgraph : graph.Navigable)
    (hscope : ∀ v < graph.nodes.count, (∀ marks, allowed = some marks → marks[v]? = some true) ↔
      InScope graph config v) (hscoped : Scoped graph allowed) :
    Passable graph config allowed = Carries graph config := by
  funext a b
  apply propext
  refine exists_congr fun j => and_congr_right fun hj => ?_
  obtain ⟨mark, hmark⟩ := hgraph.inhibitory a j hj
  obtain ⟨weight, hweight⟩ := hgraph.weights a j hj
  obtain ⟨target, htarget⟩ := hgraph.targets a j hj
  rw [followedTarget, hmark, hweight, htarget]
  simp only [Option.bind_eq_bind, Option.bind_some, Option.some.injEq, exists_eq_left']
  cases mark with
  | true => simp
  | false =>
      rw [if_neg (by simp)]
      by_cases hweak : weight < config.minEdgeWeight
      · simp [hweak]
      · rw [if_neg hweak, Graph.numNodes]
        by_cases hfar : graph.nodes.count ≤ target
        · rw [if_pos hfar]
          refine iff_of_false (by simp) ?_
          rintro ⟨-, -, rfl, hlt, -⟩
          omega
        · rw [if_neg hfar]
          have hlt := not_le.mp hfar
          have hcarried : (false = false ∧ config.minEdgeWeight ≤ weight ∧ target = b ∧
              b < graph.nodes.count ∧ InScope graph config b) ↔
                InScope graph config target ∧ target = b := by
            constructor
            · rintro ⟨-, -, rfl, -, hin⟩
              exact ⟨hin, rfl⟩
            · rintro ⟨hin, rfl⟩
              exact ⟨rfl, not_lt.mp hweak, rfl, hlt, hin⟩
          rw [hcarried, ← hscope target hlt]
          cases allowed with
          | none => simp
          | some marks =>
              have hmarks : target < marks.length := hscoped marks rfl ▸ hlt
              dsimp only
              rw [List.getElem?_eq_getElem hmarks]
              cases hmark : marks[target] <;> simp [hmarks, hmark]

-- A way that comes to no node twice, and an edge from its end.
def Arrives (graph : Graph K T) (config : FlowConfig K) (e v : Nat) (t : List Nat) : Prop :=
  Trail (Carries graph config) e t ∧ t.length ≤ config.maxDepth ∧
    ∃ u, t.getLast? = some u ∧ Carries graph config u v

variable {path t : List Nat}

omit [Field K] in
theorem reaches_start (graph : Graph K T) (config : FlowConfig K) (e : Nat) :
    Reaches graph config e e [e] :=
  ⟨.start _ e, rfl, Nat.le_add_left 1 _⟩

omit [Field K] in
theorem Arrives.reaches (h : Arrives graph config e v t) : Reaches graph config e v (t ++ [v]) := by
  obtain ⟨htrail, hlength, u, hu, hcarries⟩ := h
  refine ⟨htrail.toPath.concat hu hcarries, List.getLast?_concat, ?_⟩
  rw [List.length_append, List.length_singleton]
  exact Nat.add_le_add_right hlength 1

omit [Field K] in
theorem Reaches.arrives (h : Reaches graph config e v path) :
    v = e ∨ ∃ t, Arrives graph config e v t ∧ t ⊆ path.dropLast := by
  obtain ⟨hpath, hlast, hlength⟩ := h
  obtain ⟨init, rfl⟩ := List.getLast?_eq_some_iff.mp hlast
  rw [List.length_append, List.length_singleton] at hlength
  by_cases hinit : init = []
  · subst hinit
    exact .inl (Option.some.inj hpath.head)
  · obtain ⟨hway, u, hu, hcarries⟩ := hpath.exists_init hinit
    obtain ⟨t, htrail, hend, hsub, hle⟩ := hway.exists_trail hu
    refine .inr ⟨t, ⟨htrail, by omega, u, hend, hcarries⟩, ?_⟩
    rwa [List.dropLast_concat]

omit [Field K] in
theorem exists_comes_iff (hpass : Passable graph config allowed = Carries graph config) :
    (∃ serializedBy path, Comes graph config allowed e v serializedBy path) ↔
      ∃ path, Reaches graph config e v path := by
  simp only [Comes, hpass]
  constructor
  · rintro ⟨serializedBy, path, ⟨rfl, -, -⟩ | ⟨t, htrail, hlength, hto, -, -⟩⟩
    · exact ⟨[v], reaches_start graph config v⟩
    · exact ⟨t ++ [v], Arrives.reaches ⟨htrail, hlength, hto⟩⟩
  · rintro ⟨path, hpath⟩
    obtain rfl | ⟨t, ⟨htrail, hlength, hto⟩, -⟩ := hpath.arrives
    · exact ⟨none, [v], .inl ⟨rfl, rfl, rfl⟩⟩
    · exact ⟨_, _, .inr ⟨t, htrail, hlength, hto, rfl, rfl⟩⟩

omit [Field K] in
theorem exists_comes_none_iff (hpass : Passable graph config allowed = Carries graph config) :
    (∃ path, Comes graph config allowed e v none path) ↔
      ∃ path, Reaches graph config e v path ∧
        ∀ u ∈ path.dropLast, valveAt graph config u = none := by
  simp only [Comes, hpass]
  constructor
  · rintro ⟨path, ⟨rfl, -, -⟩ | ⟨t, htrail, hlength, hto, hfree, -⟩⟩
    · exact ⟨[v], reaches_start graph config v, fun u hu => absurd hu List.not_mem_nil⟩
    · refine ⟨t ++ [v], Arrives.reaches ⟨htrail, hlength, hto⟩, ?_⟩
      rw [List.dropLast_concat]
      exact lastValve_eq_none.mp hfree.symm
  · rintro ⟨path, hpath, hfree⟩
    obtain rfl | ⟨t, ⟨htrail, hlength, hto⟩, hsub⟩ := hpath.arrives
    · exact ⟨[v], .inl ⟨rfl, trivial, rfl⟩⟩
    · have hnone := lastValve_eq_none.mpr fun u hu => hfree u (hsub hu)
      exact ⟨_, .inr ⟨t, htrail, hlength, hto, hnone.symm, rfl⟩⟩

omit [Field K] in
-- The lock that the recorded paths of an entry show at a node that is no valve.
theorem exists_comes_valve_iff (hpass : Passable graph config allowed = Carries graph config)
    (hv : valveAt graph config v = none) :
    (∃ serializedBy path, Comes graph config allowed e v serializedBy path ∧
      ∃ u ∈ path, (valveAt graph config u).isSome) ↔ config.includePaths = true ∧
        ∃ t, Arrives graph config e v t ∧ ∃ u ∈ t, (valveAt graph config u).isSome := by
  simp only [Comes, hpass]
  constructor
  · rintro ⟨serializedBy, path, ⟨rfl, -, rfl⟩ | ⟨t, htrail, hlength, hto, -, rfl⟩, u, hu, hvalve⟩
    · obtain rfl := List.mem_singleton.mp hu
      rw [hv] at hvalve
      exact absurd hvalve (by simp)
    · split at hu
      · rename_i hpaths
        obtain hu | hu := List.mem_append.mp hu
        · exact ⟨hpaths, t, ⟨htrail, hlength, hto⟩, u, hu, hvalve⟩
        · obtain rfl := List.mem_singleton.mp hu
          rw [hv] at hvalve
          exact absurd hvalve (by simp)
      · exact absurd hu List.not_mem_nil
  · rintro ⟨hpaths, t, ⟨htrail, hlength, hto⟩, u, hu, hvalve⟩
    refine ⟨_, _, .inr ⟨t, htrail, hlength, hto, rfl, rfl⟩, u, ?_, hvalve⟩
    rw [if_pos hpaths]
    exact List.mem_append_left _ hu

end Ways

section Candidates

-- No limit cuts a propagation short.
def Uncut (graph : Graph K T) (config : FlowConfig K) (entryNodes : List Nat) (numParticles : Nat) :
    Prop :=
  ∃ flow, propagate graph config entryNodes numParticles = some flow ∧ flow.cut = false

variable {arrivals : List ParticleArrival}

omit [Field K] [LinearOrder K] [Lowercase] in
theorem mem_origins_iff : o ∈ origins (arrivalsAt flow v) ↔
    ∃ serializedBy path, Seen flow v o serializedBy path := by
  rw [origins, Std.ExtTreeSet.mem_ofList, List.contains_iff_mem, List.mem_map]
  constructor
  · rintro ⟨⟨_, id, serializedBy, path⟩, harrival, rfl⟩
    exact ⟨serializedBy, path, id, harrival⟩
  · rintro ⟨serializedBy, path, id, harrival⟩
    exact ⟨_, harrival, rfl⟩

omit [Field K] [LinearOrder K] [Lowercase] in
theorem mem_originsUnserialized_iff : o ∈ originsUnserialized (arrivalsAt flow v) ↔
    ∃ path, Seen flow v o none path := by
  rw [originsUnserialized, origins, Std.ExtTreeSet.mem_ofList, List.contains_iff_mem, List.mem_map]
  constructor
  · rintro ⟨⟨_, id, serializedBy, path⟩, harrival, rfl⟩
    obtain ⟨harrival, hnone⟩ := List.mem_filter.mp harrival
    obtain rfl := Option.isNone_iff_eq_none.mp hnone
    exact ⟨path, id, harrival⟩
  · rintro ⟨path, id, harrival⟩
    exact ⟨_, List.mem_filter.mpr ⟨harrival, rfl⟩, rfl⟩

omit [Lowercase] in
-- The candidates in the order of the nodes.
theorem flowTurbulentNodes_eq (flow : FlowState) : flowTurbulentNodes flow.accumulator =
    ((List.range flow.accumulator.length).filter fun v =>
      1 < (origins (arrivalsAt flow v)).size).map fun v => (v, arrivalsAt flow v) := by
  have hzip : flow.accumulator.zipIdx =
      (List.range flow.accumulator.length).map fun v => (arrivalsAt flow v, v) := by
    refine List.ext_getElem (by simp) fun i hi _ => ?_
    rw [List.length_zipIdx] at hi
    simp [arrivalsAt, hi]
  rw [flowTurbulentNodes, hzip, List.filter_map, List.map_map]
  rfl

-- What the particles of an uncut propagation have left.
structure Settles (graph : Graph K T) (config : FlowConfig K) (entryNodes : List Nat)
    (flow : FlowState) : Prop where
  length : flow.accumulator.length = graph.nodes.count
  origins : ∀ v o, o ∈ origins (arrivalsAt flow v) ↔
    o ∈ entryNodes ∧ o < graph.nodes.count ∧ ∃ path, Reaches graph config o v path
  unserialized : ∀ v o, o ∈ originsUnserialized (arrivalsAt flow v) ↔
    o ∈ entryNodes ∧ o < graph.nodes.count ∧ ∃ path, Reaches graph config o v path ∧
      ∀ u ∈ path.dropLast, valveAt graph config u = none
  locks : ∀ v, valveAt graph config v = none → ((∃ a ∈ arrivalsAt flow v, ∃ u ∈ a.path,
    (valveAt graph config u).isSome) ↔ config.includePaths = true ∧
      ∃ o ∈ entryNodes, o < graph.nodes.count ∧
        ∃ t, Arrives graph config o v t ∧ ∃ u ∈ t, (valveAt graph config u).isSome)

omit [Field K] in
theorem Uncut.settles (h : Uncut graph config entryNodes numParticles) (hgraph : graph.Navigable)
    (hpos : 0 < min numParticles config.maxParticles) :
    ∃ flow, propagate graph config entryNodes numParticles = some flow ∧
      Settles graph config entryNodes flow := by
  obtain ⟨uncut, huncut, hcut⟩ := h
  obtain ⟨allowed, flow, hscoped, hscope, hflow, hadds⟩ :=
    exists_propagate config entryNodes numParticles hgraph
  obtain rfl := Option.some.inj (huncut.symm.trans hflow)
  have hpass : Passable graph config allowed = Carries graph config :=
    passable_eq hgraph hscope hscoped
  have hseen (v o : Nat) (serializedBy : Option Nat) (path : List Nat) :
      Seen uncut v o serializedBy path ↔ o ∈ entryNodes ∧ o < graph.nodes.count ∧
        Comes graph config allowed o v serializedBy path := by
    rw [hadds.seen hcut]
    refine (or_iff_right ?_).trans (by simp only [hpos, true_and])
    rintro ⟨id, hid⟩
    simp [arrivalsAt, FlowState.new] at hid
  refine ⟨uncut, huncut, hadds.length, fun v o => ?_, fun v o => ?_, fun v hv => ?_⟩
  · rw [mem_origins_iff, ← exists_comes_iff hpass]
    simp only [hseen, exists_and_left]
  · rw [mem_originsUnserialized_iff, ← exists_comes_none_iff hpass]
    simp only [hseen, exists_and_left]
  · have harrived : (∃ a ∈ arrivalsAt uncut v, ∃ u ∈ a.path, (valveAt graph config u).isSome) ↔
        ∃ o serializedBy path, Seen uncut v o serializedBy path ∧
          ∃ u ∈ path, (valveAt graph config u).isSome := by
      constructor
      · rintro ⟨⟨o, id, serializedBy, path⟩, harrival, hlock⟩
        exact ⟨o, serializedBy, path, ⟨id, harrival⟩, hlock⟩
      · rintro ⟨o, serializedBy, path, ⟨id, harrival⟩, hlock⟩
        exact ⟨_, harrival, hlock⟩
    rw [harrived]
    constructor
    · rintro ⟨o, serializedBy, path, hmem, hlock⟩
      obtain ⟨ho, hlt, hcomes⟩ := (hseen v o serializedBy path).mp hmem
      obtain ⟨hpaths, hway⟩ :=
        (exists_comes_valve_iff hpass hv).mp ⟨serializedBy, path, hcomes, hlock⟩
      exact ⟨hpaths, o, ho, hlt, hway⟩
    · rintro ⟨hpaths, o, ho, hlt, hway⟩
      obtain ⟨serializedBy, path, hcomes, hlock⟩ :=
        (exists_comes_valve_iff hpass hv).mpr ⟨hpaths, hway⟩
      exact ⟨o, serializedBy, path, (hseen v o serializedBy path).mpr ⟨ho, hlt, hcomes⟩, hlock⟩

-- A node that two different entries reach.
def Turbulent (graph : Graph K T) (config : FlowConfig K) (entryNodes : List Nat) (v : Nat) : Prop :=
  ∃ o ∈ entryNodes, ∃ o' ∈ entryNodes, o ≠ o' ∧ o < graph.nodes.count ∧ o' < graph.nodes.count ∧
    (∃ path, Reaches graph config o v path) ∧ ∃ path, Reaches graph config o' v path

omit [Field K] in
theorem Reaches.lt {path : List Nat} (h : Reaches graph config o v path)
    (ho : o < graph.nodes.count) : v < graph.nodes.count := by
  obtain rfl | ⟨t, ⟨-, -, u, -, j, -, -, -, -, hlt, -⟩, -⟩ := h.arrives
  · exact ho
  · exact hlt

omit [Field K] in
theorem Settles.candidate_iff (h : Settles graph config entryNodes flow) (v : Nat) :
    v ∈ (flowTurbulentNodes flow.accumulator).map Prod.fst ↔
      Turbulent graph config entryNodes v := by
  simp only [flowTurbulentNodes_eq, List.map_map, Function.comp_def, List.map_id', List.mem_filter,
    List.mem_range, h.length, decide_eq_true_eq, one_lt_size_iff, h.origins]
  constructor
  · rintro ⟨-, o, ⟨ho, hlt, hpath⟩, o', ⟨ho', hlt', hpath'⟩, hne⟩
    exact ⟨o, ho, o', ho', hne, hlt, hlt', hpath, hpath'⟩
  · rintro ⟨o, ho, o', ho', hne, hlt, hlt', ⟨path, hpath⟩, hpath'⟩
    exact ⟨hpath.lt hlt, o, ⟨ho, hlt, path, hpath⟩, o', ⟨ho', hlt', hpath'⟩, hne⟩

end Candidates

section Verdicts

variable {arrivals : List ParticleArrival}

def readOnlyAt (graph : Graph K T) (config : FlowConfig K) (node : Nat) : Bool :=
  (flowIsReadOnly graph config node).getD false

-- How a node is accessed if a lock is the nearest before it.
def accessAt (graph : Graph K T) (config : FlowConfig K) (node : Nat) (nearest : Option Nat) :
    Access K where
  hasLock := (valveAt graph config node).isSome
  nearestLock := nearest
  isReadOnly := readOnlyAt graph config node
  centrality := flowInDegree graph node / max (flowMaxInDegree graph) 1

omit [LinearOrder K] in
theorem exists_accessOf (h : graph.Navigable) (config : FlowConfig K) (node : Nat)
    (arrivals : List ParticleArrival) : ∃ nearest : Option Nat,
      (nearest.isSome ↔ ∃ a ∈ arrivals, ∃ u ∈ a.path, (valveAt graph config u).isSome) ∧
        accessOf graph config node arrivals = some (accessAt graph config node nearest) := by
  have hpath (path : List Nat) : ∃ found, flowFindNearestUpstreamLock graph path config =
      some found ∧ (found.isSome ↔ ∃ u ∈ path, (valveAt graph config u).isSome) := by
    have htest : ∀ u ∈ path.reverse, ∃ value, (flowIsValve graph config u).map
        (fun lock => lock.map fun _ => u) = some value := by
      intro u _
      exact ⟨_, by rw [flowIsValve_eq h]; rfl⟩
    obtain ⟨found, hfound, hiff⟩ := exists_findSomeM htest
    refine ⟨found, hfound, hiff.trans ?_⟩
    simp [flowIsValve_eq h, Option.isSome_iff_exists]
  obtain ⟨nearest, hnearest, hiff⟩ := exists_findSomeM
    fun (a : ParticleArrival) (_ : a ∈ arrivals) => Exists.imp (fun _ => And.left) (hpath a.path)
  refine ⟨nearest, hiff.trans ?_, ?_⟩
  · refine exists_congr fun a => and_congr_right fun _ => ?_
    obtain ⟨found, hfound, hlock⟩ := hpath a.path
    rw [← hlock, hfound]
    cases found <;> simp
  · obtain ⟨readOnly, hreadOnly⟩ := exists_flowIsReadOnly h config node
    rw [accessOf, flowIsValve_eq h, hreadOnly, nearestLock, hnearest, accessAt, readOnlyAt,
      hreadOnly]
    rfl

-- A point without what depends on which of the recorded paths comes first.
def TurbulencePoint.unrouted (point : TurbulencePoint K) : TurbulencePoint K :=
  { point with nearestUpstreamLock := none, paths := [] }

-- The locks that a caller says protect a node.
def advised (graph : Graph K T) (config : FlowConfig K) (node : Nat) : Bool :=
  !((config.advisoryLockProtectedNodes[labelAt graph node]?).getD []).isEmpty

def countOf (reached unserialized : Nat) : Nat :=
  if 1 < unserialized then unserialized else reached

-- What is reported of a candidate that these origins come to, past a lock or past none.
def verdictAt (graph : Graph K T) (config : FlowConfig K) (numParticles node : Nat)
    (reached unserialized : Std.ExtTreeSet Nat) (locked : Bool) : Option (TurbulencePoint K) :=
  let access := accessAt graph config node (if locked = true then some node else none)
  let count := countOf reached.size unserialized.size
  let score := openScore numParticles count access * access.lockFactor *
    advisoryFactor (advised graph config node)
  if score < config.turbulenceThreshold then none
  else some {
    node := node
    nodeLabel := labelAt graph node
    particleCount := count
    hasLock := access.hasLock
    isReadOnly := access.isReadOnly
    turbulenceScore := score
    severity := severityOf score count access (advised graph config node)
    entryPairs := pairsOf (reached.toList.map (labelAt graph))
    nearestUpstreamLock := none
    paths := [] }

omit [Field K] [LinearOrder K] [Lowercase] in
theorem exists_pathLabels (h : graph.Registered) (config : FlowConfig K)
    (arrivals : List ParticleArrival) : ∃ paths, pathLabels graph config arrivals = some paths := by
  rw [pathLabels]
  split
  · exact ⟨_, mapM_eq_map fun a _ => mapM_eq_map fun u _ => flowNodeLabel_eq h u⟩
  · exact ⟨[], rfl⟩

-- A severity does not tell which lock is the nearest.
theorem severityOf_locked (score : K) (count node lock lock' : Nat) (isAdvised : Bool) :
    severityOf score count (accessAt graph config node (some lock)) isAdvised =
      severityOf score count (accessAt graph config node (some lock')) isAdvised := by
  simp [severityOf, accessAt]

theorem exists_assess (h : graph.Navigable) (config : FlowConfig K) (numParticles node : Nat)
    (arrivals : List ParticleArrival) : ∃ locked : Bool,
      (locked = true ↔ ∃ a ∈ arrivals, ∃ u ∈ a.path, (valveAt graph config u).isSome) ∧
        ∃ protectedNode point, assess graph config numParticles (node, arrivals) =
          some (protectedNode, point) ∧ point.map TurbulencePoint.unrouted =
            verdictAt graph config numParticles node (origins arrivals)
              (originsUnserialized arrivals) locked := by
  obtain ⟨nearest, hnearest, haccess⟩ := exists_accessOf h config node arrivals
  refine ⟨nearest.isSome, hnearest, ?_⟩
  obtain ⟨paths, hpaths⟩ := exists_pathLabels h.registered config arrivals
  have hpairs : entryPairs graph arrivals =
      some (pairsOf ((origins arrivals).toList.map (labelAt graph))) := by
    rw [entryPairs, mapM_eq_map fun o _ => flowNodeLabel_eq h.registered o]
    rfl
  rw [assess, flowNodeLabel_eq h.registered, haccess, hpairs, hpaths]
  simp only [Option.bind_eq_bind, Option.bind_some]
  cases nearest with
  | none =>
      split
      · rename_i hlow
        refine ⟨_, _, rfl, ?_⟩
        rw [Option.map_none, verdictAt]
        exact (if_pos hlow).symm
      · rename_i hhigh
        refine ⟨_, _, rfl, ?_⟩
        rw [Option.map_some, verdictAt]
        exact (if_neg hhigh).symm
  | some lock =>
      simp only [accessAt, flowNodeLabel_eq h.registered lock, Option.map_some, Option.bind_some]
      split
      · rename_i hlow
        refine ⟨_, _, rfl, ?_⟩
        rw [Option.map_none, verdictAt]
        exact (if_pos hlow).symm
      · rename_i hhigh
        refine ⟨_, _, rfl, ?_⟩
        rw [Option.map_some, verdictAt]
        refine Eq.trans ?_ (if_neg hhigh).symm
        refine congrArg some (TurbulencePoint.mk.injEq .. ▸ ?_)
        exact ⟨rfl, rfl, rfl, rfl, rfl, rfl, severityOf_locked .., rfl, rfl, rfl⟩

omit [Field K] [LinearOrder K] [Lowercase] in
theorem exists_countDownstream (h : graph.Navigable) (depth : Nat) (visited : List Bool)
    (level : List Nat) (count : Nat) :
    ∃ total, countDownstream graph depth visited level count = some total := by
  induction depth generalizing visited level count with
  | zero => exact ⟨count, rfl⟩
  | succ depth ih =>
      have hnode (found : List Bool × List Nat) (current : Nat) :
          ∃ next, (graph.csr.outRange current).foldlM (fun found j =>
            (graph.csr.targets[j]?).map (downstreamTarget found)) found = some next := by
        have hedge : ∀ found : List Bool × List Nat, True → ∀ j ∈ graph.csr.outRange current,
            ∃ next, (graph.csr.targets[j]?).map (downstreamTarget found) = some next ∧ True := by
          intro found _ j hj
          obtain ⟨target, htarget⟩ := h.targets current j hj
          exact ⟨_, by rw [htarget, Option.map_some], trivial⟩
        obtain ⟨next, hnext, -⟩ := exists_foldlM (fun _ => True) trivial hedge
        exact ⟨next, hnext⟩
      obtain ⟨found, hfound, -⟩ := exists_foldlM (fun _ => True) trivial
        fun (found : List Bool × List Nat) _ current (_ : current ∈ level) =>
          Exists.imp (fun _ hnext => ⟨hnext, trivial⟩) (hnode found current)
      obtain ⟨total, htotal⟩ := ih found.1 found.2 (count + found.2.length)
      exact ⟨total, by rw [countDownstream, hfound]; exact htotal⟩

omit [Field K] [LinearOrder K] [Lowercase] in
theorem exists_valvePoint (h : graph.Navigable) (config : FlowConfig K)
    (entry : Nat × String × Nat) : ∃ point, valvePoint graph config entry = some point := by
  have hdownstream : ∃ total,
      flowCountDownstream graph entry.1 config.maxDepth = some total := by
    rw [flowCountDownstream]
    split
    · exact ⟨0, rfl⟩
    · exact exists_countDownstream h ..
  obtain ⟨total, htotal⟩ := hdownstream
  exact ⟨_, by rw [valvePoint, flowNodeLabel_eq h.registered, htotal]; rfl⟩

-- The order of a report.
def ranks (a b : TurbulencePoint K) : Bool :=
  b.turbulenceScore < a.turbulenceScore ∨ a.turbulenceScore = b.turbulenceScore ∧ a.node ≤ b.node

-- The points that a simulation reports.
def verdicts (graph : Graph K T) (config : FlowConfig K) (entryNodes : List Nat)
    (numParticles : Nat) : Option (Except FlowError (List (TurbulencePoint K))) :=
  (simulate graph config entryNodes numParticles).map fun outcome => outcome.map fun result =>
    result.turbulencePoints.map TurbulencePoint.unrouted

omit [Field K] [Lowercase] in
theorem map_turbulencePoints
    (assessed : List (Option (ProtectedNode K) × Option (TurbulencePoint K))) :
    (turbulencePoints assessed).map TurbulencePoint.unrouted =
      (assessed.filterMap fun entry => entry.2.map TurbulencePoint.unrouted).mergeSort ranks := by
  rw [← List.map_filterMap]
  exact List.map_mergeSort fun a _ b _ => rfl

-- The points of the candidates, where it is known which of them a lock precedes.
def reportOf (graph : Graph K T) (config : FlowConfig K) (numParticles : Nat) (flow : FlowState)
    (locked : Nat → Bool) : List (TurbulencePoint K) :=
  ((List.range flow.accumulator.length).filter fun v =>
      1 < (origins (arrivalsAt flow v)).size).filterMap fun v =>
    verdictAt graph config numParticles v (origins (arrivalsAt flow v))
      (originsUnserialized (arrivalsAt flow v)) (locked v)

theorem verdicts_eq (h : graph.Navigable) (hnodes : graph.numNodes ≠ 0) (hentries : entryNodes ≠ [])
    (hflow : propagate graph config entryNodes numParticles = some flow) :
    ∃ locked : Nat → Bool,
      (∀ v, locked v = true ↔
        ∃ a ∈ arrivalsAt flow v, ∃ u ∈ a.path, (valveAt graph config u).isSome) ∧
      verdicts graph config entryNodes numParticles = some (.ok ((reportOf graph config
        (min numParticles config.maxParticles) flow locked).mergeSort ranks)) := by
  choose locked hlocked protectedNode point hassess hpoint using fun v =>
    exists_assess h config (min numParticles config.maxParticles) v (arrivalsAt flow v)
  refine ⟨locked, hlocked, ?_⟩
  obtain ⟨valves, hvalves, -⟩ := exists_mapM
    fun entry (_ : entry ∈ flow.valves.toList) => exists_valvePoint h config entry
  have hassessed : (flowTurbulentNodes flow.accumulator).mapM
      (assess graph config (min numParticles config.maxParticles)) =
        some ((flowTurbulentNodes flow.accumulator).map fun candidate =>
          (protectedNode candidate.1, point candidate.1)) := by
    refine mapM_eq_map fun candidate hcandidate => ?_
    rw [flowTurbulentNodes_eq] at hcandidate
    obtain ⟨v, -, rfl⟩ := List.mem_map.mp hcandidate
    exact hassess v
  rw [verdicts, simulate, if_neg (by tauto), hflow]
  simp only [Option.bind_eq_bind, Option.bind_some, hassessed, hvalves, Option.map_some,
    Except.map]
  rw [map_turbulencePoints, flowTurbulentNodes_eq, List.map_map, List.filterMap_map]
  simp only [Function.comp_def, hpoint, reportOf]

end Verdicts

section Scores

-- The score of a candidate with no lock before it.
def openScoreAt (graph : Graph K T) (config : FlowConfig K) (numParticles node count : Nat) : K :=
  openScore numParticles count (accessAt graph config node none) *
    advisoryFactor (advised graph config node)

variable {node : Nat} {reached unserialized : Std.ExtTreeSet Nat} {point : TurbulencePoint K}

-- The score of a valve is zero, and it is never critical.
theorem verdictAt_of_valve (hv : (valveAt graph config node).isSome) (locked locked' : Bool) :
    verdictAt graph config numParticles node reached unserialized locked =
      verdictAt graph config numParticles node reached unserialized locked' := by
  simp [verdictAt, accessAt, hv, Access.lockFactor, severityOf, openScore]

omit [LinearOrder K] in
theorem lockFactor_accessAt (hv : valveAt graph config node = none) (locked : Bool) :
    (accessAt graph config node (if locked = true then some node else none)).lockFactor =
      if locked = true then 0.3 else 1 := by
  cases locked <;> simp [accessAt, hv, Access.lockFactor]

theorem score_accessAt (hv : valveAt graph config node = none) (count : Nat) (locked : Bool) :
    openScore numParticles count
        (accessAt graph config node (if locked = true then some node else none)) *
      (accessAt graph config node (if locked = true then some node else none)).lockFactor *
        advisoryFactor (advised graph config node) =
      openScoreAt graph config numParticles node count * (if locked = true then 0.3 else 1) := by
  rw [lockFactor_accessAt hv, openScoreAt, mul_right_comm]
  rfl

theorem verdictAt_eq_none_iff (hv : valveAt graph config node = none) (locked : Bool) :
    verdictAt graph config numParticles node reached unserialized locked = none ↔
      openScoreAt graph config numParticles node (countOf reached.size unserialized.size) *
        (if locked = true then 0.3 else 1) < config.turbulenceThreshold := by
  rw [verdictAt, ← score_accessAt hv]
  refine ite_eq_left_iff.trans ⟨fun h => ?_, fun hlow hhigh => absurd hlow hhigh⟩
  by_contra hhigh
  exact absurd (h hhigh) (by simp)

theorem node_verdictAt {locked : Bool}
    (h : verdictAt graph config numParticles node reached unserialized locked = some point) :
    point.node = node := by
  rw [verdictAt] at h
  obtain ⟨-, hpoint⟩ := Option.ite_none_left_eq_some.mp h
  rw [← Option.some.inj hpoint]

theorem score_verdictAt (hv : valveAt graph config node = none) {locked : Bool}
    (h : verdictAt graph config numParticles node reached unserialized locked = some point) :
    point.turbulenceScore =
      openScoreAt graph config numParticles node (countOf reached.size unserialized.size) *
        (if locked = true then 0.3 else 1) := by
  rw [verdictAt] at h
  obtain ⟨-, hpoint⟩ := Option.ite_none_left_eq_some.mp h
  rw [← Option.some.inj hpoint]
  exact score_accessAt hv _ locked

variable [IsStrictOrderedRing K]

theorem openScoreAt_pos {count : Nat} (hcount : 0 < count) :
    0 < openScoreAt graph config numParticles node count := by
  have hcentrality : (0 : K) ≤ (accessAt graph config node none).centrality := by
    rw [accessAt]
    positivity
  have hcast : (0 : K) < count := Nat.cast_pos.mpr hcount
  have hspawned : (0 : K) < (max numParticles 1 : Nat) :=
    Nat.cast_pos.mpr (lt_of_lt_of_le one_pos (le_max_right _ _))
  have hbase : 0 < min ((count : K) / (max numParticles 1 : Nat)) 1 :=
    lt_min (div_pos hcast hspawned) one_pos
  rw [openScoreAt, openScore, advisoryFactor]
  have hread : (0 : K) < if (accessAt graph config node none).isReadOnly = true then 2 / 10 else 1 :=
    by split <;> norm_num
  have hutility : (0 : K) < if (accessAt graph config node none).isReadOnly = true ∧
      9 / 10 < (accessAt graph config node none).centrality then 1 / 10 else 1 := by
    split <;> norm_num
  have hadvised : (0 : K) < if advised graph config node = true then 15 / 100 else 1 := by
    split <;> norm_num
  positivity

theorem verdictAt_of_low (hv : valveAt graph config node = none)
    (hcount : 0 < countOf reached.size unserialized.size)
    (hlow : openScoreAt graph config numParticles node (countOf reached.size unserialized.size) <
      config.turbulenceThreshold) (locked : Bool) :
    verdictAt graph config numParticles node reached unserialized locked = none := by
  refine (verdictAt_eq_none_iff hv locked).mpr (lt_of_le_of_lt ?_ hlow)
  refine mul_le_of_le_one_right (openScoreAt_pos hcount).le ?_
  split <;> norm_num

-- A lock shows in what is reported of a candidate whose score without one is high enough.
theorem exists_verdictAt_open (hv : valveAt graph config node = none)
    (hcount : 0 < countOf reached.size unserialized.size)
    (hhigh : config.turbulenceThreshold ≤
      openScoreAt graph config numParticles node (countOf reached.size unserialized.size)) :
    ∃ point, verdictAt graph config numParticles node reached unserialized false = some point ∧
      verdictAt graph config numParticles node reached unserialized true ≠ some point := by
  have hpos : 0 < openScoreAt graph config numParticles node
      (countOf reached.size unserialized.size) := openScoreAt_pos hcount
  cases hopen : verdictAt graph config numParticles node reached unserialized false with
  | none =>
      have hlow := (verdictAt_eq_none_iff hv false).mp hopen
      rw [if_neg (by simp), mul_one] at hlow
      exact absurd hhigh (not_le.mpr hlow)
  | some point =>
      refine ⟨point, rfl, fun hlocked => ?_⟩
      have hscore := (score_verdictAt hv hopen).symm.trans (score_verdictAt hv hlocked)
      rw [if_neg (by simp), if_pos rfl, mul_one] at hscore
      have htenth : openScoreAt graph config numParticles node
          (countOf reached.size unserialized.size) * 0.3 <
            openScoreAt graph config numParticles node
              (countOf reached.size unserialized.size) * 1 :=
        mul_lt_mul_of_pos_left (by norm_num) hpos
      rw [mul_one, ← hscore] at htenth
      exact lt_irrefl _ htenth

end Scores

-- How many points a simulation reports.
def reportCount (graph : Graph K T) (config : FlowConfig K) (entryNodes : List Nat)
    (numParticles : Nat) : Option Nat := do
  let flow ← propagate graph config entryNodes numParticles
  let assessed ← (flowTurbulentNodes flow.accumulator).mapM
    (assess graph config (min numParticles config.maxParticles))
  some (assessed.filterMap Prod.snd).length

theorem reportCount_eq {points : List (TurbulencePoint K)}
    (h : verdicts graph config entryNodes numParticles = some (.ok points)) :
    reportCount graph config entryNodes numParticles = some points.length := by
  obtain ⟨outcome, houtcome, hpoints⟩ := Option.map_eq_some_iff.mp h
  rw [simulate] at houtcome
  split at houtcome
  · obtain rfl := Option.some.inj houtcome
    exact absurd hpoints (by simp [Except.map])
  · obtain ⟨flow, hflow, houtcome⟩ := Option.bind_eq_some_iff.mp houtcome
    obtain ⟨assessed, hassessed, houtcome⟩ := Option.bind_eq_some_iff.mp houtcome
    obtain ⟨valves, -, houtcome⟩ := Option.bind_eq_some_iff.mp houtcome
    obtain rfl := Option.some.inj houtcome
    obtain rfl := Except.ok.inj hpoints
    rw [reportCount, hflow, Option.bind_eq_bind, Option.bind_some, hassessed, Option.bind_eq_bind,
      Option.bind_some, List.length_map, turbulencePoints, List.length_mergeSort]

section Main

open Classical in
-- The particles that count at a node: those that no valve has serialized, if they are several.
noncomputable def arrivingCount (graph : Graph K T) (config : FlowConfig K) (entryNodes : List Nat)
    (v : Nat) : Nat :=
  countOf
    (entryNodes.filter fun o => o < graph.nodes.count ∧
      ∃ path, Reaches graph config o v path).dedup.length
    (entryNodes.filter fun o => o < graph.nodes.count ∧ ∃ path, Reaches graph config o v path ∧
      ∀ u ∈ path.dropLast, valveAt graph config u = none).dedup.length

omit [Field K] in
theorem Settles.count (h : Settles graph config entryNodes flow) (v : Nat) :
    countOf (FlowEngine.origins (arrivalsAt flow v)).size
      (originsUnserialized (arrivalsAt flow v)).size = arrivingCount graph config entryNodes v := by
  classical
  rw [arrivingCount]
  congr 1
  · refine size_eq_length_dedup fun o => (h.origins v o).trans ?_
    rw [List.mem_filter, decide_eq_true_eq]
  · refine size_eq_length_dedup fun o => (h.unserialized v o).trans ?_
    rw [List.mem_filter, decide_eq_true_eq]

-- Every candidate that is no valve, but has a valve on a recorded path, scores too low to be
-- reported even if no lock were seen.
def LocksSettled (graph : Graph K T) (config : FlowConfig K) (entryNodes : List Nat)
    (numParticles : Nat) : Prop :=
  ∀ v, Turbulent graph config entryNodes v → valveAt graph config v = none →
    (∃ o ∈ entryNodes, o < graph.nodes.count ∧
      ∃ t, Arrives graph config o v t ∧ ∃ u ∈ t, (valveAt graph config u).isSome) →
    openScoreAt graph config (min numParticles config.maxParticles) v
      (arrivingCount graph config entryNodes v) < config.turbulenceThreshold

-- What a simulation is to report, whatever else it records.
structure Exact (graph : Graph K T) (config : FlowConfig K) (entryNodes : List Nat)
    (numParticles : Nat) : Prop where
  candidates : ∀ flow, propagate graph config entryNodes numParticles = some flow → ∀ v,
    v ∈ (flowTurbulentNodes flow.accumulator).map Prod.fst ↔ Turbulent graph config entryNodes v
  unserialized : ∀ flow, propagate graph config entryNodes numParticles = some flow →
    ∀ v arrivals, (v, arrivals) ∈ flowTurbulentNodes flow.accumulator → ∀ o,
      o ∈ originsUnserialized arrivals ↔ o ∈ entryNodes ∧ o < graph.nodes.count ∧
        ∃ path, Reaches graph config o v path ∧
          ∀ u ∈ path.dropLast, valveAt graph config u = none
  independent : ∀ includePaths entryNodes', (∀ e, e ∈ entryNodes' ↔ e ∈ entryNodes) →
    Uncut graph { config with includePaths := includePaths } entryNodes' numParticles →
      verdicts graph { config with includePaths := includePaths } entryNodes' numParticles =
        verdicts graph config entryNodes numParticles

omit [Field K] in
-- Runs with the same entries differ in nothing but the recorded paths.
theorem Settles.congr {flow' : FlowState} {entryNodes' : List Nat} {includePaths : Bool}
    (h : Settles graph config entryNodes flow)
    (h' : Settles graph { config with includePaths := includePaths } entryNodes' flow')
    (hentries : ∀ e, e ∈ entryNodes' ↔ e ∈ entryNodes) (v : Nat) :
    FlowEngine.origins (arrivalsAt flow' v) = FlowEngine.origins (arrivalsAt flow v) ∧
      originsUnserialized (arrivalsAt flow' v) = originsUnserialized (arrivalsAt flow v) := by
  refine ⟨Std.ExtTreeSet.ext_mem fun o => ?_, Std.ExtTreeSet.ext_mem fun o => ?_⟩
  · rw [h.origins, h'.origins, hentries]
    exact Iff.rfl
  · rw [h.unserialized, h'.unserialized, hentries]
    exact Iff.rfl

omit [Field K] in
theorem Settles.mem_candidates_iff (h : Settles graph config entryNodes flow) (v : Nat) :
    v ∈ (List.range flow.accumulator.length).filter (fun v =>
      1 < (FlowEngine.origins (arrivalsAt flow v)).size) ↔ Turbulent graph config entryNodes v := by
  rw [← h.candidate_iff, flowTurbulentNodes_eq, List.map_map]
  simp [Function.comp_def]

omit [Field K] in
theorem Settles.count_pos (h : Settles graph config entryNodes flow) (v : Nat)
    (hv : Turbulent graph config entryNodes v) :
    0 < countOf (FlowEngine.origins (arrivalsAt flow v)).size
      (originsUnserialized (arrivalsAt flow v)).size := by
  have hmany := (List.mem_filter.mp ((h.mem_candidates_iff v).mpr hv)).2
  rw [decide_eq_true_eq] at hmany
  rw [countOf]
  split <;> omega

variable [IsStrictOrderedRing K]

-- Where all locks are settled, what is reported does not depend on what is recorded.
theorem reportOf_eq {flow' : FlowState} {entryNodes' : List Nat} {includePaths : Bool}
    {locked locked' : Nat → Bool} (h : Settles graph config entryNodes flow)
    (h' : Settles graph { config with includePaths := includePaths } entryNodes' flow')
    (hentries : ∀ e, e ∈ entryNodes' ↔ e ∈ entryNodes)
    (hlocked : ∀ v, locked v = true ↔
      ∃ a ∈ arrivalsAt flow v, ∃ u ∈ a.path, (valveAt graph config u).isSome)
    (hlocked' : ∀ v, locked' v = true ↔
      ∃ a ∈ arrivalsAt flow' v, ∃ u ∈ a.path, (valveAt graph config u).isSome)
    (hsettled : LocksSettled graph config entryNodes numParticles) :
    reportOf graph { config with includePaths := includePaths }
        (min numParticles config.maxParticles) flow' locked' =
      reportOf graph config (min numParticles config.maxParticles) flow locked := by
  rw [reportOf, reportOf, h'.length, ← h.length]
  simp only [(h.congr h' hentries _).1, (h.congr h' hentries _).2]
  refine List.filterMap_congr fun v hv => ?_
  have hturbulent := (h.mem_candidates_iff v).mp hv
  change verdictAt graph config _ v _ _ _ = _
  by_cases hvalve : (valveAt graph config v).isSome
  · exact verdictAt_of_valve hvalve ..
  · rw [Option.not_isSome_iff_eq_none] at hvalve
    by_cases hway : ∃ o ∈ entryNodes, o < graph.nodes.count ∧
        ∃ t, Arrives graph config o v t ∧ ∃ u ∈ t, (valveAt graph config u).isSome
    · have hlow := hsettled v hturbulent hvalve hway
      rw [← h.count] at hlow
      have hcount := h.count_pos v hturbulent
      rw [verdictAt_of_low hvalve hcount hlow, verdictAt_of_low hvalve hcount hlow]
    · have hfree : locked v = false := by
        rw [Bool.eq_false_iff, ne_eq, hlocked, h.locks v hvalve]
        exact fun hboth => hway hboth.2
      have hfree' : locked' v = false := by
        rw [Bool.eq_false_iff, ne_eq, hlocked']
        intro harrival
        obtain ⟨-, o, ho, hspec⟩ := (h'.locks v hvalve).mp harrival
        exact hway ⟨o, (hentries o).mp ho, hspec⟩
      rw [hfree, hfree']

-- A lock that is not settled shows in the report.
theorem reportOf_ne {flow' : FlowState} {locked locked' : Nat → Bool}
    (h : Settles graph { config with includePaths := true } entryNodes flow)
    (h' : Settles graph { config with includePaths := false } entryNodes flow')
    (hlocked : ∀ v, locked v = true ↔
      ∃ a ∈ arrivalsAt flow v, ∃ u ∈ a.path, (valveAt graph config u).isSome)
    (hlocked' : ∀ v, locked' v = true ↔
      ∃ a ∈ arrivalsAt flow' v, ∃ u ∈ a.path, (valveAt graph config u).isSome)
    (hopen : ¬LocksSettled graph config entryNodes numParticles) :
    ∃ point ∈ reportOf graph config (min numParticles config.maxParticles) flow' locked',
      point ∉ reportOf graph config (min numParticles config.maxParticles) flow locked := by
  rw [LocksSettled] at hopen
  push Not at hopen
  obtain ⟨v, hturbulent, hvalve, hway, hhigh⟩ := hopen
  have hfree : locked' v = false := by
    rw [Bool.eq_false_iff, ne_eq, hlocked']
    exact fun harrival => absurd ((h'.locks v hvalve).mp harrival).1 (by simp)
  have hlock : locked v = true := (hlocked v).mpr ((h.locks v hvalve).mpr ⟨rfl, hway⟩)
  have hsame := h.congr h' (fun _ => Iff.rfl) v
  have hcount := h'.count_pos v hturbulent
  have hcounted : arrivingCount graph config entryNodes v =
      countOf (origins (arrivalsAt flow' v)).size (originsUnserialized (arrivalsAt flow' v)).size :=
    (h'.count v).symm
  rw [hcounted] at hhigh
  obtain ⟨point, hpoint, hne⟩ := exists_verdictAt_open hvalve hcount hhigh
  refine ⟨point, ?_, fun hmem => ?_⟩
  · refine List.mem_filterMap.mpr ⟨v, (h'.mem_candidates_iff v).mpr hturbulent, ?_⟩
    rw [hfree]
    exact hpoint
  · obtain ⟨w, -, hw⟩ := List.mem_filterMap.mp hmem
    obtain rfl : w = v := (node_verdictAt hw).symm.trans (node_verdictAt hpoint)
    rw [hlock, ← hsame.1, ← hsame.2] at hw
    exact hne hw

theorem simulate_exact_iff (edits : List (GraphEdit K T))
    (hfinal : (GraphEdit.run edits).finalized = true) (config : FlowConfig K)
    (entryNodes : List Nat) (numParticles : Nat) (hpos : 0 < min numParticles config.maxParticles)
    (huncut : ∀ includePaths, Uncut (GraphEdit.run edits)
      { config with includePaths := includePaths } entryNodes numParticles) :
    Exact (GraphEdit.run edits) config entryNodes numParticles ↔
      LocksSettled (GraphEdit.run edits) config entryNodes numParticles := by
  have hgraph := GraphEdit.navigable_run edits hfinal
  have hmade : Uncut (GraphEdit.run edits) config entryNodes numParticles :=
    huncut config.includePaths
  obtain ⟨flow, hflow, hsettles⟩ := hmade.settles hgraph hpos
  constructor
  · intro hexact
    by_contra hopen
    obtain ⟨flow₁, hflow₁, hsettles₁⟩ := (huncut true).settles hgraph hpos
    obtain ⟨flow₂, hflow₂, hsettles₂⟩ := (huncut false).settles hgraph hpos
    obtain ⟨v, hv⟩ := not_forall.mp hopen
    obtain ⟨⟨o, ho, -, -, -, hlt, -⟩, -⟩ := Classical.not_imp.mp hv
    have hnodes : (GraphEdit.run edits).numNodes ≠ 0 := Nat.ne_zero_of_lt hlt
    have hentries : entryNodes ≠ [] := List.ne_nil_of_mem ho
    obtain ⟨locked₁, hlocked₁, hverdicts₁⟩ := verdicts_eq hgraph hnodes hentries hflow₁
    obtain ⟨locked₂, hlocked₂, hverdicts₂⟩ := verdicts_eq hgraph hnodes hentries hflow₂
    have hsame := (hexact.independent true entryNodes (fun _ => Iff.rfl) (huncut true)).trans
      (hexact.independent false entryNodes (fun _ => Iff.rfl) (huncut false)).symm
    rw [hverdicts₁, hverdicts₂] at hsame
    have hsorted := Except.ok.inj (Option.some.inj hsame)
    obtain ⟨point, hpoint, hnone⟩ :=
      reportOf_ne hsettles₁ hsettles₂ hlocked₁ hlocked₂ hopen
    have hmem : point ∈ (reportOf (GraphEdit.run edits) config
        (min numParticles config.maxParticles) flow₂ locked₂).mergeSort ranks :=
      List.mem_mergeSort.mpr hpoint
    exact hnone (List.mem_mergeSort.mp ((congrArg (point ∈ ·) hsorted).mpr hmem))
  · intro hlocks
    constructor
    case candidates =>
      intro flow' hflow' v
      obtain rfl := Option.some.inj (hflow.symm.trans hflow')
      exact hsettles.candidate_iff v
    case unserialized =>
      intro flow' hflow' v arrivals hcandidate o
      obtain rfl := Option.some.inj (hflow.symm.trans hflow')
      rw [flowTurbulentNodes_eq] at hcandidate
      obtain ⟨w, -, hw⟩ := List.mem_map.mp hcandidate
      obtain ⟨rfl, rfl⟩ := Prod.mk.inj hw
      exact hsettles.unserialized w o
    case independent =>
      intro includePaths entryNodes' hentries huncut'
      by_cases hempty : (GraphEdit.run edits).numNodes = 0 ∨ entryNodes = []
      · have hempty' : (GraphEdit.run edits).numNodes = 0 ∨ entryNodes' = [] := by
          refine hempty.imp_right fun hnil => List.eq_nil_iff_forall_not_mem.mpr fun e he => ?_
          rw [hentries, hnil] at he
          exact List.not_mem_nil he
        rw [verdicts, verdicts, simulate, simulate, if_pos hempty, if_pos hempty']
      · obtain ⟨hnodes, hne⟩ := not_or.mp hempty
        have hne' : entryNodes' ≠ [] := by
          rintro rfl
          obtain ⟨e, he⟩ := List.exists_mem_of_ne_nil entryNodes hne
          exact absurd ((hentries e).mpr he) List.not_mem_nil
        obtain ⟨flow', hflow', hsettles'⟩ := huncut'.settles hgraph hpos
        obtain ⟨locked, hlocked, hverdicts⟩ := verdicts_eq hgraph hnodes hne hflow
        obtain ⟨locked', hlocked', hverdicts'⟩ := verdicts_eq hgraph hnodes hne' hflow'
        have hreport := reportOf_eq hsettles hsettles' hentries hlocked hlocked' hlocks
        rw [hverdicts, hverdicts']
        exact congrArg (fun report => some (Except.ok (report.mergeSort ranks))) hreport

end Main

end Simulation

section Funnel

-- A lock that two entries go through, and a node behind it.
def funnel : List (GraphEdit Rat Nat) :=
  [.operate (.addNode "a" "a" .File [] 0 0), .operate (.addNode "b" "b" .File [] 0 0),
    .operate (.addNode "mutex" "mutex" .File [] 0 0), .operate (.addNode "d" "d" .File [] 0 0),
    .operate (.addEdge 0 2 "calls" 1 .Forward false 0),
    .operate (.addEdge 1 2 "calls" 1 .Forward false 0),
    .operate (.addEdge 2 3 "calls" 1 .Forward false 0)]

theorem placements_funnel : placements (GraphEdit.run funnel).csr.pendingEdges =
    (GraphEdit.run funnel).csr.pendingEdges.zipIdx.flatMap fun indexed =>
      indexed.1.placements indexed.2 :=
  placements_of_sorted (by decide +kernel)

theorem funnel_rebuilt : GraphEdit.run (funnel ++ [.operate .finalize]) =
    (GraphEdit.run funnel).rebuildCsr := rfl

theorem finalized_funnel : (GraphEdit.run (funnel ++ [.operate .finalize])).finalized = true := by
  decide +kernel

theorem uncut_funnel (includePaths : Bool) :
    let := asciiLowercase
    Uncut (GraphEdit.run (funnel ++ [.operate .finalize]))
      { (FlowConfig.withDefaults : FlowConfig Rat) with includePaths := includePaths } [0, 1] 2 := by
  intro lower
  have hcut : (propagate (GraphEdit.run (funnel ++ [.operate .finalize]))
      { (FlowConfig.withDefaults : FlowConfig Rat) with includePaths := includePaths } [0, 1]
        2).map FlowState.cut = some false := by
    rw [funnel_rebuilt, Graph.rebuildCsr, placements_funnel]
    revert includePaths
    decide +kernel
  exact Option.map_eq_some_iff.mp hcut

theorem simulate_exact_iff_funnel :
    let := asciiLowercase
    Exact (GraphEdit.run (funnel ++ [.operate .finalize])) (FlowConfig.withDefaults : FlowConfig Rat)
        [0, 1] 2 ↔
      LocksSettled (GraphEdit.run (funnel ++ [.operate .finalize])) FlowConfig.withDefaults
        [0, 1] 2 :=
  let := asciiLowercase
  simulate_exact_iff _ finalized_funnel FlowConfig.withDefaults [0, 1] 2 (by decide) uncut_funnel

theorem reportCount_funnel :
    let := asciiLowercase
    reportCount (GraphEdit.run (funnel ++ [.operate .finalize]))
        { (FlowConfig.withDefaults : FlowConfig Rat) with includePaths := false } [0, 1] 2 ≠
      reportCount (GraphEdit.run (funnel ++ [.operate .finalize]))
        (FlowConfig.withDefaults : FlowConfig Rat) [0, 1] 2 := by
  rw [funnel_rebuilt, Graph.rebuildCsr, placements_funnel]
  decide +kernel

-- Without the recorded paths, nothing shows the lock before the last node.
theorem simulate_not_exact_funnel :
    let := asciiLowercase
    let graph := GraphEdit.run (funnel ++ [.operate .finalize])
    let config : FlowConfig Rat := FlowConfig.withDefaults
    graph.finalized = true ∧ 0 < min 2 config.maxParticles ∧
      (∀ includePaths, Uncut graph { config with includePaths := includePaths } [0, 1] 2) ∧
        ¬Exact graph config [0, 1] 2 := by
  intro lower graph config
  refine ⟨finalized_funnel, by decide, uncut_funnel, fun hexact => ?_⟩
  have hgraph := GraphEdit.navigable_run _ finalized_funnel
  have hsame := hexact.independent false [0, 1] (fun _ => Iff.rfl) (uncut_funnel false)
  obtain ⟨flow, hflow, -⟩ := uncut_funnel true
  have hnodes : graph.numNodes ≠ 0 := by decide +kernel
  obtain ⟨locked, -, hverdicts⟩ := verdicts_eq hgraph hnodes (List.cons_ne_nil _ _) hflow
  have hcounts := (reportCount_eq (hsame.trans hverdicts)).trans (reportCount_eq hverdicts).symm
  exact reportCount_funnel hcounts

end Funnel

end M1nd.Core.FlowEngine
