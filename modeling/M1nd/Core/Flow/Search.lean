import M1nd.Core.Flow.Reads
import M1nd.Library.Trails

namespace M1nd.Core.FlowEngine

open M1nd.Library.Loops
open M1nd.Library.Trails

variable {K T : Type} [LinearOrder K] [Lowercase] {graph : Graph K T} {config : FlowConfig K}
  {allowed : Option (List Bool)} {e pid : Nat} {t : List Nat} {particle : Particle}

section Edges

-- An edge that particles go along.
def Passable (graph : Graph K T) (config : FlowConfig K) (allowed : Option (List Bool))
    (a b : Nat) : Prop :=
  ∃ j ∈ graph.csr.outRange a, followedTarget graph config allowed j = some (some b)

-- A scope tells of each node whether it is in it.
def Scoped (graph : Graph K T) (allowed : Option (List Bool)) : Prop :=
  ∀ marks, allowed = some marks → marks.length = graph.nodes.count

omit [Lowercase] in
theorem exists_followedTarget (config : FlowConfig K) (h : graph.Navigable)
    (hscoped : Scoped graph allowed) {node j : Nat} (hj : j ∈ graph.csr.outRange node) :
    ∃ target, followedTarget graph config allowed j = some target ∧
      ∀ v, target = some v → v < graph.nodes.count := by
  obtain ⟨mark, hmark⟩ := h.inhibitory node j hj
  obtain ⟨weight, hweight⟩ := h.weights node j hj
  obtain ⟨target, htarget⟩ := h.targets node j hj
  rw [followedTarget, hmark]
  simp only [Option.bind_eq_bind, Option.bind_some, hweight, htarget]
  split
  · exact ⟨none, rfl, nofun⟩
  · split
    · exact ⟨none, rfl, nofun⟩
    · split
      · exact ⟨none, rfl, nofun⟩
      · rename_i hlt
        rw [Graph.numNodes, not_le] at hlt
        cases allowed with
        | none =>
            refine ⟨some target, rfl, fun v hv => ?_⟩
            obtain rfl := Option.some.inj hv
            exact hlt
        | some marks =>
            have hmarks : target < marks.length := hscoped marks rfl ▸ hlt
            refine ⟨if marks[target] = true then some target else none, ?_, fun v hv => ?_⟩
            · dsimp only
              rw [List.getElem?_eq_getElem hmarks, Option.map_some]
            · split at hv
              · obtain rfl := Option.some.inj hv
                exact hlt
              · exact absurd hv nofun

omit [Lowercase] in
theorem Passable.lt (h : graph.Navigable) (hscoped : Scoped graph allowed) {a b : Nat}
    (hpass : Passable graph config allowed a b) : b < graph.nodes.count := by
  obtain ⟨j, hj, hfollowed⟩ := hpass
  obtain ⟨target, htarget, hlt⟩ := exists_followedTarget config h hscoped hj
  exact hlt b (Option.some.inj (htarget.symm.trans hfollowed))

end Edges

section Traces

-- The last valve on a way.
def lastValve (graph : Graph K T) (config : FlowConfig K) (path : List Nat) : Option Nat :=
  path.reverse.find? fun node => (valveAt graph config node).isSome

omit [LinearOrder K] in
theorem lastValve_concat (graph : Graph K T) (config : FlowConfig K) (path : List Nat)
    (node : Nat) : lastValve graph config (path ++ [node]) =
      if (valveAt graph config node).isSome then some node else lastValve graph config path := by
  rw [lastValve, List.reverse_append, List.reverse_singleton, List.singleton_append,
    List.find?_cons]
  split <;> rename_i hvalve <;> simp [hvalve, lastValve]

omit [LinearOrder K] in
theorem lastValve_eq_none {path : List Nat} : lastValve graph config path = none ↔
    ∀ node ∈ path, valveAt graph config node = none := by
  simp [lastValve, List.find?_eq_none]

-- What a particle that comes along a way leaves at a node.
def arrivalOf (graph : Graph K T) (config : FlowConfig K) (e pid : Nat) (t : List Nat) (v : Nat) :
    ParticleArrival where
  origin := e
  particleId := pid
  serializedBy := lastValve graph config t
  path := if config.includePaths = true then t ++ [v] else []

-- A particle that has come along a way.
structure Traces (graph : Graph K T) (config : FlowConfig K) (e pid : Nat) (t : List Nat)
    (particle : Particle) : Prop where
  id : particle.id = pid
  origin : particle.origin = e
  position : t.getLast? = some particle.position
  depth : t.length = particle.depth + 1
  visited : particle.visited.length = graph.nodes.count ∧
    ∀ v < graph.nodes.count, particle.visited[v]? = some true ↔ v ∈ t
  serializedBy : particle.serializedBy = lastValve graph config t.dropLast
  path : config.includePaths = true → particle.path = t

omit [LinearOrder K] in
theorem Traces.passValve (h : Traces graph config e pid t particle) (hgraph : graph.Navigable)
    (flow : FlowState) : ∃ valves, FlowEngine.passValve graph config particle flow =
      some (lastValve graph config t, { flow with valves := valves }) := by
  obtain ⟨init, rfl⟩ := List.getLast?_eq_some_iff.mp h.position
  have hserialized := h.serializedBy
  rw [List.dropLast_concat] at hserialized
  rw [FlowEngine.passValve, flowIsValve_eq hgraph, lastValve_concat]
  cases hvalve : valveAt graph config particle.position with
  | none => exact ⟨flow.valves, by simp [hserialized]⟩
  | some lockType => exact ⟨_, by simp [FlowState.recordSerialization]; rfl⟩

omit [LinearOrder K] in
theorem traces_initialParticle (graph : Graph K T) (config : FlowConfig K)
    (e pid : Nat) : Traces graph config e pid [e] (initialParticle graph.numNodes e pid) where
  id := rfl
  origin := rfl
  position := rfl
  depth := rfl
  visited := by
    rw [initialParticle, Graph.numNodes]
    refine ⟨by rw [List.length_set, List.length_replicate], fun v hv => ?_⟩
    rw [List.getElem?_set, List.length_replicate]
    by_cases heq : e = v
    · simp [heq, hv]
    · simp [heq, hv, Ne.symm heq]
  serializedBy := rfl
  path _ := rfl

end Traces

section Arrivals

-- The arrivals at a node.
def arrivalsAt (flow : FlowState) (v : Nat) : List ParticleArrival :=
  flow.accumulator.getD v []

omit [Lowercase] in
theorem arrivalsAt_record {flow : FlowState} {v : Nat} (hv : v < flow.accumulator.length)
    (arrival : ParticleArrival) (u : Nat) : arrivalsAt (flow.record v arrival) u =
      if u = v then arrivalsAt flow v ++ [arrival] else arrivalsAt flow u := by
  rw [arrivalsAt, FlowState.record, arrivalsAt, arrivalsAt]
  simp only [List.getD_eq_getElem?_getD, List.getElem?_modify]
  by_cases hu : u = v
  · subst hu
    rw [if_pos rfl, List.getElem?_eq_getElem hv]
    simp
  · rw [if_neg hu]
    simp [Ne.symm hu]

-- What the edges of a node that are done have made of a search.
structure Extends (graph : Graph K T) (config : FlowConfig K) (allowed : Option (List Bool))
    (e pid : Nat) (t js : List Nat) (before run : FlowRun) (children : List (List Nat)) : Prop where
  length : run.flow.accumulator.length = graph.nodes.count
  arrivals : ∀ v a, a ∈ arrivalsAt run.flow v ↔ a ∈ arrivalsAt before.flow v ∨
    (∃ j ∈ js, followedTarget graph config allowed j = some (some v)) ∧
      a = arrivalOf graph config e pid t v
  born : ∀ child ∈ children, ∃ v,
    (∃ j ∈ js, followedTarget graph config allowed j = some (some v)) ∧ v ∉ t ∧ child = t ++ [v]
  made : ∀ j ∈ js, ∀ v, followedTarget graph config allowed j = some (some v) → v ∉ t →
    t ++ [v] ∈ children
  queue : ∃ particles, run.queue = before.queue ++ particles ∧
    List.Forall₂ (Traces graph config e pid) children particles
  active : run.activeCount = before.activeCount + children.length

omit [Lowercase] in
theorem followed_concat {js : List Nat} {j v : Nat} :
    (∃ i ∈ js ++ [j], followedTarget graph config allowed i = some (some v)) ↔
      (∃ i ∈ js, followedTarget graph config allowed i = some (some v)) ∨
        followedTarget graph config allowed j = some (some v) := by
  simp only [List.mem_append, List.mem_singleton, or_and_right, exists_or, exists_eq_left]

variable {js : List Nat} {before run next : FlowRun} {children : List (List Nat)} {j v : Nat}

theorem extends_nil (hlength : run.flow.accumulator.length = graph.nodes.count) :
    Extends graph config allowed e pid t [] run run [] where
  length := hlength
  arrivals v a := by simp
  born _ hchild := absurd hchild List.not_mem_nil
  made _ hj := absurd hj List.not_mem_nil
  queue := ⟨[], (List.append_nil _).symm, .nil⟩
  active := rfl

-- An edge that is not followed adds nothing.
theorem Extends.skip (h : Extends graph config allowed e pid t js before run children)
    (hflow : next.flow.accumulator = run.flow.accumulator) (hqueue : next.queue = run.queue)
    (hactive : next.activeCount = run.activeCount)
    (hj : followedTarget graph config allowed j = some none) :
    Extends graph config allowed e pid t (js ++ [j]) before next children where
  length := hflow ▸ h.length
  arrivals v a := by
    rw [arrivalsAt, hflow, ← arrivalsAt, h.arrivals, followed_concat, hj]
    simp
  born child hchild := by
    obtain ⟨v, hv, hspec⟩ := h.born child hchild
    exact ⟨v, followed_concat.mpr (.inl hv), hspec⟩
  made i hi v hv hnew := by
    obtain hi | hi := List.mem_append.mp hi
    · exact h.made i hi v hv hnew
    · obtain rfl := List.mem_singleton.mp hi
      exact absurd (hj.symm.trans hv) (by simp)
  queue := hqueue ▸ h.queue
  active := hactive ▸ h.active

-- The arrival of a particle is recorded.
theorem Extends.record (h : Extends graph config allowed e pid t js before run children)
    (hv : v < graph.nodes.count) (hj : followedTarget graph config allowed j = some (some v))
    (u : Nat) (a : ParticleArrival) :
    a ∈ arrivalsAt (run.flow.record v (arrivalOf graph config e pid t v)) u ↔
      a ∈ arrivalsAt before.flow u ∨
        (∃ i ∈ js ++ [j], followedTarget graph config allowed i = some (some u)) ∧
          a = arrivalOf graph config e pid t u := by
  rw [arrivalsAt_record (h.length.symm ▸ hv), followed_concat, hj, Option.some_inj,
    Option.some_inj]
  by_cases hu : u = v
  · subst hu
    rw [if_pos rfl, List.mem_append, h.arrivals, List.mem_singleton]
    tauto
  · rw [if_neg hu, h.arrivals]
    simp [Ne.symm hu]

omit [LinearOrder K] in
theorem Traces.extendedPath (h : Traces graph config e pid t particle) (v : Nat) :
    FlowEngine.extendedPath config particle v =
      if config.includePaths = true then t ++ [v] else [] := by
  rw [FlowEngine.extendedPath]
  split
  · rename_i hpaths
    rw [h.path hpaths]
  · rfl

omit [LinearOrder K] in
-- The particle that goes on to a new node.
theorem Traces.child (h : Traces graph config e pid t particle) (v : Nat) :
    Traces graph config e pid (t ++ [v]) {
      id := particle.id
      origin := particle.origin
      path := FlowEngine.extendedPath config particle v
      position := v
      depth := particle.depth + 1
      serializedBy := lastValve graph config t
      visited := particle.visited.set v true } where
  id := h.id
  origin := h.origin
  position := List.getLast?_concat
  depth := by rw [List.length_append, h.depth, List.length_singleton]
  visited := by
    refine ⟨by rw [List.length_set, h.visited.1], fun u hu => ?_⟩
    rw [List.getElem?_set, h.visited.1, List.mem_append, List.mem_singleton]
    by_cases heq : v = u
    · simp [heq, hu]
    · rw [if_neg heq, h.visited.2 u hu]
      simp [Ne.symm heq]
  serializedBy := by rw [List.dropLast_concat]
  path hpaths := by rw [h.extendedPath, if_pos hpaths]

theorem Extends.visit (h : Extends graph config allowed e pid t js before run children)
    (htraces : Traces graph config e pid t particle) (hv : v < graph.nodes.count)
    (hj : followedTarget graph config allowed j = some (some v))
    (hgoes : (FlowEngine.visit config particle (lastValve graph config t) run v).stopped = false) :
    ∃ children, Extends graph config allowed e pid t (js ++ [j]) before
      (FlowEngine.visit config particle (lastValve graph config t) run v) children := by
  have harrival : (⟨particle.origin, particle.id, lastValve graph config t,
      FlowEngine.extendedPath config particle v⟩ : ParticleArrival) =
        arrivalOf graph config e pid t v := by
    rw [arrivalOf, htraces.origin, htraces.id, htraces.extendedPath]
  have hmade {made : List (List Nat)} (hold : ∀ child ∈ children, child ∈ made)
      (hnew : v ∉ t → t ++ [v] ∈ made) : ∀ i ∈ js ++ [j], ∀ u,
        followedTarget graph config allowed i = some (some u) → u ∉ t → t ++ [u] ∈ made := by
    intro i hi u hu hunew
    obtain hi | hi := List.mem_append.mp hi
    · exact hold _ (h.made i hi u hu hunew)
    · obtain rfl := List.mem_singleton.mp hi
      obtain rfl : v = u := Option.some.inj (Option.some.inj (hj.symm.trans hu))
      exact hnew hunew
  have hborn : ∀ child ∈ children, ∃ u,
      (∃ i ∈ js ++ [j], followedTarget graph config allowed i = some (some u)) ∧ u ∉ t ∧
        child = t ++ [u] := by
    intro child hchild
    obtain ⟨u, hu, hspec⟩ := h.born child hchild
    exact ⟨u, followed_concat.mpr (.inl hu), hspec⟩
  have hlength : (run.flow.record v (arrivalOf graph config e pid t v)).accumulator.length =
      graph.nodes.count := by
    rw [FlowState.record, List.length_modify, h.length]
  have hvisited := htraces.visited.2 v hv
  unfold FlowEngine.visit at hgoes ⊢
  simp only [harrival] at hgoes ⊢
  by_cases hseen : particle.visited[v]? = some true
  · rw [if_pos hseen] at hgoes ⊢
    exact ⟨children, hlength, h.record hv hj, hborn,
      hmade (fun _ hchild => hchild) fun hnew => absurd (hvisited.mp hseen) hnew, h.queue, h.active⟩
  · rw [if_neg hseen] at hgoes ⊢
    by_cases hcap : MAX_ACTIVE_PARTICLES ≤ run.activeCount
    · rw [if_pos hcap] at hgoes
      exact absurd hgoes (by simp)
    · rw [if_neg hcap] at hgoes ⊢
      obtain ⟨particles, hqueue, hall⟩ := h.queue
      refine ⟨children ++ [t ++ [v]], hlength, h.record hv hj, fun child hchild => ?_,
        hmade (fun _ hchild => List.mem_append_left _ hchild) fun _ => ?_,
        ⟨_, ?_, List.rel_append hall (.cons (htraces.child v) .nil)⟩, ?_⟩
      · obtain hchild | hchild := List.mem_append.mp hchild
        · exact hborn child hchild
        · exact ⟨v, followed_concat.mpr (.inr hj), fun hmem => hseen (hvisited.mpr hmem),
            List.mem_singleton.mp hchild⟩
      · exact List.mem_append_right _ (List.mem_singleton_self _)
      · rw [hqueue, List.append_assoc]
      · rw [h.active, List.length_append, List.length_singleton, Nat.add_assoc]

theorem Extends.followEdge (hgraph : graph.Navigable) (hscoped : Scoped graph allowed)
    {node maxTotalSteps : Nat} (hj : j ∈ graph.csr.outRange node)
    (htraces : Traces graph config e pid t particle)
    (h : run.stopped = false →
      ∃ children, Extends graph config allowed e pid t js before run children) :
    ∃ next, FlowEngine.followEdge graph config allowed maxTotalSteps particle
      (lastValve graph config t) run j = some next ∧
        (next.stopped = false →
          ∃ children, Extends graph config allowed e pid t (js ++ [j]) before next children) := by
  rw [FlowEngine.followEdge]
  by_cases hstopped : run.stopped = true
  · rw [if_pos hstopped]
    exact ⟨run, rfl, fun hgoes => absurd (hstopped.symm.trans hgoes) (by simp)⟩
  · rw [if_neg hstopped]
    obtain ⟨children, hrun⟩ := h (Bool.eq_false_iff.mpr hstopped)
    dsimp only
    split
    · exact ⟨_, rfl, fun hgoes => absurd hgoes (by simp)⟩
    · obtain ⟨target, htarget, hlt⟩ := exists_followedTarget config hgraph hscoped hj
      rw [htarget]
      cases target with
      | none => exact ⟨_, rfl, fun _ => ⟨children, hrun.skip rfl rfl rfl htarget⟩⟩
      | some v =>
          refine ⟨_, rfl, fun hgoes => ?_⟩
          have hcounted : Extends graph config allowed e pid t js before
              { run with flow := { run.flow with globalSteps := run.flow.globalSteps + 1 } }
                children :=
            ⟨hrun.length, hrun.arrivals, hrun.born, hrun.made, hrun.queue, hrun.active⟩
          exact hcounted.visit htraces (hlt v rfl) htarget hgoes

-- The edges of a node, one after the other.
theorem exists_followEdges (config : FlowConfig K) (hgraph : graph.Navigable)
    (hscoped : Scoped graph allowed) (run : FlowRun) (node maxTotalSteps : Nat)
    (htraces : Traces graph config e pid t particle)
    (hlength : run.flow.accumulator.length = graph.nodes.count) :
    ∃ next, (graph.csr.outRange node).foldlM (FlowEngine.followEdge graph config allowed
      maxTotalSteps particle (lastValve graph config t)) run = some next ∧
        (next.stopped = false → ∃ children,
          Extends graph config allowed e pid t (graph.csr.outRange node) run next children) := by
  have hstart : run.stopped = false →
      ∃ children, Extends graph config allowed e pid t [] run run children :=
    fun _ => ⟨[], extends_nil hlength⟩
  suffices hall : ∀ (js rest : List Nat) (current : FlowRun), js ++ rest = graph.csr.outRange node →
      (current.stopped = false →
        ∃ children, Extends graph config allowed e pid t js run current children) →
      ∃ next, rest.foldlM (FlowEngine.followEdge graph config allowed maxTotalSteps particle
        (lastValve graph config t)) current = some next ∧
          (next.stopped = false → ∃ children,
            Extends graph config allowed e pid t (graph.csr.outRange node) run next children) from
    hall [] _ run rfl hstart
  intro js rest
  induction rest generalizing js with
  | nil =>
      intro current hsplit hcurrent
      rw [List.append_nil] at hsplit
      subst hsplit
      exact ⟨current, rfl, hcurrent⟩
  | cons j rest ih =>
      intro current hsplit hcurrent
      have hj : j ∈ graph.csr.outRange node := by
        rw [← hsplit]
        exact List.mem_append_right _ List.mem_cons_self
      obtain ⟨next, hnext, hextends⟩ :=
        Extends.followEdge hgraph hscoped hj htraces hcurrent
      rw [List.foldlM_cons, hnext]
      exact ih (js ++ [j]) next (by rw [List.append_assoc, List.singleton_append, hsplit]) hextends

end Arrivals

end M1nd.Core.FlowEngine
