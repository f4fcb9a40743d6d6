import M1nd.Core.Flow.Search

namespace M1nd.Core.FlowEngine

open M1nd.Library.Loops
open M1nd.Library.Trails

variable {K T : Type} [LinearOrder K] [Lowercase] {graph : Graph K T} {config : FlowConfig K}
  {allowed : Option (List Bool)} {e pid maxTotalSteps fuel : Nat} {before : FlowState}
  {run : FlowRun} {done waiting : List (List Nat)}

section Draining

-- What the ways that are done have left at a node.
def Left (graph : Graph K T) (config : FlowConfig K) (allowed : Option (List Bool)) (e pid : Nat)
    (done : List (List Nat)) (v : Nat) (a : ParticleArrival) : Prop :=
  ∃ t ∈ done, t.length ≤ config.maxDepth ∧
    (∃ u, t.getLast? = some u ∧ Passable graph config allowed u v) ∧
      a = arrivalOf graph config e pid t v

-- The search of a particle that has hit no limit. The ways that it has gone are done, the others
-- wait in the queue.
structure Searches (graph : Graph K T) (config : FlowConfig K) (allowed : Option (List Bool))
    (e pid : Nat) (before : FlowState) (run : FlowRun) (done waiting : List (List Nat)) :
    Prop where
  length : run.flow.accumulator.length = graph.nodes.count
  queue : List.Forall₂ (Traces graph config e pid) waiting run.queue
  trails : ∀ t ∈ done ++ waiting, Trail (Passable graph config allowed) e t
  within : ∀ t ∈ done ++ waiting, ∀ u ∈ t, u < graph.nodes.count
  start : [e] ∈ done ++ waiting
  active : run.activeCount = done.length + waiting.length
  arrivals : ∀ v a, a ∈ arrivalsAt run.flow v ↔
    a ∈ arrivalsAt before v ∨ Left graph config allowed e pid done v a
  closed : ∀ t ∈ done, t.length ≤ config.maxDepth → ∀ u v, t.getLast? = some u →
    Passable graph config allowed u v → v ∉ t → t ++ [v] ∈ done ++ waiting

variable {particle : Particle} {queue : List Particle} {t : List Nat}

-- A particle that is as deep as it may come goes no further.
theorem Searches.drop (h : Searches graph config allowed e pid before run done (t :: waiting))
    (hqueue : run.queue = particle :: queue) (hdeep : config.maxDepth < t.length) :
    Searches graph config allowed e pid before { run with queue := queue } (done ++ [t])
      waiting where
  length := h.length
  queue := by
    have hall := h.queue
    rw [hqueue] at hall
    exact (List.forall₂_cons.mp hall).2
  trails := by
    rw [List.append_assoc]
    exact h.trails
  within := by
    rw [List.append_assoc]
    exact h.within
  start := by
    rw [List.append_assoc]
    exact h.start
  active := by
    rw [List.length_append, List.length_singleton]
    exact h.active.trans (by rw [List.length_cons]; omega)
  arrivals v a := by
    refine (h.arrivals v a).trans (or_congr_right ⟨?_, ?_⟩)
    · rintro ⟨s, hs, hspec⟩
      exact ⟨s, List.mem_append_left _ hs, hspec⟩
    · rintro ⟨s, hs, hlength, hspec⟩
      obtain hs | hs := List.mem_append.mp hs
      · exact ⟨s, hs, hlength, hspec⟩
      · obtain rfl := List.mem_singleton.mp hs
        omega
  closed s hs hlength := by
    rw [List.append_assoc]
    obtain hs | hs := List.mem_append.mp hs
    · exact h.closed s hs hlength
    · obtain rfl := List.mem_singleton.mp hs
      omega

-- The other particles leave what their edges make of them.
theorem Searches.pop (hgraph : graph.Navigable) (hscoped : Scoped graph allowed)
    (h : Searches graph config allowed e pid before run done (t :: waiting))
    (hqueue : run.queue = particle :: queue) (hdepth : t.length ≤ config.maxDepth)
    {valves : Std.ExtTreeMap Nat (String × Nat)} {next : FlowRun} {children : List (List Nat)}
    (hnext : Extends graph config allowed e pid t (graph.csr.outRange particle.position)
      { run with queue := queue, flow := { run.flow with valves := valves } } next children) :
    Searches graph config allowed e pid before next (done ++ [t]) (waiting ++ children) := by
  have hall := h.queue
  rw [hqueue] at hall
  obtain ⟨htraces, hrest⟩ := List.forall₂_cons.mp hall
  have hpassable {v : Nat} : (∃ j ∈ graph.csr.outRange particle.position,
      followedTarget graph config allowed j = some (some v)) ↔
        ∃ u, t.getLast? = some u ∧ Passable graph config allowed u v := by
    rw [htraces.position]
    simp only [Option.some.injEq, exists_eq_left']
    exact Iff.rfl
  have hchild : ∀ child ∈ children, ∃ v, (∃ u, t.getLast? = some u ∧
      Passable graph config allowed u v) ∧ v ∉ t ∧ child = t ++ [v] := by
    intro child hchild
    obtain ⟨v, hv, hspec⟩ := hnext.born child hchild
    exact ⟨v, hpassable.mp hv, hspec⟩
  have hmem {s : List Nat} : s ∈ (done ++ [t]) ++ (waiting ++ children) ↔
      s ∈ done ++ t :: waiting ∨ s ∈ children := by
    simp only [List.mem_append, List.mem_cons, List.not_mem_nil, false_or, or_assoc]
  have ht : t ∈ done ++ t :: waiting := List.mem_append_right _ List.mem_cons_self
  constructor
  case length => exact hnext.length
  case queue =>
    obtain ⟨particles, hparticles, hborn⟩ := hnext.queue
    rw [hparticles]
    exact List.rel_append hrest hborn
  case trails =>
    intro s hs
    obtain hs | hs := hmem.mp hs
    · exact h.trails s hs
    · obtain ⟨v, ⟨u, hu, hpass⟩, hnew, rfl⟩ := hchild s hs
      exact (h.trails t ht).concat hu hpass hnew
  case within =>
    intro s hs u hu
    obtain hs | hs := hmem.mp hs
    · exact h.within s hs u hu
    · obtain ⟨v, ⟨w, -, hpass⟩, -, rfl⟩ := hchild s hs
      obtain hu | hu := List.mem_append.mp hu
      · exact h.within t ht u hu
      · obtain rfl := List.mem_singleton.mp hu
        exact hpass.lt hgraph hscoped
  case start => exact hmem.mpr (.inl h.start)
  case active =>
    rw [hnext.active]
    dsimp only
    rw [h.active, List.length_append, List.length_append, List.length_singleton, List.length_cons]
    omega
  case arrivals =>
    intro v a
    rw [hnext.arrivals, hpassable]
    refine (or_congr_left (h.arrivals v a)).trans ?_
    rw [or_assoc]
    refine or_congr_right ⟨?_, ?_⟩
    · rintro (⟨s, hs, hspec⟩ | ⟨hpass, ha⟩)
      · exact ⟨s, List.mem_append_left _ hs, hspec⟩
      · exact ⟨t, List.mem_append_right _ (List.mem_singleton_self t), hdepth, hpass, ha⟩
    · rintro ⟨s, hs, hlength, hpass, ha⟩
      obtain hs | hs := List.mem_append.mp hs
      · exact .inl ⟨s, hs, hlength, hpass, ha⟩
      · obtain rfl := List.mem_singleton.mp hs
        exact .inr ⟨hpass, ha⟩
  case closed =>
    intro s hs hlength u v hu hpass hnew
    rw [hmem]
    obtain hs | hs := List.mem_append.mp hs
    · exact .inl (h.closed s hs hlength u v hu hpass hnew)
    · obtain rfl := List.mem_singleton.mp hs
      obtain ⟨j, hj, hfollowed⟩ := hpassable.mpr ⟨u, hu, hpass⟩
      exact .inr (hnext.made j hj v hfollowed hnew)

-- A search ends before its fuel does. If no limit stops it, nothing waits any more.
theorem Searches.exists_drain (hgraph : graph.Navigable) (hscoped : Scoped graph allowed)
    (fuel maxTotalSteps : Nat) (h : Searches graph config allowed e pid before run done waiting)
    (hgoes : run.stopped = false) (hactive : run.activeCount < MAX_ACTIVE_PARTICLES)
    (hfuel : MAX_ACTIVE_PARTICLES ≤ fuel + done.length) :
    ∃ last, drain graph config allowed maxTotalSteps fuel run = some last ∧
      (last.stopped = false →
        ∃ done, Searches graph config allowed e pid before last done []) := by
  induction fuel generalizing run done waiting with
  | zero =>
      have hnone := h.active
      cases waiting with
      | nil =>
          have hqueue := List.forall₂_nil_left_iff.mp h.queue
          refine ⟨run, ?_, fun _ => ⟨done, h⟩⟩
          rw [drain]
          simp only [hqueue]
      | cons t waiting =>
          rw [List.length_cons] at hnone
          omega
  | succ fuel ih =>
      cases waiting with
      | nil =>
          have hqueue := List.forall₂_nil_left_iff.mp h.queue
          refine ⟨run, ?_, fun _ => ⟨done, h⟩⟩
          rw [drain]
          simp only [hqueue]
      | cons t waiting =>
          obtain ⟨particle, queue, htraces, -, hqueue⟩ := List.forall₂_cons_left_iff.mp h.queue
          have hlt : particle.position < graph.nodes.count :=
            h.within t (List.mem_append_right _ List.mem_cons_self) _
              (List.mem_of_getLast? htraces.position)
          have hdone : MAX_ACTIVE_PARTICLES ≤ fuel + (done ++ [t]).length := by
            rw [List.length_append, List.length_singleton]
            omega
          have hdepth := htraces.depth
          rw [drain]
          simp only [hqueue]
          by_cases hdeep : config.maxDepth ≤ particle.depth ∨ graph.numNodes ≤ particle.position
          · rw [if_pos hdeep]
            have hlength : config.maxDepth < t.length := by
              obtain hdeep | hfar := hdeep
              · omega
              · rw [Graph.numNodes] at hfar
                omega
            exact ih (h.drop hqueue hlength) hgoes hactive hdone
          · rw [if_neg hdeep]
            obtain ⟨valves, hvalves⟩ := htraces.passValve hgraph run.flow
            simp only [hvalves, Option.bind_eq_bind, Option.bind_some]
            split
            · exact ⟨_, rfl, fun hstop => absurd hstop (by simp)⟩
            · obtain ⟨next, hnext, hextends⟩ := exists_followEdges config hgraph hscoped
                { run with queue := queue, flow := { run.flow with valves := valves } }
                particle.position maxTotalSteps htraces h.length
              rw [hnext, Option.bind_some]
              split
              · exact ⟨_, rfl, fun hstop => absurd hstop (by simp)⟩
              · rename_i hlimits
                rw [not_or, not_or, Bool.not_eq_true] at hlimits
                obtain ⟨children, hchildren⟩ := hextends hlimits.1
                have hpopped := h.pop hgraph hscoped hqueue (by omega) hchildren
                exact ih hpopped hlimits.1 (not_le.mp hlimits.2.1) hdone

-- What a particle leaves at a node that it comes to along a way without loops.
def Leaves (graph : Graph K T) (config : FlowConfig K) (allowed : Option (List Bool)) (e pid : Nat)
    (v : Nat) (a : ParticleArrival) : Prop :=
  ∃ t, Trail (Passable graph config allowed) e t ∧ t.length ≤ config.maxDepth ∧
    (∃ u, t.getLast? = some u ∧ Passable graph config allowed u v) ∧
      a = arrivalOf graph config e pid t v

theorem Searches.left_iff (h : Searches graph config allowed e pid before run done [])
    (v : Nat) (a : ParticleArrival) : Left graph config allowed e pid done v a ↔
      Leaves graph config allowed e pid v a := by
  have hdone {t : List Nat} : t ∈ done ++ [] ↔ t ∈ done := by rw [List.append_nil]
  constructor
  · rintro ⟨t, ht, hspec⟩
    exact ⟨t, h.trails t (hdone.mpr ht), hspec⟩
  · rintro ⟨t, htrail, hlength, hspec⟩
    refine ⟨t, ?_, hlength, hspec⟩
    refine Trail.induction (· ∈ done) config.maxDepth (hdone.mp h.start) ?_ htrail (by omega)
    intro t u w _ ht hbound hu hpass hnew
    exact hdone.mp (h.closed t ht hbound u w hu hpass hnew)

end Draining

section Kept

-- What a search does not change.
def FlowState.frame (flow : FlowState) : Nat × Nat × Bool :=
  (flow.accumulator.length, flow.totalParticlesSpawned, flow.cut)

variable {flow : FlowState} {last : FlowRun}

omit [Lowercase] in
theorem frame_record (flow : FlowState) (v : Nat) (arrival : ParticleArrival) :
    FlowState.frame (flow.record v arrival) = FlowState.frame flow := by
  rw [FlowState.frame, FlowState.record, List.length_modify]
  rfl

omit [LinearOrder K] in
theorem frame_passValve {particle : Particle} {serializedBy : Option Nat} {after : FlowState}
    (h : passValve graph config particle flow = some (serializedBy, after)) :
    FlowState.frame after = FlowState.frame flow := by
  obtain ⟨lock, -, hpass⟩ := Option.bind_eq_some_iff.mp h
  cases lock with
  | none =>
      obtain ⟨-, rfl⟩ := Prod.mk.inj (Option.some.inj hpass)
      rfl
  | some lockType =>
      obtain ⟨-, rfl⟩ := Prod.mk.inj (Option.some.inj hpass)
      rfl

omit [Lowercase] in
theorem frame_followEdge {particle : Particle} {serializedBy : Option Nat} {j : Nat}
    (h : followEdge graph config allowed maxTotalSteps particle serializedBy run j = some last) :
    FlowState.frame last.flow = FlowState.frame run.flow := by
  rw [followEdge] at h
  split at h
  · obtain rfl := Option.some.inj h
    rfl
  · dsimp only at h
    split at h
    · obtain rfl := Option.some.inj h
      rfl
    · obtain ⟨target, -, hvisit⟩ := Option.bind_eq_some_iff.mp h
      cases target with
      | none =>
          obtain rfl := Option.some.inj hvisit
          rfl
      | some v =>
          obtain rfl := Option.some.inj hvisit
          unfold visit
          dsimp only
          split
          · rw [frame_record]
            rfl
          · split
            · rfl
            · rw [frame_record]
              rfl

theorem frame_drain (h : drain graph config allowed maxTotalSteps fuel run = some last) :
    FlowState.frame last.flow = FlowState.frame run.flow := by
  induction fuel generalizing run with
  | zero =>
      rw [drain] at h
      split at h
      · obtain rfl := Option.some.inj h
        rfl
      · exact absurd h (by simp)
  | succ fuel ih =>
      rw [drain] at h
      split at h
      · obtain rfl := Option.some.inj h
        rfl
      · rename_i particle queue hqueue
        dsimp only at h
        split at h
        · have hkept := ih h
          exact hkept
        · obtain ⟨⟨serializedBy, after⟩, hpass, hrest⟩ := Option.bind_eq_some_iff.mp h
          have hafter := frame_passValve hpass
          dsimp only at hrest
          split at hrest
          · obtain rfl := Option.some.inj hrest
            exact hafter
          · obtain ⟨next, hnext, hrest⟩ := Option.bind_eq_some_iff.mp hrest
            have hkept : FlowState.frame next.flow = FlowState.frame run.flow := by
              refine foldlM_keeps (fun current : FlowRun =>
                FlowState.frame current.flow = FlowState.frame run.flow) hafter ?_ hnext
              intro current hcurrent j _ following hfollow
              exact (frame_followEdge hfollow).trans hcurrent
            split at hrest
            · obtain rfl := Option.some.inj hrest
              exact hkept
            · exact (ih hrest).trans hkept

end Kept

section Spawning

-- How a particle may come to a node: which valve has serialized it, and the path it records.
def Comes (graph : Graph K T) (config : FlowConfig K) (allowed : Option (List Bool)) (e v : Nat)
    (serializedBy : Option Nat) (path : List Nat) : Prop :=
  (v = e ∧ serializedBy = none ∧ path = [e]) ∨
    ∃ t, Trail (Passable graph config allowed) e t ∧ t.length ≤ config.maxDepth ∧
      (∃ u, t.getLast? = some u ∧ Passable graph config allowed u v) ∧
        serializedBy = lastValve graph config t ∧
          path = if config.includePaths = true then t ++ [v] else []

-- A particle of an entry has come to a node.
def Seen (flow : FlowState) (v o : Nat) (serializedBy : Option Nat) (path : List Nat) : Prop :=
  ∃ id, ⟨o, id, serializedBy, path⟩ ∈ arrivalsAt flow v

-- What particles add to a state, where no limit cuts them short.
structure Adds (graph : Graph K T) (flow next : FlowState)
    (new : Nat → Nat → Option Nat → List Nat → Prop) : Prop where
  length : next.accumulator.length = graph.nodes.count
  uncut : next.cut = false → flow.cut = false
  seen : next.cut = false → ∀ v o serializedBy path, Seen next v o serializedBy path ↔
    Seen flow v o serializedBy path ∨ new v o serializedBy path

variable {flow next : FlowState} {new : Nat → Nat → Option Nat → List Nat → Prop}

omit [LinearOrder K] [Lowercase] in
theorem Adds.nothing (hlength : flow.accumulator.length = graph.nodes.count)
    (hnew : ∀ v o serializedBy path, ¬new v o serializedBy path) : Adds graph flow flow new where
  length := hlength
  uncut h := h
  seen _ v o serializedBy path := (or_iff_left (hnew v o serializedBy path)).symm

omit [LinearOrder K] [Lowercase] in
theorem exists_foldlM_adds {α : Type} {items : List α} {step : FlowState → α → Option FlowState}
    {new : α → Nat → Nat → Option Nat → List Nat → Prop}
    (hlength : flow.accumulator.length = graph.nodes.count)
    (hstep : ∀ item ∈ items, ∀ flow : FlowState, flow.accumulator.length = graph.nodes.count →
      ∃ next, step flow item = some next ∧ Adds graph flow next (new item)) :
    ∃ next, items.foldlM step flow = some next ∧ Adds graph flow next
      fun v o serializedBy path => ∃ item ∈ items, new item v o serializedBy path := by
  induction items generalizing flow with
  | nil => exact ⟨flow, rfl, .nothing hlength fun v o serializedBy path => by simp⟩
  | cons item items ih =>
      obtain ⟨first, hfirst, hadds⟩ := hstep item List.mem_cons_self flow hlength
      obtain ⟨next, hnext, hrest⟩ :=
        ih hadds.length fun other hother => hstep other (List.mem_cons_of_mem _ hother)
      refine ⟨next, by rw [List.foldlM_cons, hfirst]; exact hnext, hrest.length,
        fun hcut => hadds.uncut (hrest.uncut hcut), fun hcut v o serializedBy path => ?_⟩
      rw [hrest.seen hcut, hadds.seen (hrest.uncut hcut), or_assoc]
      simp

theorem searches_start (config : FlowConfig K) (allowed : Option (List Bool)) (pid : Nat)
    (he : e < graph.nodes.count) (hlength : flow.accumulator.length = graph.nodes.count) :
    Searches graph config allowed e pid (flow.record e ⟨e, pid, none, [e]⟩)
      { flow := flow.record e ⟨e, pid, none, [e]⟩
        queue := [initialParticle graph.numNodes e pid]
        activeCount := 1
        stopped := false } [] [[e]] where
  length := by rw [FlowState.record, List.length_modify, hlength]
  queue := .cons (traces_initialParticle graph config e pid) .nil
  trails t ht := by
    obtain rfl := List.mem_singleton.mp ht
    exact .start _ e
  within t ht u hu := by
    obtain rfl := List.mem_singleton.mp ht
    obtain rfl := List.mem_singleton.mp hu
    exact he
  start := List.mem_singleton_self _
  active := rfl
  arrivals v a := by
    refine ⟨.inl, fun ha => ha.resolve_right ?_⟩
    rintro ⟨t, ht, -⟩
    exact absurd ht List.not_mem_nil
  closed t ht := absurd ht List.not_mem_nil

theorem exists_spawn (config : FlowConfig K) (maxTotalSteps : Nat) (hgraph : graph.Navigable)
    (hscoped : Scoped graph allowed) (he : e < graph.nodes.count)
    (hlength : flow.accumulator.length = graph.nodes.count) :
    ∃ next, spawn graph config allowed maxTotalSteps e flow = some next ∧
      Adds graph flow next fun v o serializedBy path =>
        o = e ∧ Comes graph config allowed e v serializedBy path := by
  have hcounted : { flow with
      totalParticlesSpawned := flow.totalParticlesSpawned + 1 }.accumulator.length =
        graph.nodes.count := hlength
  have hstart := searches_start config allowed (flow.totalParticlesSpawned + 1) he hcounted
  have hfew : 1 < MAX_ACTIVE_PARTICLES := by decide
  obtain ⟨last, hlast, hends⟩ := hstart.exists_drain hgraph hscoped MAX_ACTIVE_PARTICLES
    maxTotalSteps rfl hfew (Nat.le_add_right _ _)
  have hframe := (frame_drain hlast).trans (frame_record _ e _)
  obtain ⟨hkept, -, hcut⟩ : last.flow.accumulator.length = flow.accumulator.length ∧
      last.flow.totalParticlesSpawned = flow.totalParticlesSpawned + 1 ∧
        last.flow.cut = flow.cut := by
    simpa only [FlowState.frame, Prod.mk.injEq] using hframe
  refine ⟨{ last.flow with cut := last.flow.cut || last.stopped }, ?_, hkept.trans hlength,
    fun huncut => ?_, fun huncut v o serializedBy path => ?_⟩
  · rw [spawn]
    dsimp only
    rw [hlast]
    rfl
  · exact hcut.symm.trans (Bool.or_eq_false_iff.mp huncut).1
  · obtain ⟨done, hdone⟩ := hends (Bool.or_eq_false_iff.mp huncut).2
    have harrivals (id : Nat) : ⟨o, id, serializedBy, path⟩ ∈ arrivalsAt last.flow v ↔
        ⟨o, id, serializedBy, path⟩ ∈ arrivalsAt flow v ∨
          (v = e ∧ ⟨o, id, serializedBy, path⟩ =
            (⟨e, flow.totalParticlesSpawned + 1, none, [e]⟩ : ParticleArrival)) ∨
          Leaves graph config allowed e (flow.totalParticlesSpawned + 1) v
            ⟨o, id, serializedBy, path⟩ := by
      rw [hdone.arrivals, hdone.left_iff, arrivalsAt_record (hcounted.symm ▸ he), ← or_assoc]
      refine or_congr_left ?_
      by_cases hv : v = e
      · rw [if_pos hv, List.mem_append, List.mem_singleton, hv]
        exact or_congr_right (by simp)
      · rw [if_neg hv]
        exact (or_iff_left fun h => hv h.1).symm
    constructor
    · rintro ⟨id, hid⟩
      obtain hid | ⟨hv, hid⟩ | ⟨t, htrail, hlength, hto, hid⟩ := (harrivals id).mp hid
      · exact .inl ⟨id, hid⟩
      · obtain ⟨rfl, -, rfl, rfl⟩ := ParticleArrival.mk.inj hid
        exact .inr ⟨rfl, .inl ⟨hv, rfl, rfl⟩⟩
      · obtain ⟨rfl, -, rfl, rfl⟩ := ParticleArrival.mk.inj hid
        exact .inr ⟨rfl, .inr ⟨t, htrail, hlength, hto, rfl, rfl⟩⟩
    · rintro (⟨id, hid⟩ | ⟨rfl, ⟨hv, rfl, rfl⟩ | ⟨t, htrail, hlength, hto, rfl, rfl⟩⟩)
      · exact ⟨id, (harrivals id).mpr (.inl hid)⟩
      · exact ⟨_, (harrivals _).mpr (.inr (.inl ⟨hv, rfl⟩))⟩
      · exact ⟨_, (harrivals _).mpr (.inr (.inr ⟨t, htrail, hlength, hto, rfl⟩))⟩

theorem exists_spawnAll (config : FlowConfig K) (maxTotalSteps numParticles e : Nat)
    (hgraph : graph.Navigable) (hscoped : Scoped graph allowed)
    (hlength : flow.accumulator.length = graph.nodes.count) :
    ∃ next, spawnAll graph config allowed maxTotalSteps numParticles flow e = some next ∧
      Adds graph flow next fun v o serializedBy path =>
        e < graph.nodes.count ∧ 0 < numParticles ∧ o = e ∧
          Comes graph config allowed e v serializedBy path := by
  rw [spawnAll, Graph.numNodes]
  split
  · rename_i hfar
    exact ⟨flow, rfl, .nothing hlength fun v o serializedBy path hnew => by omega⟩
  · rename_i hfar
    obtain ⟨next, hnext, hadds⟩ := exists_foldlM_adds hlength fun (_ : Nat)
      (_ : _ ∈ List.range numParticles) flow hlength =>
        exists_spawn config maxTotalSteps hgraph hscoped (not_le.mp hfar) hlength
    refine ⟨next, hnext, hadds.length, hadds.uncut, fun hcut v o serializedBy path => ?_⟩
    rw [hadds.seen hcut]
    refine or_congr_right ⟨?_, ?_⟩
    · rintro ⟨i, hi, hspec⟩
      exact ⟨not_le.mp hfar, Nat.zero_lt_of_lt (List.mem_range.mp hi), hspec⟩
    · rintro ⟨-, hpos, hspec⟩
      exact ⟨0, List.mem_range.mpr hpos, hspec⟩

-- A node that the scope of a simulation lets particles go to.
def InScope (graph : Graph K T) (config : FlowConfig K) (v : Nat) : Prop :=
  ∀ scope, config.scopeFilter = some scope → containsLowercase (labelAt graph v) scope = true

omit [LinearOrder K] in
theorem exists_scopeAllowed (config : FlowConfig K) (h : graph.Registered) :
    ∃ allowed, scopeAllowed graph config = some allowed ∧ Scoped graph allowed ∧
      ∀ v < graph.nodes.count, (∀ marks, allowed = some marks → marks[v]? = some true) ↔
        InScope graph config v := by
  cases hscope : config.scopeFilter with
  | none =>
      refine ⟨none, by rw [scopeAllowed, hscope], fun marks hmarks => absurd hmarks (by simp),
        fun v _ => iff_of_true (fun marks hmarks => absurd hmarks (by simp)) fun scope hsome => ?_⟩
      exact absurd (hscope.symm.trans hsome) (by simp)
  | some scope =>
      have hread : ∀ i ∈ List.range graph.numNodes, (do
          let handle ← graph.nodes.label[i]?
          let label ← graph.strings.tryResolve handle
          some (containsLowercase label scope)) =
            some (containsLowercase (labelAt graph i) scope) := by
        intro i hi
        have hnode : i < graph.nodes.count := List.mem_range.mp hi
        obtain ⟨label, hlabel⟩ := h.exists_label hnode
        obtain ⟨handle, hhandle, hresolve⟩ := Option.bind_eq_some_iff.mp hlabel
        have hread := flowNodeLabel_eq h i
        rw [flowNodeLabel, if_pos hnode, hhandle, Option.bind_eq_bind, Option.bind_some] at hread
        rw [hhandle, Option.bind_eq_bind, Option.bind_some, hread]
        rfl
      refine ⟨_, by rw [scopeAllowed, hscope]; dsimp only; rw [mapM_eq_map hread]; rfl,
        fun marks hmarks => ?_, fun v hv => ?_⟩
      · obtain rfl := Option.some.inj hmarks
        rw [List.length_map, List.length_range, Graph.numNodes]
      · simp [InScope, hscope, Graph.numNodes, hv]

-- Every propagation ends. If no limit cuts it short, the particles of the entries have come along
-- all their ways.
theorem exists_propagate (config : FlowConfig K) (entryNodes : List Nat) (numParticles : Nat)
    (h : graph.Navigable) :
    ∃ allowed flow, Scoped graph allowed ∧
      (∀ v < graph.nodes.count, (∀ marks, allowed = some marks → marks[v]? = some true) ↔
        InScope graph config v) ∧
      propagate graph config entryNodes numParticles = some flow ∧
      Adds graph (.new graph.numNodes) flow fun v o serializedBy path =>
        o ∈ entryNodes ∧ o < graph.nodes.count ∧ 0 < min numParticles config.maxParticles ∧
          Comes graph config allowed o v serializedBy path := by
  obtain ⟨allowed, hallowed, hscoped, hscope⟩ := exists_scopeAllowed config h.registered
  have hlength : (FlowState.new graph.numNodes).accumulator.length = graph.nodes.count := by
    rw [FlowState.new, List.length_replicate, Graph.numNodes]
  obtain ⟨flow, hflow, hadds⟩ := exists_foldlM_adds hlength fun e (_ : e ∈ entryNodes) flow hlength =>
    exists_spawnAll config (stepBudget graph config) (min numParticles config.maxParticles) e h
      hscoped hlength
  refine ⟨allowed, flow, hscoped, hscope, by rw [propagate, hallowed]; exact hflow, hadds.length,
    hadds.uncut, fun hcut v o serializedBy path => ?_⟩
  rw [hadds.seen hcut]
  refine or_congr_right ⟨?_, ?_⟩
  · rintro ⟨e, he, hlt, hpos, rfl, hcomes⟩
    exact ⟨he, hlt, hpos, hcomes⟩
  · rintro ⟨ho, hlt, hpos, hcomes⟩
    exact ⟨o, ho, hlt, hpos, rfl, hcomes⟩

end Spawning

end M1nd.Core.FlowEngine
