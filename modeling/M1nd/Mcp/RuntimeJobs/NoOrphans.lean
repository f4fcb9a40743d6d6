import M1nd.Mcp.RuntimeJobs.Orphans

namespace M1nd.Mcp

open M1nd.Control
open M1nd.Library.Checks
open M1nd.Library.Durable

section Ranks

variable {ν : Type}

-- The steps that a worker has left at most.
def WorkerPhase.rank : WorkerPhase ν → Nat
  | .Registered => 9
  | .Starting => 8
  | .Supervising => 7
  | .Preparing => 6
  | .Overdue => 5
  | .Received _ => 4
  | .Reserved _ _ => 3
  | .Committed _ _ => 2
  | .SpawnFailed _ | .Panicked _ => 1
  | .Ended => 0

def JobEvent.works (index : Nat) : JobEvent ν → Bool
  | .Work place _ => place = index
  | _ => false

-- The worker at `index`, as long as the process lasts.
def JobProcess.Employs (index : Nat) (jobId : String) (atMost : Nat) : JobProcess ν → Prop
  | .Closed _ => True
  | .Open _ workers _ => ∃ phase, workers[index]? = some ⟨jobId, phase⟩ ∧ phase.rank ≤ atMost

def JobProcess.isOpen : JobProcess ν → Bool
  | .Closed _ => false
  | .Open _ _ _ => true

variable {phase : WorkerPhase ν} {registry : RegistryState}

theorem rank_eq_zero (h : phase.rank = 0) : phase = .Ended := by
  cases phase <;> first | rfl | cases h

theorem activeJobs_eq_nil
    (h : ∀ jobId job, registry.job? jobId = some job → job.state.isTerminal = true) :
    registry.activeJobs = [] := by
  refine List.eq_nil_iff_forall_not_mem.mpr fun jobId hmem => ?_
  obtain ⟨job, hjob, hactive⟩ := mem_activeJobs.mp hmem
  rw [h jobId job hjob] at hactive
  cases hactive

end Ranks

section Steps

variable [Sha256] {fromSlice : RuntimeJobDecoder} {ν α : Type} {jobId : String} {turn : Turn ν}
  {registry : RegistryState} {phase : WorkerPhase ν} {workers : List (Worker ν)} {worker : Worker ν}
  {closers : List Closer} {index atMost : Nat} {fates : List Fate} {world : JobWorld ν}
  {event : JobEvent ν} {more : List (JobEvent ν)}

-- The phase after a step of a worker has fewer steps left.
def Nears (rank : Nat) : Outcome RuntimeJobError (WorkerPhase ν) → Prop
  | .returned next => next.rank ≤ rank - 1
  | _ => True

omit [Sha256] in
theorem nears_bind {program : JobProgram α} {next : α → JobProgram (WorkerPhase ν)} {rank : Nat}
    (h : ∀ value after, Always (next value) after fun o _ => Nears rank o) :
    Always (program >>= next) registry fun o _ => Nears rank o := by
  have hany : Always program registry fun _ _ => True := fun _ => trivial
  refine .bind (hany.mono ?_)
  rintro (value | error | _) after -
  · exact h value after
  · trivial
  · trivial

omit [Sha256] in
theorem nears_pure {rank : Nat} {next : WorkerPhase ν} (h : next.rank ≤ rank - 1) :
    Always (pure next : JobProgram (WorkerPhase ν)) registry fun o _ => Nears rank o :=
  .pure h

theorem WorkerPhase.step_nears : Always (phase.step jobId turn) registry fun o _ => Nears phase.rank o := by
  cases phase with
  | Registered => exact nears_bind fun _ _ => nears_pure (by simp [WorkerPhase.rank])
  | Starting =>
      refine nears_bind fun _ _ => ?_
      split
      · exact nears_pure (by simp [WorkerPhase.rank])
      · exact nears_pure (by simp [WorkerPhase.rank])
  | SpawnFailed error => exact nears_bind fun _ _ => nears_pure (by simp [WorkerPhase.rank])
  | Supervising =>
      simp only [WorkerPhase.step]
      split
      · exact nears_pure (by simp [WorkerPhase.rank])
      · exact nears_bind fun _ _ => nears_pure (by simp [WorkerPhase.rank])
  | Preparing =>
      simp only [WorkerPhase.step]
      split
      · exact nears_pure (by simp [WorkerPhase.rank])
      · exact nears_pure (by simp [WorkerPhase.rank])
      · exact nears_bind fun _ _ => nears_pure (by simp [WorkerPhase.rank])
  | Overdue =>
      simp only [WorkerPhase.step]
      split
      · exact nears_pure (by simp [WorkerPhase.rank])
      · exact nears_pure (by simp [WorkerPhase.rank])
  | Received prepared =>
      unfold WorkerPhase.step
      dsimp only
      split
      · refine nears_bind fun reserved after => ?_
        split
        · exact nears_pure (by simp [WorkerPhase.rank])
        · exact nears_pure (by simp [WorkerPhase.rank])
      · refine nears_bind fun current after => ?_
        split
        · exact nears_pure (by simp [WorkerPhase.rank])
        · exact nears_pure (by simp [WorkerPhase.rank])
  | Panicked current => exact nears_bind fun _ _ => nears_pure (by simp [WorkerPhase.rank])
  | Reserved value now => exact nears_pure (by simp [WorkerPhase.rank])
  | Committed now outcome => exact nears_bind fun _ _ => nears_pure (by simp [WorkerPhase.rank])
  | Ended => exact nears_pure (by simp [WorkerPhase.rank])

omit [Sha256] in
theorem Employs.enter {program : JobProgram α} {returned : α → RegistryState → JobProcess ν}
    {refused : RegistryState → JobProcess ν}
    (hreturned : ∀ value after, (returned value after).Employs index jobId atMost)
    (hrefused : ∀ after, (refused after).Employs index jobId atMost) :
    (JobProcess.enter program fates registry returned refused).Employs index jobId atMost := by
  have hany : Always program registry fun _ _ => True := fun _ => trivial
  refine JobProcess.enter_cases hany ?_ ?_ ?_
  · exact fun value after _ => hreturned value after
  · exact fun _ after _ => hrefused after
  · exact fun _ _ => trivial

theorem workProcess_employs {place : Nat} (hworker : workers[place]? = some worker)
    (h : (JobProcess.Open registry workers closers).Employs index jobId atMost) :
    (workProcess place turn worker registry workers closers).Employs index jobId
      (if place = index then atMost - 1 else atMost) := by
  obtain ⟨phase, hphase, hrank⟩ := h
  by_cases hplace : place = index
  · subst hplace
    obtain rfl : worker = ⟨jobId, phase⟩ := Option.some.inj (hworker.symm.trans hphase)
    have hbound : place < workers.length := (List.getElem?_eq_some_iff.mp hworker).1
    have hset : ∀ next : Worker ν, (workers.set place next)[place]? = some next := by
      intro next
      rw [List.getElem?_set, if_pos rfl, if_pos hbound]
    rw [if_pos rfl]
    refine JobProcess.enter_cases WorkerPhase.step_nears ?_ ?_ ?_
    · rintro next after (hnext : next.rank ≤ phase.rank - 1)
      exact ⟨next, hset _, by omega⟩
    · exact fun _ after _ => ⟨.Ended, hset _, Nat.zero_le _⟩
    · exact fun _ _ => trivial
  · have hset : ∀ next : Worker ν, (workers.set place next)[index]? = some ⟨jobId, phase⟩ := by
      intro next
      rw [List.getElem?_set, if_neg hplace, hphase]
    rw [if_neg hplace]
    exact Employs.enter (fun next after => ⟨phase, hset _, hrank⟩) fun after => ⟨phase, hset _, hrank⟩

-- A worker gets on by its own steps, and no other thread holds it up.
theorem JobWorld.apply_employs (hopen : world.process.isOpen = true)
    (h : world.process.Employs index jobId atMost) :
    (world.apply fromSlice event).process.Employs index jobId
      (if event.works index then atMost - 1 else atMost) := by
  obtain ⟨process, invocations⟩ := world
  cases process with
  | Closed file => cases hopen
  | Open registry workers closers =>
      have hstay : ∀ registry closers,
          (JobProcess.Open registry workers closers).Employs index jobId atMost := fun _ _ => h
      cases event with
      | Work place turn =>
          simp only [JobEvent.works, decide_eq_true_eq]
          cases hworker : workers[place]? with
          | some worker =>
              simp only [JobWorld.apply, hworker]
              exact workProcess_employs hworker h
          | none =>
              obtain ⟨phase, hphase, hrank⟩ := h
              have hplace : place ≠ index := by
                rintro rfl
                rw [hworker] at hphase
                cases hphase
              rw [if_neg hplace]
              simp only [JobWorld.apply, hworker]
              exact ⟨phase, hphase, hrank⟩
      | Submit request clock fates =>
          obtain ⟨phase, hphase, hrank⟩ := h
          refine Employs.enter (fun _ after => ⟨phase, ?_, hrank⟩) fun after => ⟨phase, hphase, hrank⟩
          rw [List.getElem?_append_left (List.getElem?_eq_some_iff.mp hphase).1]
          exact hphase
      | RequestCancel other clock fates => exact Employs.enter (fun _ after => hstay _ _) fun after => hstay _ _
      | Close place ticks fates =>
          cases hcloser : closers[place]? with
          | none =>
              simp only [JobWorld.apply, hcloser]
              exact hstay _ _
          | some closer =>
              simp only [JobWorld.apply, hcloser]
              exact Employs.enter (fun _ after => hstay _ _) fun after => hstay _ _
      | Open maxInFlight ticks fates => exact hstay _ _
      | CloseAdmission => exact hstay _ _
      | Shutdown => exact hstay _ _
      | Drop => exact hstay _ _
      | Crash => trivial

-- The process lasts through these events.
def Lasting (fromSlice : RuntimeJobDecoder) (world : JobWorld ν) (more : List (JobEvent ν)) : Prop :=
  ∀ before after, more = before ++ after →
    (before.foldl (JobWorld.apply fromSlice) world).process.isOpen = true

theorem foldl_employs (hlasting : Lasting fromSlice world more)
    (h : world.process.Employs index jobId atMost) :
    (more.foldl (JobWorld.apply fromSlice) world).process.Employs index jobId
      (atMost - more.countP (JobEvent.works index)) := by
  induction more using List.reverseRecOn with
  | nil => exact h
  | append_singleton more event ih =>
      have hbefore := ih fun before after hmore => hlasting before (after ++ [event])
        (by rw [hmore, List.append_assoc])
      have hstep : (JobWorld.apply fromSlice (more.foldl (JobWorld.apply fromSlice) world)
          event).process.Employs index jobId _ := JobWorld.apply_employs (hlasting more [event] rfl) hbefore
      rw [List.foldl_append, List.countP_append, List.countP_singleton]
      rw [← Nat.sub_sub]
      split at hstep
      · rename_i hworks
        rw [if_pos hworks]
        exact hstep
      · rename_i hworks
        rw [if_neg hworks]
        exact hstep

end Steps

section Run

variable [Sha256] {fromSlice : RuntimeJobDecoder} {ν : Type} {registry : RegistryState}
  {workers : List (Worker ν)} {closers : List Closer} {events more : List (JobEvent ν)}
  {event : JobEvent ν} {jobId : String} {phase : WorkerPhase ν} {index : Nat}
  {met : JobProcess ν → JobEvent ν → Prop}

-- Every step of the run meets the condition on the process that it finds.
def StepsMeet (met : JobProcess ν → JobEvent ν → Prop) (fromSlice : RuntimeJobDecoder)
    (events : List (JobEvent ν)) : Prop :=
  ∀ before event after, events = before ++ event :: after →
    met (jobRun fromSlice before).process event

abbrev UnracedRun (fromSlice : RuntimeJobDecoder) (events : List (JobEvent ν)) : Prop :=
  StepsMeet JobEvent.Unraced fromSlice events

theorem jobRun_concat :
    jobRun fromSlice (events ++ [event]) = (jobRun fromSlice events).apply fromSlice event := by
  rw [jobRun, List.foldl_append]
  rfl

theorem jobRun_append :
    jobRun fromSlice (events ++ more) = more.foldl (JobWorld.apply fromSlice) (jobRun fromSlice events) :=
  List.foldl_append

theorem StepsMeet.of_append (h : StepsMeet met fromSlice (events ++ more)) :
    StepsMeet met fromSlice events := by
  intro before event after hevents
  refine h before event (after ++ more) ?_
  rw [hevents, List.append_assoc, List.cons_append]

theorem jobRun_steady (hdecode : RuntimeJobReadsBack fromSlice) (events : List (JobEvent ν)) :
    (jobRun fromSlice events).process.Steady := by
  induction events using List.reverseRecOn with
  | nil => trivial
  | append_singleton events event ih =>
      obtain ⟨log, hholds⟩ := jobRun_holds hdecode events
      rw [jobRun_concat]
      exact (hholds.attending hdecode ih).1

theorem jobRun_attended (hdecode : RuntimeJobReadsBack fromSlice) (hrun : UnracedRun fromSlice events) :
    (jobRun fromSlice events).process.Attended := by
  induction events using List.reverseRecOn with
  | nil => trivial
  | append_singleton events event ih =>
      obtain ⟨log, hholds⟩ := jobRun_holds hdecode events
      have hunraced := hrun events event [] rfl
      rw [jobRun_concat]
      exact (hholds.attending hdecode (jobRun_steady hdecode events)).2 ⟨hunraced, ih hrun.of_append⟩

-- The jobs of a run, the workers that they have, and what is left once these have returned.
structure NoOrphans (fromSlice : RuntimeJobDecoder) (events : List (JobEvent ν)) : Prop where
  attended : ∀ registry workers closers,
    (jobRun fromSlice events).process = .Open registry workers closers → registry.poisoned = false →
    ∀ jobId job, registry.job? jobId = some job → job.state.isTerminal = false →
      ∃ (index : Nat) (phase : WorkerPhase ν), workers[index]? = some ⟨jobId, phase⟩ ∧ phase ≠ .Ended
  ends : ∀ registry workers closers,
    (jobRun fromSlice events).process = .Open registry workers closers →
    ∀ index jobId phase, workers[index]? = some ⟨jobId, phase⟩ →
    ∀ more, Lasting fromSlice (jobRun fromSlice events) more → UnracedRun fromSlice (events ++ more) →
      phase.rank ≤ more.countP (JobEvent.works index) →
      ∃ (registry' : RegistryState) (workers' : List (Worker ν)) (closers' : List Closer),
        (jobRun fromSlice (events ++ more)).process = .Open registry' workers' closers' ∧
        workers'[index]? = some ⟨jobId, .Ended⟩ ∧
        (registry'.poisoned = false → ∀ job, registry'.job? jobId = some job →
          job.state.isTerminal = true)
  settled : ∀ registry workers closers,
    (jobRun fromSlice events).process = .Open registry workers closers → registry.poisoned = false →
    (∀ worker ∈ workers, worker.phase = .Ended) →
      (∀ jobId job, registry.job? jobId = some job → job.state.isTerminal = true) ∧
        registry.activeJobs = []

-- A worker that has returned leaves its job over: no other worker has that job.
theorem jobRun_over (hdecode : RuntimeJobReadsBack fromSlice) (hrun : UnracedRun fromSlice events)
    (hopen : (jobRun fromSlice events).process = .Open registry workers closers)
    (hworker : workers[index]? = some ⟨jobId, .Ended⟩) : Over jobId registry := by
  obtain ⟨log, -, hlive⟩ := jobRun_holds hdecode events
  have hattended := jobRun_attended hdecode hrun
  rw [hopen] at hlive hattended
  intro hsafe job hjob
  by_contra hactive
  rw [Bool.not_eq_true] at hactive
  obtain ⟨worker, hmem, rfl, hphase⟩ := hattended hsafe jobId job hjob hactive
  have hsame : worker = ⟨worker.jobId, .Ended⟩ :=
    List.inj_on_of_nodup_map hlive.2.nodup hmem (List.mem_of_getElem? hworker) rfl
  rw [hsame] at hphase
  exact hphase rfl

-- No job is left behind by its workers, however the threads of the process take turns.
theorem jobRun_no_orphans (hdecode : RuntimeJobReadsBack fromSlice) (hrun : UnracedRun fromSlice events) :
    NoOrphans fromSlice events := by
  have hattended := jobRun_attended hdecode hrun
  refine ⟨?_, ?_, ?_⟩
  · intro registry workers closers hopen hsafe jobId job hjob hactive
    rw [hopen] at hattended
    obtain ⟨worker, hmem, rfl, hphase⟩ := hattended hsafe jobId job hjob hactive
    obtain ⟨index, hindex⟩ := List.mem_iff_getElem?.mp hmem
    exact ⟨index, worker.phase, hindex, hphase⟩
  · intro registry workers closers hopen index jobId phase hworker more hlasting hmore hturns
    have hbefore : (jobRun fromSlice events).process.Employs index jobId phase.rank := by
      rw [hopen]
      exact ⟨phase, hworker, Nat.le_refl _⟩
    have hafter := foldl_employs hlasting hbefore
    have hlast := hlasting more [] (List.append_nil _).symm
    rw [← jobRun_append] at hafter hlast
    cases hprocess : (jobRun fromSlice (events ++ more)).process with
    | Closed file =>
        rw [hprocess] at hlast
        cases hlast
    | Open registry' workers' closers' =>
        rw [hprocess] at hafter
        obtain ⟨ended, hended, hrank⟩ := hafter
        obtain rfl : ended = .Ended := rank_eq_zero (by omega)
        refine ⟨registry', workers', closers', rfl, hended, ?_⟩
        exact jobRun_over hdecode hmore hprocess hended
  · intro registry workers closers hopen hsafe hended
    rw [hopen] at hattended
    have hover : ∀ jobId job, registry.job? jobId = some job → job.state.isTerminal = true := by
      intro jobId job hjob
      by_contra hactive
      rw [Bool.not_eq_true] at hactive
      obtain ⟨worker, hmem, -, hphase⟩ := hattended hsafe jobId job hjob hactive
      exact hphase (hended worker hmem)
    exact ⟨hover, activeJobs_eq_nil hover⟩

instance decidableForallSome {α : Type} (found : Option α) (p : α → Prop) [DecidablePred p] :
    Decidable (∀ value, found = some value → p value) :=
  inferInstanceAs (Decidable (∀ value ∈ found, p value))

omit [Sha256] in
theorem isOk_iff {clock : Clock} : clock.toBool = true ↔ ∃ now, clock = .ok now := by
  cases clock with
  | ok now => simp [Except.toBool]
  | error error => simp [Except.toBool]

instance (clock : Clock) : Decidable (∃ now, clock = .ok now) :=
  decidable_of_iff _ isOk_iff

instance : Decidable (Over jobId registry) :=
  inferInstanceAs (Decidable (registry.poisoned = false → ∀ job, registry.job? jobId = some job →
    job.state.isTerminal = true))

instance (turn : Turn ν) : (phase : WorkerPhase ν) → Decidable (phase.Unraced jobId registry turn)
  | .Registered => inferInstanceAs (Decidable (∀ job, registry.job? jobId = some job →
      job.state.isTerminal = true ∨ job.state = .Pending ∧ ∃ now, turn.ticks 0 = .ok now))
  | .SpawnFailed _ | .Panicked _ =>
      inferInstanceAs (Decidable (Over jobId registry ∨ ∃ now, turn.ticks 1 = .ok now))
  | .Supervising => inferInstanceAs (Decidable (turn.spawnError = none ∨ Over jobId registry ∨
      ∃ now, turn.ticks 1 = .ok now))
  | .Starting | .Preparing | .Overdue | .Received _ | .Reserved _ _ | .Committed _ _ | .Ended =>
      isTrue trivial

instance (met : Worker ν → RegistryState → Turn ν → Prop)
    [∀ worker registry turn, Decidable (met worker registry turn)] (index : Nat) (turn : Turn ν) :
    (process : JobProcess ν) → Decidable ((JobEvent.Work index turn).Meets met process)
  | .Closed _ => isTrue fun _ _ _ _ h => nomatch h
  | .Open registry workers _ =>
      decidable_of_iff (registry.poisoned = false → ∀ worker, workers[index]? = some worker →
          met worker registry turn)
        ⟨fun h _ _ _ worker hopen => by cases hopen; exact fun hsafe => h hsafe worker,
          fun h hsafe worker => h _ _ _ worker rfl hsafe⟩

instance (met : Worker ν → RegistryState → Turn ν → Prop)
    [∀ worker registry turn, Decidable (met worker registry turn)] (process : JobProcess ν) :
    (event : JobEvent ν) → Decidable (event.Meets met process)
  | .Work _ _ => inferInstance
  | .Open _ _ _ => isTrue trivial
  | .Submit _ _ _ => isTrue trivial
  | .RequestCancel _ _ _ => isTrue trivial
  | .CloseAdmission => isTrue trivial
  | .Shutdown => isTrue trivial
  | .Drop => isTrue trivial
  | .Close _ _ _ => isTrue trivial
  | .Crash => isTrue trivial

instance (process : JobProcess ν) (event : JobEvent ν) : Decidable (event.Unraced process) :=
  inferInstanceAs (Decidable (event.Meets (fun worker registry turn =>
    worker.phase.Unraced worker.jobId registry turn) process))

theorem stepsMeet_iff : (∀ place : Fin events.length,
      met (jobRun fromSlice (events.take place)).process (events.get place)) ↔
    StepsMeet met fromSlice events := by
  constructor
  · rintro h before event after rfl
    have hbound : before.length < (before ++ event :: after).length := by simp
    have hplace := h ⟨before.length, hbound⟩
    simpa using hplace
  · intro h place
    refine h _ _ (events.drop (place + 1)) ?_
    rw [List.get_eq_getElem, ← List.drop_eq_getElem_cons place.isLt, List.take_append_drop]

instance [∀ process event, Decidable (met process event)] : Decidable (StepsMeet met fromSlice events) :=
  decidable_of_iff _ stepsMeet_iff

omit [Sha256] in
theorem jobRun_keeps_job :
    letI := standardSha256
    let fromSlice := Function.partialInv RuntimeJobJournalRecordV1.toVec
    UnracedRun fromSlice jobEvents ∧ NoOrphans fromSlice jobEvents := by
  let _ := standardSha256
  have hrun : UnracedRun (Function.partialInv RuntimeJobJournalRecordV1.toVec) jobEvents := by
    decide +kernel
  exact ⟨hrun, jobRun_no_orphans partialInv_runtimeJobReadsBack hrun⟩

-- A job that is asked to stop right after it is registered: it cannot be moved to running, its
-- submission is refused, and no thread is left that would end it.
def racedEvents : List (JobEvent Unit) :=
  [.Open 1 (fun _ _ => .ok 0) [], .Submit jobRequest (.ok 1) [], .RequestCancel "job" (.ok 2) [],
    .Work 0 jobTurn]

omit [Sha256] in
theorem raced_cancel_orphans :
    letI := standardSha256
    let fromSlice := Function.partialInv RuntimeJobJournalRecordV1.toVec
    ∃ registry workers closers, (jobRun fromSlice racedEvents).process = .Open registry workers closers ∧
      registry.poisoned = false ∧ (∀ worker ∈ workers, worker.phase = .Ended) ∧
      (registry.job? "job").map RuntimeJobV1.state = some .Cancelling ∧ registry.activeJobs = ["job"] := by
  let _ := standardSha256
  have hleft : (match (jobRun (Function.partialInv RuntimeJobJournalRecordV1.toVec) racedEvents).process with
      | .Closed _ => false
      | .Open registry workers _ => decide (registry.poisoned = false ∧
          (∀ worker ∈ workers, worker.phase.rank = 0) ∧
          (registry.job? "job").map RuntimeJobV1.state = some .Cancelling ∧
          registry.activeJobs = ["job"])) = true := by
    decide +kernel
  revert hleft
  split
  · nofun
  · rename_i registry workers closers hopen
    rw [decide_eq_true_eq]
    rintro ⟨hsafe, hended, hleft⟩
    exact ⟨registry, workers, closers, hopen, hsafe, fun worker hworker => rank_eq_zero (hended worker hworker),
      hleft⟩

end Run

end M1nd.Mcp
