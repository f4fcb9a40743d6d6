import M1nd.Mcp.RuntimeJobs.Workers

namespace M1nd.Mcp

open M1nd.Control
open M1nd.Library.Checks
open M1nd.Library.Durable
open M1nd.Library.Json (Bytes)

variable [Sha256] {ν α : Type} {registry after : RegistryState}
  {log log' : List RuntimeJobJournalRecordV1} {allowed : RuntimeJobV1 → Prop}
  {jobId code reason message : String} {job : RuntimeJobV1} {flag : Bool} {ticks : Nat → Clock}
  {turn : Turn ν} {invocations : List Invocation} {phase : WorkerPhase ν} {closer : Closer}

-- One step of a worker, phase by phase.

theorem failJob_spec (h : Tracks registry log) :
    Always (failJob jobId code reason message flag ticks) registry fun o after =>
      JobAdvances (FreeIn .Failed) jobId registry log o after :=
  (transition_spec h).mono fun _ _ hpost => hpost.1

omit [Sha256] in
-- A call before the reservation leaves none.
theorem advances_free {o : Outcome RuntimeJobError (WorkerPhase ν)}
    (hunclaimed : Unclaimed jobId log) (hafter : Advanced allowed jobId registry log o after log')
    (hallowed : ∀ job, allowed job → Free job)
    (ho : ∀ phase, o = .returned phase → phase.Holds invocations log' jobId) :
    ∃ log', Advanced (fun _ => True) jobId registry log o after log' ∧
      StepsTo jobId invocations after log' o := by
  refine ⟨log', hafter.mono fun _ _ => trivial, ?_⟩
  match o with
  | .returned phase => exact ⟨ho phase rfl, .inr (.of_unclaimed hunclaimed hafter nofun hallowed)⟩
  | .refused error => exact .of_unclaimed hunclaimed hafter nofun hallowed
  | .crashed => exact trivial

omit [Sha256] in
-- The worker ends after a call that left no reservation.
theorem ends_always {program : JobProgram Unit} (hunclaimed : Unclaimed jobId log)
    (hallowed : ∀ job, allowed job → Free job)
    (h : Always program registry fun o after => JobAdvances allowed jobId registry log o after) :
    Always (do program; return (WorkerPhase.Ended : WorkerPhase ν)) registry fun o after =>
      ∃ log', Advanced (fun _ => True) jobId registry log o after log' ∧
        StepsTo jobId invocations after log' o := by
  refine .bind (h.mono ?_)
  rintro (_ | error | _) after ⟨log', hafter⟩
  · refine .pure (advances_free hunclaimed (hafter.outcome nofun) hallowed ?_)
    rintro _ ⟨⟩
    trivial
  · exact advances_free hunclaimed (hafter.outcome nofun) hallowed (fun _ heq => nomatch heq)
  · exact advances_free hunclaimed (hafter.outcome fun ho => absurd rfl ho) hallowed (fun _ heq => nomatch heq)

theorem WorkerPhase.step_spec (file : Bytes) (h : Tracks registry log)
    (hphase : phase.Holds invocations log jobId)
    (hreleased : ¬phase.Owns → Released registry jobId) :
    Always (phase.step jobId turn) registry fun o after =>
      ∃ log', Advanced (fun _ => True) jobId registry log o after log' ∧
        StepsTo jobId (invocations ++ (Worker.mk jobId phase).invokes file) after log' o := by
  have hstay : ∀ next : WorkerPhase ν, next.Holds invocations log jobId →
      Released registry jobId → ∃ log', Advanced (fun _ => True) jobId registry log
        (.returned next : Outcome RuntimeJobError (WorkerPhase ν)) registry log' ∧
          StepsTo jobId (invocations ++ []) registry log' (.returned next) := by
    intro next hnext hfree
    rw [List.append_nil]
    exact ⟨log, h.refl, hnext, .inr hfree⟩
  have hlost : ∀ error : RuntimeJobError, Released registry jobId →
      ∃ log', Advanced (fun _ => True) jobId registry log
        (.refused error : Outcome RuntimeJobError (WorkerPhase ν)) registry log' ∧
          StepsTo jobId (invocations ++ [])  registry log'
            (.refused error : Outcome RuntimeJobError (WorkerPhase ν)) :=
    fun _ hfree => ⟨log, h.refl, hfree⟩
  cases phase with
  | Registered =>
      obtain ⟨huninvoked, hunclaimed⟩ := hphase
      refine .bind ((transition_spec h).mono ?_)
      rintro (_ | error | _) after ⟨⟨log', hafter⟩, -⟩
      · refine .pure (advances_free hunclaimed (hafter.outcome nofun) (fun _ hkind => hkind.2) ?_)
        rintro _ ⟨⟩
        rw [Worker.invokes, List.append_nil]
        exact ⟨huninvoked, hunclaimed.grown hafter.grown fun _ hkind => hkind.undecided nofun nofun⟩
      · exact advances_free hunclaimed (hafter.outcome nofun) (fun _ hkind => hkind.2) (fun _ heq => nomatch heq)
      · exact advances_free hunclaimed (hafter.outcome fun ho => absurd rfl ho)
          (fun _ hkind => hkind.2) (fun _ heq => nomatch heq)
  | Starting =>
      have hfree := hreleased id
      refine snapshot_bind (fun _ => hlost _ hfree) fun job hjob => ?_
      split
      · exact .pure (hstay .Supervising hphase hfree)
      · exact .pure (hstay (.SpawnFailed _) hphase hfree)
  | SpawnFailed error =>
      exact ends_always hphase.2 (fun _ (hkind : FreeIn .Failed _) => hkind.2) (failJob_spec h)
  | Supervising =>
      simp only [WorkerPhase.step]
      split
      · exact .pure (hstay .Preparing hphase (hreleased id))
      · exact ends_always hphase.2 (fun _ (hkind : FreeIn .Failed _) => hkind.2) (failJob_spec h)
  | Preparing =>
      obtain ⟨huninvoked, hunclaimed⟩ := hphase
      simp only [WorkerPhase.step]
      split
      · exact .pure (hstay (.Received _) ⟨huninvoked, hunclaimed⟩ (hreleased id))
      · exact .pure (hstay (.Received none) ⟨huninvoked, hunclaimed⟩ (hreleased id))
      · have hoverdue : ∀ {after log'}, Grown (FreeIn .Cancelling) jobId log log' →
            Advanced (FreeIn .Cancelling) jobId registry log
              (.returned () : Outcome RuntimeJobError Unit) after log' →
            ∃ log', Advanced (fun _ => True) jobId registry log
              (.returned .Overdue : Outcome RuntimeJobError (WorkerPhase ν)) after log' ∧
                StepsTo jobId (invocations ++ []) after log'
                  (.returned .Overdue : Outcome RuntimeJobError (WorkerPhase ν)) := by
          intro after log' hgrown hafter
          rw [List.append_nil]
          refine advances_free hunclaimed (hafter.outcome nofun) (fun _ hkind => hkind.2) ?_
          rintro _ ⟨⟩
          exact ⟨huninvoked, hunclaimed.grown hgrown fun _ hkind => hkind.undecided nofun nofun⟩
        refine .bind (.orElse ((requestCancel_spec h).mono ?_))
        rintro (_ | error | _) after ⟨log', hafter⟩
        · exact .pure (hoverdue hafter.grown (hafter.outcome nofun))
        · exact .pure (.pure (hoverdue hafter.grown (hafter.outcome nofun)))
        · exact advances_free hunclaimed (hafter.outcome fun ho => absurd rfl ho)
            (fun _ hkind => hkind.2) (fun _ heq => nomatch heq)
  | Overdue =>
      simp only [WorkerPhase.step]
      split
      · exact .pure (hstay (.Received _) hphase (hreleased id))
      · exact .pure (hstay (.Received none) hphase (hreleased id))
  | Received prepared =>
      obtain ⟨huninvoked, hunclaimed⟩ := hphase
      simp only [WorkerPhase.step]
      split
      · refine .bind ((finishAfterPrepare_spec h hunclaimed).mono ?_)
        rintro (reserved | error | _) after ⟨log', hafter, hclaims⟩
        · match reserved with
          | none => exact .pure ⟨log', hafter.outcome nofun, trivial, .inr hclaims⟩
          | some (value, now) =>
              refine .pure ⟨log', hafter.outcome nofun, ⟨?_, hclaims⟩, .inl trivial⟩
              rw [Worker.invokes, List.append_nil]
              exact huninvoked
        · exact ⟨log', hafter.outcome nofun, hclaims⟩
        · exact ⟨log', hafter.outcome fun ho => absurd rfl ho, trivial⟩
      · refine snapshot_bind (fun _ => hlost _ (hreleased id)) fun job hjob => ?_
        split
        · exact .pure (hstay .Ended trivial (hreleased id))
        · exact .pure (hstay (.Panicked _) ⟨huninvoked, hunclaimed⟩ (hreleased id))
  | Panicked current =>
      exact ends_always hphase.2 (fun _ (hkind : FreeIn .Failed _) => hkind.2) (failJob_spec h)
  | Reserved value now => exact .pure ⟨log, h.refl, trivial, .inl trivial⟩
  | Committed now outcome =>
      refine .bind ((finishCommit_spec h).mono ?_)
      rintro (_ | error | _) after ⟨⟨log', hafter⟩, hfree⟩
      · exact .pure ⟨log', hafter.outcome nofun, trivial, .inr (hfree nofun)⟩
      · exact ⟨log', hafter.outcome nofun, hfree nofun⟩
      · exact ⟨log', hafter.outcome fun ho => absurd rfl ho, trivial⟩
  | Ended => exact .pure (hstay .Ended trivial (hreleased id))

-- One step of `shutdown` or of the drop leaves the end of every job to its worker.
theorem Closer.step_spec (h : Tracks registry log) :
    Always (closer.step ticks) registry fun o after =>
      ∃ jobId log', Advanced Undecided jobId registry log o after log' := by
  have hidle : ∀ o : Outcome RuntimeJobError Closer,
      ∃ jobId log', Advanced Undecided jobId registry log o registry log' :=
    fun _ => ⟨"", log, h.refl⟩
  have hkind : ∀ target : RuntimeJobState, target ≠ .Succeeded → target ≠ .Failed →
      ∀ job, FreeIn target job → Undecided job :=
    fun target hsucceeded hfailed job hjob => hjob.undecided hsucceeded hfailed
  cases closer with
  | Shutdown remaining =>
      cases remaining with
      | nil => exact .pure (hidle _)
      | cons jobId remaining =>
          refine snapshot_bind (fun _ => hidle _) fun job hjob => ?_
          split
          · exact .pure (hidle _)
          · exact .pure (hidle _)
  | ShutdownPending jobId remaining =>
      refine .bind (.check (fun finishedAt _ => ?_) fun _ _ => hidle _)
      refine .bind ((transition_spec h).mono ?_)
      rintro (_ | error | _) after ⟨⟨log', hafter⟩, -⟩
      · exact .pure ⟨jobId, log', (hafter.mono (hkind _ nofun nofun)).outcome nofun⟩
      · exact ⟨jobId, log', (hafter.mono (hkind _ nofun nofun)).outcome nofun⟩
      · exact ⟨jobId, log', (hafter.mono (hkind _ nofun nofun)).outcome fun ho => absurd rfl ho⟩
  | ShutdownActive jobId remaining =>
      refine .bind (.orElse ((requestCancel_spec h).mono ?_))
      rintro (_ | error | _) after ⟨log', hafter⟩
      · exact .pure ⟨jobId, log', (hafter.mono (hkind _ nofun nofun)).outcome nofun⟩
      · dsimp only
        split
        · exact .pure (.pure ⟨jobId, log', (hafter.mono (hkind _ nofun nofun)).outcome nofun⟩)
        · exact .refuse ⟨jobId, log', (hafter.mono (hkind _ nofun nofun)).outcome nofun⟩
      · exact ⟨jobId, log', (hafter.mono (hkind _ nofun nofun)).outcome fun ho => absurd rfl ho⟩
  | Drop remaining =>
      cases remaining with
      | nil => exact .pure (hidle _)
      | cons jobId remaining =>
          refine .bind ((dropRequested_spec h).mono ?_)
          rintro (_ | error | _) after ⟨log', hafter⟩
          · exact .pure ⟨jobId, log', (hafter.mono (hkind _ nofun nofun)).outcome nofun⟩
          · exact ⟨jobId, log', (hafter.mono (hkind _ nofun nofun)).outcome nofun⟩
          · exact ⟨jobId, log', (hafter.mono (hkind _ nofun nofun)).outcome fun ho => absurd rfl ho⟩
  | Ended => exact .pure (hidle _)

end M1nd.Mcp

namespace M1nd.Mcp

open M1nd.Control
open M1nd.Library.Checks
open M1nd.Library.Durable
open M1nd.Library.Json (Bytes)

section State

variable {ν α : Type} {registry after : RegistryState}
  {log log' : List RuntimeJobJournalRecordV1} {jobId : String} {job : RuntimeJobV1}
  {o : Outcome RuntimeJobError α} {invocations : List Invocation} {invocation : Invocation}
  {worker : Worker ν} {workers : List (Worker ν)} {closers : List Closer} {file : Bytes}
  {process : JobProcess ν}

-- A commit closure is called once its reservation is durable.
structure Invoked (file : Bytes) (log : List RuntimeJobJournalRecordV1) (invocation : Invocation) :
    Prop where
  file : invocation.file <+: file
  reserved : ∃ before tail, Filed invocation.file before tail ∧ before <+: log ∧
    ∃ job ∈ history invocation.jobId before, job.commitInProgress = true

-- What the journal and the calls of commit closures have to do with each other.
structure RegistryRecorded (file : Bytes) (invocations : List Invocation)
    (log : List RuntimeJobJournalRecordV1) : Prop where
  filed : ∃ tail, Filed file log tail
  orderly : Orderly log
  invoked : ∀ invocation ∈ invocations, Invoked file log invocation
  once : (invocations.map Invocation.jobId).Nodup

def Live (invocations : List Invocation) (log : List RuntimeJobJournalRecordV1) :
    JobProcess ν → Prop
  | .Closed _ => True
  | .Open registry workers _ => Tracks registry log ∧ WorkersHold workers registry log invocations

structure JobsHold (world : JobWorld ν) (log : List RuntimeJobJournalRecordV1) : Prop where
  recorded : RegistryRecorded world.process.file world.invocations log
  live : Live world.invocations log world.process

theorem RegistryRecorded.empty : RegistryRecorded [] [] [] :=
  ⟨⟨[], .nil⟩, .nil, by simp, List.nodup_nil⟩

theorem Invoked.moved (h : Invoked registry.journal.file log invocation)
    (hmoved : RegistryMoved registry log o after log') : Invoked after.journal.file log' invocation := by
  obtain ⟨hfile, before, tail, hfiled, hprefix, hreserved⟩ := h
  exact ⟨hfile.trans hmoved.file, before, tail, hfiled, hprefix.trans hmoved.grown, hreserved⟩

theorem RegistryRecorded.moved (h : RegistryRecorded registry.journal.file invocations log)
    (hmoved : RegistryMoved registry log o after log') : RegistryRecorded after.journal.file invocations log' :=
  ⟨hmoved.filed, hmoved.orderly, fun _ hinvocation => (h.invoked _ hinvocation).moved hmoved, h.once⟩

-- A worker calls its commit closure with the reservation in the journal.
theorem RegistryRecorded.invokes (h : RegistryRecorded file invocations log)
    (hphase : worker.phase.Holds invocations log worker.jobId) :
    RegistryRecorded file (invocations ++ worker.invokes file) log := by
  obtain ⟨tail, hfiled⟩ := h.filed
  unfold Worker.invokes
  split
  · rename_i hreserved
    rw [hreserved] at hphase
    obtain ⟨huninvoked, hjob⟩ := hphase
    refine ⟨h.filed, h.orderly, fun invocation hinvocation => ?_, ?_⟩
    · obtain hold | hnew := List.mem_append.mp hinvocation
      · exact h.invoked invocation hold
      · obtain rfl := List.mem_singleton.mp hnew
        exact ⟨List.prefix_refl _, log, tail, hfiled, List.prefix_refl _, hjob⟩
    · rw [List.map_append, List.map_singleton]
      refine List.Nodup.append h.once (List.nodup_singleton _) ?_
      rw [List.disjoint_singleton]
      intro hmem
      obtain ⟨invocation, hinvocation, hid⟩ := List.mem_map.mp hmem
      exact huninvoked invocation hinvocation hid
  · rw [List.append_nil]
    exact h

theorem invokes_jobId (hinvocation : invocation ∈ invocations ++ worker.invokes file) :
    invocation ∈ invocations ∨ invocation.jobId = worker.jobId := by
  refine (List.mem_append.mp hinvocation).imp_right fun hnew => ?_
  unfold Worker.invokes at hnew
  split at hnew
  · rw [List.mem_singleton.mp hnew]
  · cases hnew

-- A job whose commit closure was called is known to the journal.
theorem RegistryRecorded.uninvoked (h : RegistryRecorded file invocations log) (hempty : history jobId log = []) :
    Uninvoked jobId invocations := by
  rintro invocation hinvocation rfl
  obtain ⟨-, before, tail, -, ⟨rest, rfl⟩, job, hjob, -⟩ := h.invoked invocation hinvocation
  rw [history_append, List.append_eq_nil_iff] at hempty
  rw [hempty.1] at hjob
  cases hjob

-- A process with no job that is not over needs no worker.
theorem workersHold_nil (htracks : Tracks registry log)
    (hover : ∀ jobId job, registry.job? jobId = some job → job.state.isTerminal = true) :
    WorkersHold ([] : List (Worker ν)) registry log invocations where
  nodup := List.nodup_nil
  known := by simp
  phases := by simp
  owned _ jobId job hjob hcommit := by
    obtain ⟨⟨record, hrecord, rfl⟩, -⟩ := mem_history.mp (htracks.durably jobId job hjob)
    have hterminal := hover jobId record.job hjob
    rw [htracks.orderly.sound record hrecord hcommit] at hterminal
    cases hterminal

theorem Tracks.close (h : Tracks registry log) : Tracks registry.close log :=
  ⟨h.filed, h.orderly, h.durably, fun hsafe => ⟨(h.inStep hsafe).filed, (h.inStep hsafe).jobs⟩⟩

theorem WorkersHold.close (h : WorkersHold workers registry log invocations) :
    WorkersHold workers registry.close log invocations :=
  ⟨h.nodup, h.known, h.phases, h.owned⟩

theorem WorkersHold.register (h : WorkersHold workers registry log invocations)
    (htracks : Tracks registry log) (hrecorded : RegistryRecorded file invocations log)
    (hafter : Advanced (FreeIn .Pending) jobId registry log o after log') (ho : o ≠ .crashed)
    (hnew : history jobId log = []) (hunclaimed : Unclaimed jobId log')
    (hknown : history jobId log' ≠ []) :
    WorkersHold (workers ++ [⟨jobId, .Registered⟩]) after log' invocations := by
  have hkept := h.undecided htracks
    (hafter.mono fun _ hkind => hkind.undecided (by simp) (by simp)) ho
  refine ⟨?_, fun worker hworker => ?_, fun worker hworker => ?_, fun hsafe other job hjob hcommit => ?_⟩
  · rw [List.map_append, List.map_singleton]
    refine List.Nodup.append h.nodup (List.nodup_singleton _) ?_
    rw [List.disjoint_singleton]
    intro hmem
    obtain ⟨worker, hworker, rfl⟩ := List.mem_map.mp hmem
    exact h.known worker hworker hnew
  · obtain hworker | hworker := List.mem_append.mp hworker
    · exact hkept.known worker hworker
    · obtain rfl := List.mem_singleton.mp hworker
      exact hknown
  · obtain hworker | hworker := List.mem_append.mp hworker
    · exact hkept.phases worker hworker
    · obtain rfl := List.mem_singleton.mp hworker
      exact ⟨hrecorded.uninvoked hnew, hunclaimed⟩
  · obtain ⟨owner, howner, howned⟩ := hkept.owned hsafe other job hjob hcommit
    exact ⟨owner, List.mem_append_left _ howner, howned⟩

end State

section Apply

variable [Sha256] {fromSlice : RuntimeJobDecoder} {ν α : Type} {registry after : RegistryState}
  {log log' : List RuntimeJobJournalRecordV1} {invocations : List Invocation} {file : Bytes}
  {workers : List (Worker ν)} {worker : Worker ν} {closers : List Closer} {closer : Closer}
  {index : Nat} {turn : Turn ν} {fates : List Fate} {world : JobWorld ν} {event : JobEvent ν}

omit [Sha256] in
theorem JobProcess.enter_cases {program : JobProgram α}
    {post : Outcome RuntimeJobError α → RegistryState → Prop}
    {returned : α → RegistryState → JobProcess ν} {refused : RegistryState → JobProcess ν}
    {good : JobProcess ν → Prop} (h : Always program registry post)
    (hreturned : ∀ value after, post (.returned value) after → good (returned value after))
    (hrefused : ∀ error after, post (.refused error) after → good (refused after))
    (hcrashed : ∀ after, post .crashed after → good (.Closed after.journal.file)) :
    good (enter program fates registry returned refused) := by
  have hrun := h fates
  unfold enter
  simp only [Program.outcome, Program.final] at hrun
  generalize program fates registry = run at hrun ⊢
  obtain ⟨value | error | _, rest, after⟩ := run
  · exact hreturned value after hrun
  · exact hrefused error after hrun
  · exact hcrashed after hrun

-- What the step of a world leaves.
def Continues (invocations : List Invocation) (process : JobProcess ν) : Prop :=
  ∃ log, JobsHold ⟨process, invocations⟩ log

omit [Sha256] in
theorem continues_closed {o : Outcome RuntimeJobError α}
    (h : RegistryRecorded registry.journal.file invocations log) (hmoved : RegistryMoved registry log o after log') :
    Continues invocations (.Closed after.journal.file : JobProcess ν) :=
  ⟨log', h.moved hmoved, trivial⟩

-- A registry that opens leaves no job behind that is not over.
def Reopened (invocations : List Invocation) (process : JobProcess ν) : Prop :=
  Continues invocations process ∧ ∀ registry workers closers,
    process = .Open registry workers closers →
    ∀ jobId job, registry.job? jobId = some job → job.state.isTerminal = true

theorem openFile_reopened (hdecode : RuntimeJobReadsBack fromSlice)
    (h : RegistryRecorded file invocations log) (maxInFlight : Nat) (ticks : String → Nat → Clock) :
    Reopened invocations (.openFile fromSlice maxInFlight ticks fates file : JobProcess ν) := by
  unfold JobProcess.openFile
  split
  · exact ⟨⟨log, h, trivial⟩, nofun⟩
  · rename_i registry hopen
    obtain ⟨tail, hfiled⟩ := h.filed
    obtain ⟨rfl, rfl, -, hjobs⟩ := openRegistry_spec hdecode hfiled hopen
    have hstep : InStep registry log := ⟨hfiled, hjobs⟩
    have htracks : Tracks registry log :=
      ⟨⟨[], hfiled⟩, h.orderly, hstep.durably, fun _ => hstep⟩
    refine JobProcess.enter_cases (failClosedInterruptedJobs_spec htracks) ?_ ?_ ?_
    · rintro _ after ⟨⟨log', hmoved⟩, hover⟩
      refine ⟨⟨log', h.moved hmoved, hmoved.tracks nofun,
        workersHold_nil (hmoved.tracks nofun) (hover rfl)⟩, ?_⟩
      rintro _ _ _ ⟨⟩
      exact hover rfl
    · rintro _ after ⟨⟨log', hmoved⟩, -⟩
      exact ⟨continues_closed h hmoved, nofun⟩
    · rintro after ⟨⟨log', hmoved⟩, -⟩
      exact ⟨continues_closed h hmoved, nofun⟩

theorem submitProcess_continues (h : RegistryRecorded registry.journal.file invocations log)
    (htracks : Tracks registry log) (hworkers : WorkersHold workers registry log invocations)
    (request : RuntimeJobRequestV1) (clock : Clock) :
    Continues invocations (submitProcess request clock fates registry workers closers) := by
  have hspec : Always (do
      Program.check (validateJobRequest request)
      registerPending request clock) registry fun o after =>
        ∃ log', Advanced (FreeIn .Pending) request.jobId registry log o after log' ∧
          (o = .returned () → history request.jobId log = [] ∧ Unclaimed request.jobId log' ∧
            history request.jobId log' ≠ []) :=
    .bind (.check (fun _ _ => registerPending_spec htracks) fun _ _ => ⟨log, htracks.refl, nofun⟩)
  refine JobProcess.enter_cases hspec ?_ ?_ ?_
  · rintro _ after ⟨log', hafter, hnew⟩
    obtain ⟨hempty, hunclaimed, hknown⟩ := hnew rfl
    exact ⟨log', h.moved hafter.moved, hafter.tracks nofun,
      hworkers.register htracks h hafter nofun hempty hunclaimed hknown⟩
  · rintro error after ⟨log', hafter, -⟩
    exact ⟨log', h.moved hafter.moved, hafter.tracks nofun, hworkers.undecided htracks
      (hafter.mono fun _ hkind => hkind.undecided (by simp) (by simp)) nofun⟩
  · rintro after ⟨log', hafter, -⟩
    exact continues_closed h hafter.moved

theorem cancelProcess_continues (h : RegistryRecorded registry.journal.file invocations log)
    (htracks : Tracks registry log) (hworkers : WorkersHold workers registry log invocations)
    (jobId : String) (clock : Clock) :
    Continues invocations (cancelProcess jobId clock fates registry workers closers) := by
  refine JobProcess.enter_cases (requestCancel_spec htracks) ?_ ?_ ?_
  · rintro _ after ⟨log', hafter⟩
    exact ⟨log', h.moved hafter.moved, hafter.tracks nofun, hworkers.undecided htracks
      (hafter.mono fun _ hkind => hkind.undecided (by simp) (by simp)) nofun⟩
  · rintro error after ⟨log', hafter⟩
    exact ⟨log', h.moved hafter.moved, hafter.tracks nofun, hworkers.undecided htracks
      (hafter.mono fun _ hkind => hkind.undecided (by simp) (by simp)) nofun⟩
  · rintro after ⟨log', hafter⟩
    exact continues_closed h hafter.moved

theorem closeProcess_continues (h : RegistryRecorded registry.journal.file invocations log)
    (htracks : Tracks registry log) (hworkers : WorkersHold workers registry log invocations)
    (ticks : Nat → Clock) :
    Continues invocations (closeProcess index ticks fates closer registry workers closers) := by
  refine JobProcess.enter_cases (Closer.step_spec htracks) ?_ ?_ ?_
  · rintro _ after ⟨jobId, log', hafter⟩
    exact ⟨log', h.moved hafter.moved, hafter.tracks nofun, hworkers.undecided htracks hafter nofun⟩
  · rintro error after ⟨jobId, log', hafter⟩
    exact ⟨log', h.moved hafter.moved, hafter.tracks nofun, hworkers.undecided htracks hafter nofun⟩
  · rintro after ⟨jobId, log', hafter⟩
    exact continues_closed h hafter.moved

theorem workProcess_continues (h : RegistryRecorded registry.journal.file invocations log)
    (htracks : Tracks registry log) (hworkers : WorkersHold workers registry log invocations)
    (hworker : workers[index]? = some worker) :
    Continues (invocations ++ worker.invokes registry.journal.file)
      (workProcess index turn worker registry workers closers) := by
  have hmem := List.mem_of_getElem? hworker
  have hphase := hworkers.phases worker hmem
  have hcalled := h.invokes hphase
  refine JobProcess.enter_cases
    (WorkerPhase.step_spec registry.journal.file htracks hphase (hworkers.released hmem)) ?_ ?_ ?_
  · rintro phase after ⟨log', hafter, hholds, howns⟩
    exact ⟨log', hcalled.moved hafter.moved, hafter.tracks nofun,
      hworkers.step hworker hafter hholds howns fun _ => invokes_jobId⟩
  · rintro error after ⟨log', hafter, hreleased⟩
    exact ⟨log', hcalled.moved hafter.moved, hafter.tracks nofun,
      hworkers.step hworker hafter trivial (.inr hreleased) fun _ => invokes_jobId⟩
  · rintro after ⟨log', hafter, -⟩
    exact continues_closed hcalled hafter.moved

-- Every event keeps the journal, the calls of the commit closures and the workers together.
theorem JobsHold.apply (hdecode : RuntimeJobReadsBack fromSlice) (h : JobsHold world log) :
    ∃ log', JobsHold (world.apply fromSlice event) log' := by
  obtain ⟨process, invocations⟩ := world
  obtain ⟨hrecorded, hlive⟩ := h
  have hsame : ∃ log', JobsHold ⟨process, invocations⟩ log' := ⟨log, hrecorded, hlive⟩
  cases process with
  | Closed file =>
      cases event with
      | Open maxInFlight ticks fates => exact (openFile_reopened hdecode hrecorded _ _).1
      | _ => exact hsame
  | Open registry workers closers =>
      obtain ⟨htracks, hworkers⟩ := hlive
      have hclosed : ∀ closers, ∃ log',
          JobsHold ⟨.Open registry.close workers closers, invocations⟩ log' :=
        fun _ => ⟨log, hrecorded, htracks.close, hworkers.close⟩
      cases event with
      | Open maxInFlight ticks fates => exact hsame
      | Submit request clock fates => exact submitProcess_continues hrecorded htracks hworkers _ _
      | RequestCancel jobId clock fates =>
          exact cancelProcess_continues hrecorded htracks hworkers _ _
      | CloseAdmission => exact hclosed _
      | Shutdown => exact hclosed _
      | Drop => exact hclosed _
      | Work index turn =>
          unfold JobWorld.apply
          dsimp only
          split
          · exact hsame
          · rename_i worker hworker
            exact workProcess_continues hrecorded htracks hworkers hworker
      | Close index ticks fates =>
          unfold JobWorld.apply
          dsimp only
          split
          · exact hsame
          · exact closeProcess_continues hrecorded htracks hworkers _
      | Crash => exact ⟨log, hrecorded, trivial⟩

theorem jobRun_holds (hdecode : RuntimeJobReadsBack fromSlice) (events : List (JobEvent ν)) :
    ∃ log, JobsHold (jobRun fromSlice events) log := by
  refine Library.Runs.foldl_invariant (fun _ world => ∃ log, JobsHold world log) ?_ ?_ events
  · exact ⟨[], RegistryRecorded.empty, trivial⟩
  · rintro _ event world ⟨log, hholds⟩
    exact hholds.apply hdecode

end Apply

end M1nd.Mcp
