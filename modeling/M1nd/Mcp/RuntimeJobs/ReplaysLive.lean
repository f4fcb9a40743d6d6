import M1nd.Mcp.RuntimeJobs.NoOrphans
import M1nd.Mcp.RuntimeJobs.Reopening

namespace M1nd.Mcp

open M1nd.Control
open M1nd.Library
open M1nd.Library.Checks
open M1nd.Library.Durable
open M1nd.Library.Json (Bytes)
open ChainedJournal (lineEnd)

section Conditions

variable {ν : Type}

-- The step writes no snapshot that replay would refuse: a job that is over is not ended again
-- after its deadline, and the code of a failed preparation or of a commit is one that the check
-- of replayed jobs accepts.
def WorkerPhase.Replayable (jobId : String) (registry : RegistryState) (turn : Turn ν) :
    WorkerPhase ν → Prop
  | .Received (some prepared) => turn.joined = true → ∀ job, registry.job? jobId = some job →
      (job.state.isTerminal = true → nowUnixMsOrMax (turn.ticks 0) < job.deadlineUnixMs) ∧
      ∀ failure, prepared = .error failure → job.state = .Running →
        nowUnixMsOrMax (turn.ticks 0) < job.deadlineUnixMs → ValidCode failure.code
  | .Committed _ outcome => ValidCode (outcome.result 0).code
  | _ => True

def JobEvent.Replayable (process : JobProcess ν) (event : JobEvent ν) : Prop :=
  event.Meets (fun worker registry turn => worker.phase.Replayable worker.jobId registry turn) process

-- The journal of a process tells what the process knows of the jobs, or knew of them.
def JobProcess.Rebuilt [Sha256] (fromSlice : RuntimeJobDecoder) : JobProcess ν → Prop
  | .Closed file => Kept fromSlice file
  | .Open registry _ _ => Mcp.Rebuilt fromSlice registry

end Conditions

section Steps

variable [Sha256] {fromSlice : RuntimeJobDecoder} {ν α : Type} {registry after : RegistryState}
  {R : RuntimeJobV1 → RuntimeJobV1 → Prop} {jobId : String} {current next : RuntimeJobV1}
  {log : List RuntimeJobJournalRecordV1} {invocations : List Invocation} {workers : List (Worker ν)}
  {worker : Worker ν} {closers : List Closer} {closer : Closer} {index : Nat} {turn : Turn ν}
  {phase : WorkerPhase ν} {fates : List Fate} {world : JobWorld ν} {event : JobEvent ν}
  {o : Outcome RuntimeJobError α} {outcome : CommitOutcome}

omit [Sha256] in
theorem CloserNext.recordable (hshaped : current.Shaped) (h : CloserNext current next) :
    Recordable current next := by
  obtain h | ⟨finishedAt, h⟩ := h
  · exact h.recordable hshaped
  · refine h.recordable hshaped ?_
    rintro _ ⟨⟩
    exact resultOf_shaped (by decide)

omit [Sha256] in
theorem result_code (finishedAt : Nat) (outcome : CommitOutcome) :
    (outcome.result finishedAt).code = (outcome.result 0).code := by
  cases outcome <;> rfl

-- What a worker appends in each of its phases.
omit [Sha256] in
theorem WorkerPhase.Next.recordable (hsafe : registry.poisoned = false)
    (hshaped : ∀ job, registry.job? jobId = some job → job.Shaped)
    (hstarted : phase.Started → Unstarted jobId registry)
    (hreleased : ¬phase.Owns → Released registry jobId)
    (hreplayable : phase.Replayable jobId registry turn)
    (hcurrent : current.Shaped) (h : phase.Next jobId registry turn current next) :
    Recordable current next := by
  have hfailed : ∀ result : RuntimeJobTerminalResultV1, result.Shaped →
      TransitionNext .Failed (some result) current next → Recordable current next := by
    intro result hresult hnext
    refine hnext.recordable hcurrent ?_
    rintro _ ⟨⟩
    exact hresult
  cases phase with
  | Registered =>
      refine TransitionNext.recordable hcurrent ?_ h
      nofun
  | SpawnFailed error => exact hfailed _ (resultOf_shaped (by decide)) h
  | Supervising =>
      obtain ⟨error, -, h⟩ := h
      exact hfailed _ (resultOf_shaped (by decide)) h
  | Preparing => exact CancelNext.recordable hcurrent h
  | Received prepared =>
      cases prepared with
      | none => exact absurd h id
      | some prepared =>
          obtain ⟨hjoined, first, hfirst, h⟩ := h
          obtain ⟨hintime, hcode⟩ := hreplayable hjoined first hfirst
          exact h.recordable (hshaped first hfirst) hcurrent (hreleased id hsafe first hfirst)
            (hstarted trivial first hfirst) hintime hcode
  | Panicked job => exact hfailed _ (resultOf_shaped (by decide)) h
  | Committed now outcome =>
      refine CommitNext.recordable hcurrent ?_ h
      rw [result_code]
      exact hreplayable
  | Starting | Overdue | Reserved _ _ | Ended => exact absurd h id

-- A poisoned handle appends nothing.
theorem LeadsTo.rebuilt_poisoned (hdecode : RuntimeJobReadsBack fromSlice)
    (h : LeadsTo R jobId registry o after) (hpoisoned : registry.poisoned = true)
    (hrebuilt : Rebuilt fromSlice registry) :
    (o ≠ .crashed → Rebuilt fromSlice after) ∧ Kept fromSlice after.journal.file := by
  have hidle : ∀ {last}, Leads R jobId registry last → Leads (fun _ _ => False) jobId registry last := by
    intro last hleads
    induction hleads with
    | refl => exact .refl
    | token _ ih => exact ih.token
    | append hbefore hsafe | fail hbefore hsafe =>
        rw [hbefore.poisoned hpoisoned] at hsafe
        cases hsafe
  cases o with
  | returned | refused =>
      have hafter := (hidle h).rebuilt hdecode hrebuilt fun _ _ _ hnext => hnext.elim
      exact ⟨fun _ => hafter, hafter.kept⟩
  | crashed =>
      obtain ⟨last, -, -, -, hleads, hsafe, -⟩ := h
      rw [hleads.poisoned hpoisoned] at hsafe
      cases hsafe

theorem workProcess_rebuilt (hdecode : RuntimeJobReadsBack fromSlice) (htracks : Tracks registry log)
    (hworkers : WorkersHold workers registry log invocations) (hsteady : Steady workers registry)
    (hworker : workers[index]? = some worker) (h : Rebuilt fromSlice registry)
    (hreplayable : registry.poisoned = false → worker.phase.Replayable worker.jobId registry turn) :
    (workProcess index turn worker registry workers closers).Rebuilt fromSlice := by
  have hmem := List.mem_of_getElem? hworker
  have hleads : Always (worker.phase.step worker.jobId turn) registry fun o after =>
      LeadsTo (worker.phase.Next worker.jobId registry turn) worker.jobId registry o after := by
    by_cases hlive : worker.phase = .Ended
    · rw [hlive]
      exact .pure .refl
    · exact (WorkerPhase.step_leads htracks.keyed (hsteady.started worker hmem)
        (hsteady.owned worker hmem) hlive).mono fun _ _ hstep => hstep.1
  have hstep : Always (worker.phase.step worker.jobId turn) registry fun o after =>
      (o ≠ .crashed → Rebuilt fromSlice after) ∧ Kept fromSlice after.journal.file := by
    refine hleads.mono fun o after hled => ?_
    cases hsafe : registry.poisoned with
    | true => exact hled.rebuilt_poisoned hdecode hsafe h
    | false =>
        refine hled.rebuilt hdecode h fun current next hcurrent hnext => ?_
        exact hnext.recordable hsafe (fun _ => h.shaped) (hsteady.started worker hmem)
          (hworkers.released hmem) (hreplayable hsafe) hcurrent
  refine JobProcess.enter_cases hstep ?_ ?_ ?_
  · exact fun _ _ hafter => hafter.1 nofun
  · exact fun _ _ hafter => hafter.1 nofun
  · exact fun _ hafter => hafter.2

theorem submitProcess_rebuilt (hdecode : RuntimeJobReadsBack fromSlice) (h : Rebuilt fromSlice registry)
    (request : RuntimeJobRequestV1) (clock : Clock) :
    (submitProcess request clock fates registry workers closers).Rebuilt fromSlice := by
  have hspec : Always (do
      Program.check (validateJobRequest request)
      registerPending request clock) registry fun o after =>
        (o ≠ .crashed → Rebuilt fromSlice after) ∧ Kept fromSlice after.journal.file := by
    refine .bind (.check (fun _ hvalid => ?_) fun _ _ => ⟨fun _ => h, h.kept⟩)
    refine registerPending_registers.mono ?_
    obtain ⟨log, replay, tail, hrebuilds⟩ := id h
    rintro (_ | error | _) after hregisters
    · obtain ⟨hsafe, hnew, hkey, now, rfl⟩ := hregisters.returned rfl
      have hafter := hrebuilds.registered hdecode hsafe
        (hrebuilds.matched.admits_pending now hvalid hnew hkey)
      exact ⟨fun _ => hafter, hafter.kept⟩
    · obtain rfl | ⟨hsafe, hnew, hkey, now, reached, rfl⟩ := hregisters.refused error rfl
      · exact ⟨fun _ => h, h.kept⟩
      · have hafter := (hrebuilds.torn hdecode hsafe
          (hrebuilds.matched.admits_pending now hvalid hnew hkey) reached).1
        exact ⟨fun _ => hafter, hafter.kept⟩
    · obtain ⟨hsafe, hnew, hkey, now, reached, rfl⟩ := hregisters.crashed rfl
      exact ⟨fun ho => absurd rfl ho, (hrebuilds.torn hdecode hsafe
        (hrebuilds.matched.admits_pending now hvalid hnew hkey) reached).2⟩
  refine JobProcess.enter_cases hspec ?_ ?_ ?_
  · exact fun _ _ hafter => hafter.1 nofun
  · exact fun _ _ hafter => hafter.1 nofun
  · exact fun _ hafter => hafter.2

theorem openFile_rebuilt (hdecode : RuntimeJobReadsBack fromSlice) {file : Bytes}
    (h : Kept fromSlice file) (maxInFlight : Nat) (ticks : String → Nat → Clock) :
    (JobProcess.openFile fromSlice maxInFlight ticks fates file : JobProcess ν).Rebuilt fromSlice := by
  unfold JobProcess.openFile
  split
  · exact h
  · rename_i registry hopen
    obtain ⟨hrebuilt, -⟩ := openRegistry_rebuilt hdecode h hopen
    refine JobProcess.enter_cases (failClosedInterruptedJobs_restarts hdecode hrebuilt) ?_ ?_ ?_
    · exact fun _ _ hafter => hafter.rebuilt nofun
    · exact fun _ _ hafter => hafter.kept
    · exact fun _ hafter => hafter.kept

-- The other threads append only what replay accepts.
theorem enter_rebuilt {program : JobProgram α} {returned : α → List Closer} {refused : List Closer}
    (hdecode : RuntimeJobReadsBack fromSlice) (h : Rebuilt fromSlice registry)
    (hleads : Always program registry fun o after => LeadsTo R jobId registry o after)
    (hR : ∀ current next, current.Shaped → R current next → Recordable current next) :
    (JobProcess.enter program fates registry (fun value after => .Open after workers (returned value))
      fun after => .Open after workers refused).Rebuilt fromSlice := by
  refine JobProcess.enter_cases (hleads.mono fun o after hled => hled.rebuilt hdecode h hR) ?_ ?_ ?_
  · exact fun _ _ hafter => hafter.1 nofun
  · exact fun _ _ hafter => hafter.1 nofun
  · exact fun _ hafter => hafter.2

theorem JobsHold.rebuilt (hdecode : RuntimeJobReadsBack fromSlice) (h : JobsHold world log)
    (hsteady : world.process.Steady) (hrebuilt : world.process.Rebuilt fromSlice)
    (hreplayable : event.Replayable world.process) :
    (world.apply fromSlice event).process.Rebuilt fromSlice := by
  obtain ⟨process, invocations⟩ := world
  obtain ⟨-, hlive⟩ := h
  cases process with
  | Closed file =>
      cases event with
      | Open maxInFlight ticks fates => exact openFile_rebuilt hdecode hrebuilt maxInFlight ticks
      | _ => exact hrebuilt
  | Open registry workers closers =>
      obtain ⟨htracks, hworkers⟩ := hlive
      have hclosed : Rebuilt fromSlice registry.close := Mcp.Rebuilt.close hrebuilt
      have hkeyed : Keyed registry := htracks.keyed
      cases event with
      | Open maxInFlight ticks fates => exact hrebuilt
      | Submit request clock fates => exact submitProcess_rebuilt hdecode hrebuilt request clock
      | RequestCancel jobId clock fates =>
          exact enter_rebuilt hdecode hrebuilt (requestCancel_leads hkeyed) fun _ _ hshaped hnext =>
            hnext.recordable hshaped
      | CloseAdmission => exact hclosed
      | Shutdown => exact hclosed
      | Drop => exact hclosed
      | Work index turn =>
          cases hworker : workers[index]? with
          | none =>
              simp only [JobWorld.apply, hworker]
              exact hrebuilt
          | some worker =>
              simp only [JobWorld.apply, hworker]
              exact workProcess_rebuilt hdecode htracks hworkers hsteady hworker hrebuilt
                fun hsafe => hreplayable registry workers closers worker rfl hsafe hworker
      | Close index ticks fates =>
          cases hcloser : closers[index]? with
          | none =>
              simp only [JobWorld.apply, hcloser]
              exact hrebuilt
          | some closer =>
              simp only [JobWorld.apply, hcloser]
              exact enter_rebuilt hdecode hrebuilt (Closer.step_leads hkeyed) fun _ _ hshaped hnext =>
                hnext.recordable hshaped
      | Crash => exact Mcp.Rebuilt.kept hrebuilt

end Steps

section Run

variable [Sha256] {fromSlice : RuntimeJobDecoder} {ν : Type} {events more : List (JobEvent ν)}
  {registry : RegistryState} {file : Bytes} {replay : JobReplay} {jobId : String}

-- What a restart makes of one job of the journal.
def Restarted (before after : Option RuntimeJobV1) : Prop :=
  match before with
  | none => after = none
  | some job => ∃ next, after = some next ∧
      (job.state.isTerminal = true → next = job) ∧ (job.state.isTerminal = false → FailedClosed job next)

def RestartedIn (replay : JobReplay) (process : JobProcess ν) : Prop :=
  ∀ registry workers closers, process = .Open registry workers closers →
    ∀ jobId : String, Restarted replay.jobs[jobId]? (registry.job? jobId)

-- The journal of a process and what the process, or the next one, knows of the jobs. The part
-- `tail` was left by an append that failed; `whole` is the journal after the last completed one.
structure ReplaysLive (fromSlice : RuntimeJobDecoder) (world : JobWorld ν) : Prop where
  accepted : ∃ whole tail replay, world.process.file = whole ++ tail ∧ lineEnd ∉ tail ∧
    replayJobJournal fromSlice whole = .ok replay
  rebuilt : ∀ registry workers closers, world.process = .Open registry workers closers →
    ∃ whole tail replay, registry.journal.file = whole ++ tail ∧
      (registry.poisoned = false → tail = []) ∧ replayJobJournal fromSlice whole = .ok replay ∧
      (∀ jobId : String, replay.jobs[jobId]? = registry.job? jobId) ∧
      replay.expectedSequence = registry.journal.nextSequence ∧
      replay.previousDigest = registry.journal.lastDigest
  reopened : ∀ replay, replayJobJournal fromSlice world.process.file = .ok replay →
    ∀ maxInFlight ticks fates, RestartedIn replay
      (JobProcess.openFile fromSlice maxInFlight ticks fates world.process.file : JobProcess ν)
  opens : ∀ replay, replayJobJournal fromSlice world.process.file = .ok replay →
    ∀ maxInFlight ticks, maxInFlight ≠ 0 → (∀ jobId place, ∃ now, ticks jobId place = .ok now) →
      ∃ registry, (JobProcess.openFile fromSlice maxInFlight ticks [] world.process.file :
        JobProcess ν) = .Open registry [] []

-- A journal that replay accepts has no cut line.
theorem Kept.replayed (hdecode : RuntimeJobReadsBack fromSlice) (h : Kept fromSlice file)
    (hreplay : replayJobJournal fromSlice file = .ok replay) :
    ∃ log last, Filed file log [] ∧ Replayed fromSlice log last ∧ replay.jobs = last.jobs := by
  obtain ⟨log, last, tail, hfiled, hreplayed⟩ := h
  obtain ⟨rfl, -⟩ := replayJobJournal_jobs hdecode hfiled hreplay
  obtain ⟨offset, hjournal⟩ := hreplayed.journal hfiled
  obtain rfl := Except.ok.inj (hreplay.symm.trans hjournal)
  exact ⟨log, last, hfiled, hreplayed, rfl⟩

theorem openFile_restarted (hdecode : RuntimeJobReadsBack fromSlice) (h : Kept fromSlice file)
    (hreplay : replayJobJournal fromSlice file = .ok replay) {maxInFlight : Nat}
    {ticks : String → Nat → Clock} {fates : List Fate} :
    RestartedIn replay (JobProcess.openFile fromSlice maxInFlight ticks fates file : JobProcess ν) := by
  obtain ⟨log, last, hfiled, -, -⟩ := h.replayed hdecode hreplay
  unfold JobProcess.openFile
  split
  · exact fun _ _ _ hopen => absurd hopen (by simp)
  · rename_i opened hopened
    obtain ⟨hrebuilt, hsafe⟩ := openRegistry_rebuilt hdecode h hopened
    obtain ⟨-, -, -, hjobs⟩ := openRegistry_spec hdecode hfiled hopened
    have hread : ∀ jobId : String, replay.jobs[jobId]? = opened.job? jobId := fun jobId =>
      ((replayJobJournal_jobs hdecode hfiled hreplay).2 jobId).trans (hjobs jobId).symm
    refine JobProcess.enter_cases (failClosedInterruptedJobs_restarts hdecode hrebuilt) ?_
      (fun _ _ _ _ _ _ hopen => absurd hopen (by simp)) (fun _ _ _ _ _ hopen => absurd hopen (by simp))
    rintro _ after hafter _ _ _ ⟨⟩ jobId
    rw [hread]
    cases hjob : opened.job? jobId with
    | none =>
        have hmem : jobId ∉ opened.activeJobs := by
          rw [mem_activeJobs]
          rintro ⟨job, hsome, -⟩
          rw [hjob] at hsome
          cases hsome
        exact (hafter.others rfl jobId hmem).trans hjob
    | some job =>
        cases hterminal : job.state.isTerminal with
        | true =>
            have hmem : jobId ∉ opened.activeJobs := by
              rw [mem_activeJobs]
              rintro ⟨other, hsome, hactive⟩
              rw [← Option.some.inj (hjob.symm.trans hsome), hterminal] at hactive
              cases hactive
            refine ⟨job, (hafter.others rfl jobId hmem).trans hjob, fun _ => rfl, fun hactive => ?_⟩
            rw [hterminal] at hactive
            cases hactive
        | false =>
            obtain ⟨failed, hfailed, hclosed⟩ :=
              hafter.failed rfl jobId (mem_activeJobs.mpr ⟨job, hjob, hterminal⟩) job hjob
            refine ⟨failed, hfailed, fun hover => ?_, fun _ => hclosed⟩
            rw [hterminal] at hover
            cases hover

theorem openFile_opens (hdecode : RuntimeJobReadsBack fromSlice) (h : Kept fromSlice file)
    (hreplay : replayJobJournal fromSlice file = .ok replay) {maxInFlight : Nat}
    {ticks : String → Nat → Clock} (hlimit : maxInFlight ≠ 0)
    (hclock : ∀ jobId place, ∃ now, ticks jobId place = .ok now) :
    ∃ registry, (JobProcess.openFile fromSlice maxInFlight ticks [] file : JobProcess ν) =
      .Open registry [] [] := by
  obtain ⟨log, last, hfiled, hreplayed, -⟩ := h.replayed hdecode hreplay
  obtain ⟨registry, hopen⟩ := openRegistry_ok hreplayed hfiled hlimit
  obtain ⟨hrebuilt, hsafe⟩ := openRegistry_rebuilt hdecode h hopen
  obtain ⟨after, hends⟩ := failClosedAll_calm hdecode hrebuilt hsafe (activeJobs_nodup registry)
    (fun _ => mem_activeJobs.mp) hclock
  have hclosed : Ends (failClosedInterruptedJobs ticks) [] registry (.returned ()) [] after :=
    .bind .get (.orElse hends)
  refine ⟨after, ?_⟩
  unfold JobProcess.openFile
  rw [hopen]
  dsimp only
  unfold JobProcess.enter
  rw [hclosed]

abbrev ReplayableRun (fromSlice : RuntimeJobDecoder) (events : List (JobEvent ν)) : Prop :=
  StepsMeet JobEvent.Replayable fromSlice events

theorem jobRun_rebuilt (hdecode : RuntimeJobReadsBack fromSlice) (hrun : ReplayableRun fromSlice events) :
    (jobRun fromSlice events).process.Rebuilt fromSlice := by
  induction events using List.reverseRecOn with
  | nil => exact ⟨[], JobReplay.fresh, [], .nil, .nil⟩
  | append_singleton events event ih =>
      obtain ⟨log, hholds⟩ := jobRun_holds hdecode events
      have hreplayable := hrun events event [] rfl
      rw [jobRun_concat]
      exact hholds.rebuilt hdecode (jobRun_steady hdecode events) (ih hrun.of_append) hreplayable

-- The journal of the registry replays to the state of the registry, whatever its threads do.
theorem jobRun_replays_live (hdecode : RuntimeJobReadsBack fromSlice)
    (hrun : ReplayableRun fromSlice events) : ReplaysLive fromSlice (jobRun fromSlice events) := by
  have hprocess := jobRun_rebuilt hdecode hrun
  have hkept : Kept fromSlice (jobRun fromSlice events).process.file := by
    cases hopen : (jobRun fromSlice events).process with
    | Closed file =>
        rw [hopen] at hprocess
        exact hprocess
    | Open registry workers closers =>
        rw [hopen] at hprocess
        exact Rebuilt.kept hprocess
  refine ⟨?_, ?_, ?_, ?_⟩
  · obtain ⟨log, replay, tail, hfiled, hreplayed⟩ := hkept
    obtain ⟨offset, hjournal⟩ := hreplayed.journal ⟨(List.append_nil _).symm, List.not_mem_nil⟩
    exact ⟨_, tail, _, hfiled.bytes, hfiled.cut, hjournal⟩
  · intro registry workers closers hopen
    rw [hopen] at hprocess
    obtain ⟨log, replay, tail, hreplayed, hmatched, ⟨whole, hbytes, hfiled⟩, hcut, -⟩ := hprocess
    obtain ⟨offset, hjournal⟩ := hreplayed.journal hfiled
    exact ⟨whole, tail, _, hbytes, hcut, hjournal, hmatched.jobs, hmatched.sequence, hmatched.digest⟩
  · intro replay hreplay maxInFlight ticks fates
    exact openFile_restarted hdecode hkept hreplay
  · intro replay hreplay maxInFlight ticks hlimit hclock
    exact openFile_opens hdecode hkept hreplay hlimit hclock

instance decidableForallError {ε α : Type} (prepared : Except ε α) (p : ε → Prop) [DecidablePred p] :
    Decidable (∀ failure, prepared = .error failure → p failure) :=
  match prepared with
  | .error failure => decidable_of_iff (p failure) ⟨fun h _ hsame => Except.error.inj hsame ▸ h, fun h => h _ rfl⟩
  | .ok _ => isTrue nofun

instance (turn : Turn ν) : (phase : WorkerPhase ν) → Decidable (phase.Replayable jobId registry turn)
  | .Received (some prepared) =>
      inferInstanceAs (Decidable (turn.joined = true → ∀ job, registry.job? jobId = some job →
        (job.state.isTerminal = true → nowUnixMsOrMax (turn.ticks 0) < job.deadlineUnixMs) ∧
        ∀ failure, prepared = .error failure → job.state = .Running →
          nowUnixMsOrMax (turn.ticks 0) < job.deadlineUnixMs → ValidCode failure.code))
  | .Committed _ outcome => inferInstanceAs (Decidable (ValidCode (outcome.result 0).code))
  | .Registered | .Starting | .SpawnFailed _ | .Supervising | .Preparing | .Overdue | .Received none
  | .Panicked _ | .Reserved _ _ | .Ended => isTrue trivial

instance (process : JobProcess ν) (event : JobEvent ν) : Decidable (event.Replayable process) :=
  inferInstanceAs (Decidable (event.Meets (fun worker registry turn =>
    worker.phase.Replayable worker.jobId registry turn) process))

omit [Sha256] in
theorem jobRun_replays_job :
    letI := standardSha256
    let fromSlice := Function.partialInv RuntimeJobJournalRecordV1.toVec
    ReplayableRun fromSlice jobEvents ∧ ReplaysLive fromSlice (jobRun fromSlice jobEvents) := by
  let _ := standardSha256
  have hrun : ReplayableRun (Function.partialInv RuntimeJobJournalRecordV1.toVec) jobEvents := by
    decide +kernel
  exact ⟨hrun, jobRun_replays_live partialInv_runtimeJobReadsBack hrun⟩

-- A preparation that fails with an empty code. The registry records it as it is, and replay
-- refuses the record.
def uncodedEvents : List (JobEvent Unit) :=
  [.Open 1 (fun _ _ => .ok 0) [], .Submit jobRequest (.ok 1) []] ++
    List.replicate 5 (.Work 0 { jobTurn with receipt := .Sent (.error ⟨"", "no reason"⟩) })

omit [Sha256] in
theorem uncoded_failure_unreadable :
    letI := standardSha256
    let fromSlice := Function.partialInv RuntimeJobJournalRecordV1.toVec
    ∃ registry workers closers, (jobRun fromSlice uncodedEvents).process = .Open registry workers closers ∧
      registry.poisoned = false ∧
      ∀ replay, replayJobJournal fromSlice registry.journal.file ≠ .ok replay := by
  let _ := standardSha256
  have hleft : (match (jobRun (Function.partialInv RuntimeJobJournalRecordV1.toVec) uncodedEvents).process with
      | .Closed _ => false
      | .Open registry _ _ => decide (registry.poisoned = false ∧
          ((registry.job? "job").bind RuntimeJobV1.terminalResult).map
            RuntimeJobTerminalResultV1.code = some "")) = true := by
    decide +kernel
  obtain ⟨log, -, hlive⟩ := jobRun_holds partialInv_runtimeJobReadsBack uncodedEvents
  revert hleft
  split
  · nofun
  · rename_i registry workers closers hopen
    rw [decide_eq_true_eq]
    rintro ⟨hsafe, hcode⟩
    refine ⟨registry, workers, closers, hopen, hsafe, fun replay hreplay => ?_⟩
    rw [hopen] at hlive
    have hstep := hlive.1.inStep hsafe
    obtain ⟨result, hresult, hempty⟩ := Option.map_eq_some_iff.mp hcode
    obtain ⟨job, hjob, hterminal⟩ := Option.bind_eq_some_iff.mp hresult
    have hread : replay.jobs["job"]? = some job :=
      ((replayJobJournal_jobs partialInv_runtimeJobReadsBack hstep.filed hreplay).2 "job").trans
        ((hstep.jobs "job").symm.trans hjob)
    have hvalid := ((replayJobJournal_shaped hreplay hread).result result hterminal).code
    rw [hempty] at hvalid
    exact absurd hvalid (by decide)

end Run

end M1nd.Mcp
