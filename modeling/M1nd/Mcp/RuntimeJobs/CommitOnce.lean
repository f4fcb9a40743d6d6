import M1nd.Mcp.RuntimeJobs.Runs

namespace M1nd.Mcp

open M1nd.Control
open M1nd.Library.Checks
open M1nd.Library.Durable
open M1nd.Library.Json (Bytes)

variable [Sha256] {fromSlice : RuntimeJobDecoder} {ν : Type} {registry : RegistryState}
  {log : List RuntimeJobJournalRecordV1} {jobId : String} {job current next : RuntimeJobV1}
  {world : JobWorld ν} {worker : Worker ν} {workers : List (Worker ν)} {closers : List Closer}
  {turn : Turn ν} {index : Nat} {outcome : CommitOutcome} {now : Nat}

-- The journal `file` tells these snapshots of a job, in this order.
def toldOf (fromSlice : RuntimeJobDecoder) (jobId : String) (file : Bytes) : List RuntimeJobV1 :=
  snapshotsOf jobId (durableJobs fromSlice file)

-- The commit closure of a job, its journal, and what cancellation can still do.
structure JobCommitsOnce (fromSlice : RuntimeJobDecoder) (world : JobWorld ν) : Prop where
  once : ∀ jobId, (world.invocations.filter fun invocation => invocation.jobId = jobId).length ≤ 1
  before : ∀ invocation ∈ world.invocations, invocation.file <+: world.process.file
  reserved : ∀ invocation ∈ world.invocations,
    ∃ job ∈ toldOf fromSlice invocation.jobId invocation.file, job.commitInProgress = true
  uncancelled : ∀ invocation ∈ world.invocations,
    ∀ job ∈ toldOf fromSlice invocation.jobId invocation.file,
      job.state ≠ .Cancelling ∧ job.state ≠ .Cancelled
  cancelled : ∀ jobId, ∀ job ∈ toldOf fromSlice jobId world.process.file,
    job.state = .Cancelled → Uninvoked jobId world.invocations
  settled : ∀ jobId, (toldOf fromSlice jobId world.process.file).Pairwise fun earlier later =>
    earlier.commitInProgress = true → later.state = .Succeeded ∨ later.state = .Failed
  terminal : ∀ jobId, (toldOf fromSlice jobId world.process.file).Pairwise fun earlier later =>
    earlier.state.isTerminal = true → later.state = earlier.state
  known : ∀ registry workers closers, world.process = .Open registry workers closers →
    registry.poisoned = false → ∀ jobId,
      registry.job? jobId = (toldOf fromSlice jobId world.process.file).getLast?
  refused : ∀ registry workers closers, world.process = .Open registry workers closers →
    ∀ jobId job, registry.job? jobId = some job → job.commitInProgress = true →
    ∀ reason runningAfterTimeout clock,
      Always (requestCancel jobId reason runningAfterTimeout clock) registry fun o after =>
        o = .refused (.CancellationTooLate jobId) ∧ after = registry
  ends : ∀ registry workers closers, world.process = .Open registry workers closers →
    registry.poisoned = false → ∀ jobId job, registry.job? jobId = some job →
    job.commitInProgress = true → ∃ index, ∀ turn turn' : Turn ν, turn.fates = [] →
      turn'.fates = [] → ∃ registry' workers' ended,
        ((world.apply fromSlice (.Work index turn)).apply fromSlice (.Work index turn')).process =
          .Open registry' workers' closers ∧ registry'.job? jobId = some ended ∧
        (ended.state = .Succeeded ∨ ended.state = .Failed)
  reopened : ∀ file, world.process = .Closed file → ∀ maxInFlight ticks fates registry workers
    closers, (world.apply fromSlice (.Open maxInFlight ticks fates)).process =
      .Open registry workers closers →
    ∀ jobId job, registry.job? jobId = some job → job.state.isTerminal = true

-- The end of a reserved commit, without a fault.

theorem appendThenReplace_ends (hfree : registry.poisoned = false) (next : RuntimeJobV1) :
    ∃ after, Ends (appendThenReplace next) [] registry (.returned ()) [] after ∧
      ∀ jobId, after.job? jobId = (registry.replaceJob next).job? jobId := by
  have hcheck : rejectIf (registry.poisoned = true) RuntimeJobError.RegistryPoisoned = .ok () := by
    rw [rejectIf_eq_ok, hfree]
    simp
  refine ⟨_, .bind .get (.bind (.check hcheck)
    (.bind (.bind .get (.bind (.orElse .step) .modify)) .modify)), fun _ => rfl⟩

omit [Sha256] in
theorem findJob_ends (hjob : registry.job? jobId = some job) :
    Ends (findJob jobId) [] registry (.returned job) [] registry := by
  obtain ⟨entry, hentry, rfl⟩ := Option.map_eq_some_iff.mp hjob
  refine .bind .get ?_
  rw [hentry]
  exact .pure

theorem finishCommit_ends (hfree : registry.poisoned = false) (hjob : registry.job? jobId = some job)
    (hid : job.jobId = jobId) (hrunning : job.state = .Running)
    (hcommit : job.commitInProgress = true) :
    ∃ after, Ends (finishCommit jobId outcome now) [] registry (.returned ()) [] after ∧
      after.job? jobId = some (job.committed outcome now) := by
  obtain ⟨after, hends, hafter⟩ := appendThenReplace_ends hfree (job.committed outcome now)
  refine ⟨after, .bind (findJob_ends hjob) ?_, ?_⟩
  · rw [if_pos ⟨hrunning, hcommit⟩]
    exact hends
  · rw [hafter, replaceJob_job, if_pos (show (job.committed outcome now).jobId = jobId from hid), hjob]
    rfl

theorem apply_committed {invocations : List Invocation} (hfree : registry.poisoned = false)
    (hjob : registry.job? jobId = some job) (hid : job.jobId = jobId)
    (hrunning : job.state = .Running) (hcommit : job.commitInProgress = true)
    (hworker : workers[index]? = some ⟨jobId, .Committed now outcome⟩) (hturn : turn.fates = []) :
    ∃ registry' workers' ended,
      ((⟨.Open registry workers closers, invocations⟩ : JobWorld ν).apply fromSlice
        (.Work index turn)).process = .Open registry' workers' closers ∧
      workers'[index]? = some ⟨jobId, .Ended⟩ ∧ registry'.job? jobId = some ended ∧
      (ended.state = .Succeeded ∨ ended.state = .Failed) := by
  have hbound : index < workers.length := (List.getElem?_eq_some_iff.mp hworker).1
  obtain ⟨after, hends, hafter⟩ := @finishCommit_ends _ _ _ _ outcome
    (nowUnixMsOr now (turn.ticks 0)) hfree hjob hid hrunning hcommit
  have hstep : Ends (WorkerPhase.step jobId turn (.Committed now outcome)) turn.fates registry
      (.returned .Ended) [] after := by
    rw [hturn]
    exact .bind hends .pure
  refine ⟨after, workers.set index ⟨jobId, .Ended⟩, _, ?_, ?_, hafter, outcome.state_eq⟩
  · simp only [JobWorld.apply, hworker, workProcess, JobProcess.enter]
    rw [hstep]
  · rw [List.getElem?_set, if_pos rfl, if_pos hbound]

theorem apply_reserved {invocations : List Invocation} {value : ν}
    (hworker : workers[index]? = some ⟨jobId, .Reserved value now⟩) :
    (⟨.Open registry workers closers, invocations⟩ : JobWorld ν).apply fromSlice
        (.Work index turn) =
      ⟨.Open registry (workers.set index ⟨jobId, .Committed now turn.outcome⟩) closers,
        invocations ++ [⟨jobId, registry.journal.file⟩]⟩ := by
  simp only [JobWorld.apply, hworker]
  rfl

theorem apply_ended (hopen : world.process = .Open registry workers closers)
    (hworker : workers[index]? = some ⟨jobId, .Ended⟩) :
    (world.apply fromSlice (.Work index turn)).process =
      .Open registry (workers.set index ⟨jobId, .Ended⟩) closers := by
  simp only [JobWorld.apply, hopen, hworker]
  rfl

theorem JobsHold.ends (h : JobsHold world log) (hopen : world.process = .Open registry workers closers)
    (hfree : registry.poisoned = false) (hjob : registry.job? jobId = some job)
    (hcommit : job.commitInProgress = true) :
    ∃ index, ∀ turn turn' : Turn ν, turn.fates = [] → turn'.fates = [] →
      ∃ registry' workers' ended,
        ((world.apply fromSlice (.Work index turn)).apply fromSlice (.Work index turn')).process =
          .Open registry' workers' closers ∧ registry'.job? jobId = some ended ∧
        (ended.state = .Succeeded ∨ ended.state = .Failed) := by
  obtain ⟨process, invocations⟩ := world
  obtain rfl : process = .Open registry workers closers := hopen
  obtain ⟨htracks, hworkers⟩ := h.live
  obtain ⟨-, -, hid, hsound⟩ := htracks.known hfree hjob
  obtain ⟨⟨workerId, phase⟩, hworker, rfl, howns⟩ := hworkers.owned hfree jobId job hjob hcommit
  obtain ⟨index, hindex⟩ := List.mem_iff_getElem?.mp hworker
  have hbound : index < workers.length := (List.getElem?_eq_some_iff.mp hindex).1
  refine ⟨index, fun turn turn' hturn hturn' => ?_⟩
  cases phase with
  | Reserved value now =>
      obtain ⟨called, hcalled⟩ : ∃ called, (⟨.Open registry workers closers, invocations⟩ :
          JobWorld ν).apply fromSlice (.Work index turn) = ⟨.Open registry
            (workers.set index ⟨workerId, .Committed now turn.outcome⟩) closers, called⟩ :=
        ⟨_, apply_reserved hindex⟩
      have hset : (workers.set index ⟨workerId, .Committed now turn.outcome⟩)[index]? =
          some ⟨workerId, .Committed now turn.outcome⟩ := by
        rw [List.getElem?_set, if_pos rfl, if_pos hbound]
      obtain ⟨registry', workers', ended, hprocess, -, hended⟩ :=
        apply_committed hfree hjob hid (hsound hcommit) hcommit hset hturn'
      rw [hcalled]
      exact ⟨registry', workers', ended, hprocess, hended⟩
  | Committed now outcome =>
      obtain ⟨registry', workers', ended, hprocess, hlast, hended⟩ :=
        apply_committed hfree hjob hid (hsound hcommit) hcommit hindex hturn
      refine ⟨registry', workers'.set index ⟨workerId, .Ended⟩, ended, ?_, hended⟩
      exact apply_ended hprocess hlast
  | _ => exact absurd howns id

theorem JobsHold.commitsOnce (hdecode : RuntimeJobReadsBack fromSlice) (h : JobsHold world log) :
    JobCommitsOnce fromSlice world := by
  obtain ⟨hrecorded, hlive⟩ := h
  obtain ⟨tail, hfiled⟩ := hrecorded.filed
  have htold : ∀ jobId, toldOf fromSlice jobId world.process.file = history jobId log := by
    intro jobId
    rw [toldOf, hfiled.durableJobs hdecode]
  have hinvoked : ∀ invocation ∈ world.invocations, ∃ before,
      toldOf fromSlice invocation.jobId invocation.file = history invocation.jobId before ∧
      before <+: log ∧ ∃ job ∈ history invocation.jobId before, job.commitInProgress = true := by
    intro invocation hinvocation
    obtain ⟨-, before, tail, hbefore, hprefix, hjob⟩ := hrecorded.invoked invocation hinvocation
    exact ⟨before, by rw [toldOf, hbefore.durableJobs hdecode], hprefix, hjob⟩
  refine ⟨?_, ?_, ?_, ?_, ?_, ?_, ?_, ?_, ?_, ?_, ?_⟩
  · intro jobId
    have hcount := List.nodup_iff_count_le_one.mp hrecorded.once jobId
    rw [List.count_eq_countP, List.countP_map] at hcount
    rw [← List.countP_eq_length_filter]
    refine Nat.le_trans (Nat.le_of_eq ?_) hcount
    exact List.countP_congr fun invocation _ => by simp
  · exact fun invocation hinvocation => (hrecorded.invoked invocation hinvocation).file
  · intro invocation hinvocation
    obtain ⟨before, hsame, -, hjob⟩ := hinvoked invocation hinvocation
    rw [hsame]
    exact hjob
  · intro invocation hinvocation job hjob
    obtain ⟨before, hsame, ⟨rest, rfl⟩, reserved, hreserved, hcommit⟩ := hinvoked invocation hinvocation
    rw [hsame] at hjob
    exact hrecorded.orderly.of_append.reserved hreserved hcommit hjob
  · rintro _ job hjob hstate invocation hinvocation rfl
    obtain ⟨before, -, ⟨rest, rfl⟩, reserved, hreserved, hcommit⟩ := hinvoked invocation hinvocation
    rw [htold] at hjob
    have hmem : reserved ∈ history invocation.jobId (before ++ rest) := by
      rw [history_append]
      exact List.mem_append_left _ hreserved
    exact (hrecorded.orderly.reserved hmem hcommit hjob).2 hstate
  · intro jobId
    rw [htold]
    exact (hrecorded.orderly.pairwise jobId).imp fun hahead hcommit => (hahead.reserved hcommit).1
  · intro jobId
    rw [htold]
    refine (hrecorded.orderly.pairwise jobId).imp fun {earlier later} hahead hterminal => ?_
    cases hstate : earlier.state with
    | Succeeded => exact absurd hstate hahead.last.1
    | Failed => exact absurd hstate hahead.last.2
    | Cancelled => exact (hahead.cancelled hstate).1
    | _ => rw [hstate] at hterminal; cases hterminal
  · intro registry workers closers hopen hfree jobId
    rw [hopen] at hlive
    rw [htold]
    exact (hlive.1.inStep hfree).jobs jobId
  · intro registry workers closers hopen jobId job hjob hcommit reason flag clock
    rw [hopen] at hlive
    obtain ⟨htracks, -⟩ := hlive
    obtain ⟨⟨record, hrecord, rfl⟩, -⟩ := mem_history.mp (htracks.durably jobId job hjob)
    exact requestCancel_refused hjob (htracks.orderly.sound record hrecord hcommit) hcommit
  · intro registry workers closers hopen hfree jobId job hjob hcommit
    exact JobsHold.ends ⟨hrecorded, hlive⟩ hopen hfree hjob hcommit
  · intro file hclosed maxInFlight ticks fates registry workers closers hopen
    obtain ⟨process, invocations⟩ := world
    obtain rfl : process = .Closed file := hclosed
    exact (openFile_reopened hdecode hrecorded maxInFlight ticks).2 registry workers closers hopen

-- A job commits at most once and never after it was cancelled, whatever its threads, the
-- journal and the process come to.
theorem jobRun_commits_once (hdecode : RuntimeJobReadsBack fromSlice) (events : List (JobEvent ν)) :
    JobCommitsOnce fromSlice (jobRun fromSlice events) := by
  obtain ⟨log, hholds⟩ := jobRun_holds hdecode events
  exact hholds.commitsOnce hdecode

-- A job that is submitted, prepared and committed while it is asked to stop.

def jobTurn : Turn Unit where
  ticks _ := .ok 5
  spawnError := none
  receipt := .Sent (.ok ())
  joined := true
  outcome := .Succeeded ⟨"ok", "published", none⟩
  fates := []

def jobRequest : RuntimeJobRequestV1 where
  jobId := "job"
  idempotencyKey := "key"
  binding := {
    schema := RUNTIME_JOB_BINDING_SCHEMA
    organismId := "organism"
    brainId := "brain"
    missionId := "mission"
    agentId := "agent"
    action := "graph.ingest"
    ingress := .BackgroundJob
    effects := (∅ : BTreeSet Effect).insert .GraphMutation
    authority := {
      schema := RUNTIME_JOB_AUTHORITY_SCHEMA
      decisionId := "decision"
      authorityVariant := .Policy
      authorityEpoch := 7
      autonomyEpoch := 3
      capabilityId := some "capability"
      authorizationDigest := "digest" } }
  snapshotRevision := 11
  deadlineUnixMs := 100

def jobEvents : List (JobEvent Unit) :=
  [.Open 1 (fun _ _ => .ok 0) [], .Submit jobRequest (.ok 1) []] ++
    List.replicate 5 (.Work 0 jobTurn) ++
    [.RequestCancel "job" (.ok 6) [], .Work 0 jobTurn, .RequestCancel "job" (.ok 7) [],
      .Work 0 jobTurn]

omit [Sha256] in
theorem jobRun_commits_job :
    letI := standardSha256
    let fromSlice := Function.partialInv RuntimeJobJournalRecordV1.toVec
    (jobRun fromSlice jobEvents).invocations.map Invocation.jobId = ["job"] ∧
      JobCommitsOnce fromSlice (jobRun fromSlice jobEvents) := by
  let _ := standardSha256
  exact ⟨by decide +kernel, jobRun_commits_once partialInv_runtimeJobReadsBack jobEvents⟩

end M1nd.Mcp
