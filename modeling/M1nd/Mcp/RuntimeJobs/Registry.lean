import M1nd.Mcp.ChainedJournal
import M1nd.Mcp.RuntimeJobs

namespace M1nd.Mcp

open M1nd.Control
open M1nd.Library.Checks
open M1nd.Library.Durable
open M1nd.Library.Json (Bytes)
open ChainedJournal (lineEnd)

-- What the decoder of serde_json answers on the bytes of one line.
abbrev RuntimeJobDecoder := Bytes → Option RuntimeJobJournalRecordV1

def RuntimeJobJournalRecordV1.toVec (record : RuntimeJobJournalRecordV1) : Bytes :=
  record.toValue.write

-- One reading of the system clock; it fails before the epoch.
abbrev Clock := Except String Nat

def nowUnixMs (clock : Clock) : Except RuntimeJobError Nat :=
  clock.mapError (.Refused "clock_before_epoch")

-- `now_unix_ms().unwrap_or(fallback)`.
def nowUnixMsOr (fallback : Nat) : Clock → Nat
  | .ok now => now
  | .error _ => fallback

def nowUnixMsOrMax : Clock → Nat :=
  nowUnixMsOr (2 ^ 64 - 1)

structure JournalWriter where
  file : Bytes
  nextSequence : Nat
  lastDigest : Option String

structure JobEntry where
  job : RuntimeJobV1
  cancellation : Bool

structure RegistryState where
  accepting : Bool
  poisoned : Bool
  maxInFlight : Nat
  jobs : BTreeMap JobEntry
  idempotency : BTreeMap String
  journal : JournalWriter

abbrev JobProgram := Program RegistryState RuntimeJobError

section Replay

structure JobReplay where
  jobs : BTreeMap RuntimeJobV1
  expectedSequence : Nat
  previousDigest : Option String
  offset : Nat

def JobReplay.fresh : JobReplay := ⟨∅, 0, none, 0⟩

variable [Sha256] (fromSlice : RuntimeJobDecoder)

def JobReplay.readLine (replay : JobReplay) (line : Bytes) : Except RuntimeJobError JobReplay :=
  if line = [] then .ok { replay with offset := saturatingSucc replay.offset }
  else do
    let record ← (fromSlice line).elim (.error (.Corruption replay.offset "invalid JSON record")) .ok
    rejectIf (record.schema ≠ RUNTIME_JOB_JOURNAL_RECORD_SCHEMA)
      (.Corruption replay.offset ("unsupported record schema '" ++ record.schema ++ "'"))
    rejectIf (record.sequence ≠ replay.expectedSequence)
      (.Corruption replay.offset ("sequence mismatch: expected " ++
        toString replay.expectedSequence ++ ", observed " ++ toString record.sequence))
    rejectIf (record.previousRecordDigest ≠ replay.previousDigest)
      (.Corruption replay.offset "previous-record digest mismatch")
    rejectIf (record.recordDigest ≠ record.computeDigest)
      (.Corruption replay.offset "record digest mismatch")
    validateJobShape record.job
    let jobs ← applyReplayedJob replay.jobs record.job replay.offset
    return {
      jobs
      expectedSequence := saturatingSucc replay.expectedSequence
      previousDigest := some record.recordDigest
      offset := min (replay.offset + (line.length + 1)) (2 ^ 64 - 1) }

def replayJobJournal (bytes : Bytes) : Except RuntimeJobError JobReplay :=
  if bytes = [] then .ok JobReplay.fresh
  else if bytes.getLast? ≠ some lineEnd then
    .error (.Corruption bytes.length "torn or unterminated journal tail; no record was guessed")
  else Library.Runs.replay (JobReplay.readLine fromSlice) JobReplay.fresh (bytes.splitOn lineEnd)

def indexIdempotency (idempotency : BTreeMap String) (entry : String × RuntimeJobV1) :
    Except RuntimeJobError (BTreeMap String) := do
  match idempotency[entry.2.idempotencyKey]? with
  | none => pure ()
  | some existing =>
      .error (.Corruption 0 ("idempotency key '" ++ entry.2.idempotencyKey ++
        "' belongs to both '" ++ existing ++ "' and '" ++ entry.1 ++ "'"))
  return idempotency.insert entry.2.idempotencyKey entry.1

-- `open_with_max_in_flight` up to the jobs it finds interrupted.
def openRegistry (maxInFlight : Nat) (file : Bytes) : Except RuntimeJobError RegistryState := do
  rejectIf (maxInFlight = 0)
    (.Refused "invalid_max_in_flight" "max_in_flight must be greater than zero")
  let replay ← replayJobJournal fromSlice file
  let idempotency ← replay.jobs.toList.foldlM indexIdempotency ∅
  return {
    accepting := true
    poisoned := false
    maxInFlight
    jobs := replay.jobs.map fun _ job => ⟨job, false⟩
    idempotency
    journal := ⟨file, replay.expectedSequence, replay.previousDigest⟩ }

end Replay

section Sections

variable [Sha256]

-- The bytes reach the file in order; a failed write or sync leaves some of them.
def writeFile (bytes : Bytes) : Library.Durable.Effect RegistryState where
  whole registry :=
    { registry with journal.file := registry.journal.file ++ bytes }
  part reached registry :=
    { registry with journal.file := registry.journal.file ++ bytes.take reached }

def RegistryState.nextRecord (registry : RegistryState) (job : RuntimeJobV1) :
    RuntimeJobJournalRecordV1 :=
  .new registry.journal.nextSequence registry.journal.lastDigest job

def RegistryState.advance (record : RuntimeJobJournalRecordV1) (registry : RegistryState) :
    RegistryState :=
  { registry with
    journal.nextSequence := saturatingSucc registry.journal.nextSequence
    journal.lastDigest := some record.recordDigest }

def RegistryState.poison (registry : RegistryState) : RegistryState :=
  { registry with poisoned := true }

-- `JournalWriter::append`, and the poison that every caller sets when it fails.
def appendJournal (job : RuntimeJobV1) : JobProgram Unit := do
  let registry ← Program.get
  let record := registry.nextRecord job
  (Program.step (writeFile (record.toVec ++ [lineEnd])) RuntimeJobError.Io).orElse fun error => do
    Program.modify RegistryState.poison
    Program.refuse error
  Program.modify (RegistryState.advance record)

def RegistryState.replaceJob (next : RuntimeJobV1) (registry : RegistryState) : RegistryState :=
  { registry with jobs := registry.jobs.modify next.jobId fun entry => { entry with job := next } }

def RegistryState.cancelToken (jobId : String) (registry : RegistryState) : RegistryState :=
  { registry with
    jobs := registry.jobs.modify jobId fun entry => { entry with cancellation := true } }

def appendThenReplace (next : RuntimeJobV1) : JobProgram Unit := do
  let registry ← Program.get
  Program.check (rejectIf registry.poisoned .RegistryPoisoned)
  appendJournal next
  Program.modify (RegistryState.replaceJob next)

def findJob (jobId : String) : JobProgram RuntimeJobV1 := do
  let registry ← Program.get
  match registry.jobs[jobId]? with
  | none => Program.refuse (.UnknownJob jobId)
  | some entry => pure entry.job

def observableJob (clock : Clock) (job : RuntimeJobV1) : RuntimeJobV1 :=
  if !job.state.isTerminal && job.deadlineUnixMs ≤ nowUnixMsOrMax clock then
    { job with runningAfterTimeout := true }
  else job

def snapshot (jobId : String) (clock : Clock) : JobProgram RuntimeJobV1 := do
  let job ← findJob jobId
  return observableJob clock job

def resultOf (code message : String) (finishedAtUnixMs : Nat) :
    RuntimeJobTerminalResultV1 where
  schema := RUNTIME_JOB_TERMINAL_RESULT_SCHEMA
  code := code
  message := message
  outputDigest := none
  finishedAtUnixMs := finishedAtUnixMs

-- What `transition` makes of a job.
def RuntimeJobV1.moved (current : RuntimeJobV1) (target : RuntimeJobState) (reason : String)
    (runningAfterTimeout : Bool) (result : Option RuntimeJobTerminalResultV1) (now : Nat) :
    RuntimeJobV1 :=
  { current with
    state := target
    revision := saturatingSucc current.revision
    updatedAtUnixMs := now
    runningAfterTimeout := current.runningAfterTimeout || runningAfterTimeout
    commitInProgress := current.commitInProgress && !target.isTerminal
    stateReason := some reason
    terminalResult := result }

def transition (jobId : String) (target : RuntimeJobState) (reason : String)
    (runningAfterTimeout : Bool) (result : Option RuntimeJobTerminalResultV1) (clock : Clock) :
    JobProgram Unit := do
  let current ← findJob jobId
  Program.check (rejectIf
    (current.commitInProgress ∧ (target = .Cancelling ∨ target = .Cancelled))
    (.CancellationTooLate jobId))
  Program.check (rejectIf (!validTransition current.state target)
    (.IllegalTransition jobId current.state target))
  Program.check (rejectIf (target.isTerminal ≠ result.isSome)
    (.Refused "terminal_result_mismatch"
      "terminal transitions require exactly one terminal result"))
  let now ← Program.check (nowUnixMs clock)
  appendThenReplace (current.moved target reason runningAfterTimeout result now)

-- A job that is being cancelled, or that is and learns that it runs after its deadline.
def RuntimeJobV1.cancelling (current : RuntimeJobV1) (reason : String)
    (runningAfterTimeout : Bool) (now : Nat) : RuntimeJobV1 :=
  { current with
    state := .Cancelling
    revision := saturatingSucc current.revision
    updatedAtUnixMs := now
    runningAfterTimeout := current.runningAfterTimeout || runningAfterTimeout
    stateReason := some reason }

def requestCancel (jobId reason : String) (runningAfterTimeout : Bool) (clock : Clock) :
    JobProgram Unit := do
  let current ← findJob jobId
  if current.state.isTerminal then pure ()
  else do
    Program.check (rejectIf current.commitInProgress (.CancellationTooLate jobId))
    if current.state = .Cancelling then do
      Program.modify (RegistryState.cancelToken jobId)
      if !runningAfterTimeout || current.runningAfterTimeout then pure ()
      else do
        let now ← Program.check (nowUnixMs clock)
        appendThenReplace (current.cancelling reason true now)
    else do
      let now ← Program.check (nowUnixMs clock)
      appendThenReplace (current.cancelling reason runningAfterTimeout now)
      Program.modify (RegistryState.cancelToken jobId)

-- The registry looks no further than the state of the job it takes to be over.
def RuntimeJobV1.discarded (latest : RuntimeJobV1) (timedOut : Bool) (now : Nat) :
    RuntimeJobV1 :=
  { latest with
    state := .Cancelled
    revision := saturatingSucc latest.revision
    updatedAtUnixMs := now
    commitInProgress := false
    stateReason := some "cleanup_confirmed_without_commit"
    terminalResult := some (resultOf
      (if timedOut then "deadline_cancelled" else "cancelled")
      "prepared result was discarded; commit was not invoked" now) }

def discardPrepared (jobId : String) (current : RuntimeJobV1) (now : Nat) : JobProgram Unit := do
  let timedOut := decide (current.deadlineUnixMs ≤ now)
  if current.state = .Running then do
    appendThenReplace (current.cancelling
      (if timedOut then "deadline_reached" else "cancellation_requested") timedOut now)
    Program.modify (RegistryState.cancelToken jobId)
  let latest ← findJob jobId
  appendThenReplace (latest.discarded timedOut now)

def RuntimeJobV1.preparationFailed (current : RuntimeJobV1) (failure : RuntimeJobFailure)
    (now : Nat) : RuntimeJobV1 :=
  { current with
    state := .Failed
    revision := saturatingSucc current.revision
    updatedAtUnixMs := now
    commitInProgress := false
    stateReason := some "preparation_failed"
    terminalResult := some (resultOf failure.code failure.message now) }

def RuntimeJobV1.commitReserved (current : RuntimeJobV1) (now : Nat) : RuntimeJobV1 :=
  { current with
    revision := saturatingSucc current.revision
    updatedAtUnixMs := now
    commitInProgress := true
    stateReason := some "commit_reserved" }

-- `finish_after_prepare` up to the commit: the prepared value if its commit is reserved.
def finishAfterPrepare {ν : Type} (jobId : String) (prepared : Except RuntimeJobFailure ν)
    (clock : Clock) : JobProgram (Option (ν × Nat)) := do
  let current ← findJob jobId
  let now := nowUnixMsOrMax clock
  if current.state = .Cancelling ∨ current.deadlineUnixMs ≤ now then do
    discardPrepared jobId current now
    return none
  else if current.state ≠ .Running then pure none
  else
    match prepared with
    | .error failure => do
        appendThenReplace (current.preparationFailed failure now)
        return none
    | .ok value => do
        appendThenReplace (current.commitReserved now)
        return some (value, now)

-- What becomes of the commit closure.
inductive CommitOutcome
  | Succeeded (success : RuntimeJobSuccess)
  | Failed (failure : RuntimeJobFailure)
  | Panicked

def CommitOutcome.state : CommitOutcome → RuntimeJobState
  | .Succeeded _ => .Succeeded
  | .Failed _ | .Panicked => .Failed

def CommitOutcome.result (finishedAt : Nat) : CommitOutcome → RuntimeJobTerminalResultV1
  | .Succeeded success =>
      { resultOf success.code success.message finishedAt with
        outputDigest := success.outputDigest }
  | .Failed failure => resultOf failure.code failure.message finishedAt
  | .Panicked =>
      resultOf "commit_panicked" "registry-controlled commit closure panicked" finishedAt

def CommitOutcome.reason (completedAfterDeadline : Bool) (outcome : CommitOutcome) : String :=
  match outcome.state, completedAfterDeadline with
  | .Succeeded, true => "commit_completed_after_deadline"
  | .Succeeded, false => "commit_completed"
  | _, true => "commit_failed_after_deadline"
  | _, false => "commit_failed"

def RuntimeJobV1.committed (latest : RuntimeJobV1) (outcome : CommitOutcome) (finishedAt : Nat) :
    RuntimeJobV1 :=
  let completedAfterDeadline := decide (latest.deadlineUnixMs ≤ finishedAt)
  { latest with
    state := outcome.state
    revision := saturatingSucc latest.revision
    updatedAtUnixMs := finishedAt
    runningAfterTimeout := latest.runningAfterTimeout || completedAfterDeadline
    commitInProgress := false
    stateReason := some (outcome.reason completedAfterDeadline)
    terminalResult := some (outcome.result finishedAt) }

-- `finish_after_prepare` from the end of the commit on.
def finishCommit (jobId : String) (outcome : CommitOutcome) (finishedAt : Nat) :
    JobProgram Unit := do
  let latest ← findJob jobId
  if latest.state = .Running ∧ latest.commitInProgress then
    appendThenReplace (latest.committed outcome finishedAt)
  else pure ()

def RegistryState.activeJobs (registry : RegistryState) : List String :=
  (registry.jobs.toList.filter fun entry => !entry.2.job.state.isTerminal).map Prod.fst

def RuntimeJobRequestV1.pending (request : RuntimeJobRequestV1) (now : Nat) : RuntimeJobV1 where
  schema := RUNTIME_JOB_SCHEMA
  jobId := request.jobId
  idempotencyKey := request.idempotencyKey
  binding := request.binding
  snapshotRevision := request.snapshotRevision
  deadlineUnixMs := request.deadlineUnixMs
  state := .Pending
  revision := 0
  registeredAtUnixMs := now
  updatedAtUnixMs := now
  runningAfterTimeout := false
  commitInProgress := false
  stateReason := some "registered_before_execution"
  terminalResult := none

def RegistryState.register (job : RuntimeJobV1) (registry : RegistryState) : RegistryState :=
  { registry with
    idempotency := registry.idempotency.insert job.idempotencyKey job.jobId
    jobs := registry.jobs.insert job.jobId ⟨job, false⟩ }

def registerPending (request : RuntimeJobRequestV1) (clock : Clock) : JobProgram Unit := do
  let registry ← Program.get
  Program.check (rejectIf registry.poisoned .RegistryPoisoned)
  Program.check (rejectIf (!registry.accepting) .RegistryShuttingDown)
  Program.check (rejectIf (registry.activeJobs.length ≥ registry.maxInFlight)
    (.Overloaded registry.maxInFlight registry.activeJobs.length))
  Program.check (rejectIf (request.jobId ∈ registry.jobs) (.DuplicateJobId request.jobId))
  Program.check (rejectIf (request.idempotencyKey ∈ registry.idempotency)
    (.DuplicateIdempotencyKey request.idempotencyKey))
  let now ← Program.check (nowUnixMs clock)
  appendJournal (request.pending now)
  Program.modify (RegistryState.register (request.pending now))

-- `fail_closed_interrupted_jobs`, one job. `ticks` are the readings of the clock, in order.
def failClosed (jobId : String) (ticks : Nat → Clock) : JobProgram Unit := do
  let current ← snapshot jobId (ticks 0)
  let finishedAt ← Program.check (nowUnixMs (ticks 1))
  if current.state = .Running ∧ !current.commitInProgress then
    requestCancel jobId "restart_interrupted_running_job" current.runningAfterTimeout (ticks 2)
  let result :=
    if current.commitInProgress then
      resultOf "restart_interrupted_commit_ambiguous"
        "restart found a durable commit reservation; external commit outcome was not inferred"
        finishedAt
    else resultOf "restart_interrupted"
      "process restart interrupted a non-terminal job; no commit was inferred" finishedAt
  transition jobId .Failed "restart_failed_closed" current.runningAfterTimeout (some result) (ticks 3)

def failClosedAll (ticks : String → Nat → Clock) : List String → JobProgram Unit
  | [] => pure ()
  | jobId :: jobIds => do
      failClosed jobId (ticks jobId)
      failClosedAll ticks jobIds

def dropRequested (jobId : String) (clock : Clock) : JobProgram Unit :=
  (requestCancel jobId "registry_drop_requested" false clock).orElse fun _ =>
    (pure () : JobProgram Unit)

def dropAll (clock : String → Clock) : List String → JobProgram Unit
  | [] => pure ()
  | jobId :: jobIds => do
      dropRequested jobId (clock jobId)
      dropAll clock jobIds

def RegistryState.close (registry : RegistryState) : RegistryState :=
  { registry with accepting := false }

-- A registry that cannot fail its interrupted jobs closed is dropped, which cancels them.
def failClosedInterruptedJobs (ticks : String → Nat → Clock) : JobProgram Unit := do
  let registry ← Program.get
  (failClosedAll ticks registry.activeJobs).orElse fun error => do
    let left ← Program.get
    Program.modify RegistryState.close
    dropAll (fun jobId => ticks jobId 4) left.activeJobs
    Program.refuse error

end Sections

end M1nd.Mcp
