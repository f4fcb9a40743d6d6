import M1nd.Mcp.RuntimeJobs.Registry

namespace M1nd.Mcp

open M1nd.Control
open M1nd.Library.Checks
open M1nd.Library.Durable
open M1nd.Library.Json (Bytes)

-- The threads of one process, cut where they hold the registry lock: one step of a thread is
-- what it does up to the end of its next critical section.

inductive PrepareReceipt (ν : Type)
  | Sent (prepared : Except RuntimeJobFailure ν)
  | TimedOut
  | Disconnected

-- What the surroundings of a worker decide in one step: the readings of the clock, whether a
-- thread could be spawned, what the channel gives, how the prepare thread ended, what the
-- commit closure answers, and what becomes of the durable steps.
structure Turn (ν : Type) where
  ticks : Nat → Clock
  spawnError : Option String
  receipt : PrepareReceipt ν
  joined : Bool
  outcome : CommitOutcome
  fates : List Fate

-- Where a job stands between `submit_prepared` and the end of its supervisor.
inductive WorkerPhase (ν : Type)
  | Registered
  | Starting
  | SpawnFailed (error : String)
  | Supervising
  | Preparing
  | Overdue
  | Received (prepared : Option (Except RuntimeJobFailure ν))
  | Panicked (current : RuntimeJobV1)
  | Reserved (value : ν) (now : Nat)
  | Committed (now : Nat) (outcome : CommitOutcome)
  | Ended

structure Worker (ν : Type) where
  jobId : String
  phase : WorkerPhase ν

-- `shutdown` and the drop of the registry, between two of their critical sections.
inductive Closer
  | Shutdown (remaining : List String)
  | ShutdownPending (jobId : String) (remaining : List String)
  | ShutdownActive (jobId : String) (remaining : List String)
  | Drop (remaining : List String)
  | Ended

variable {ν : Type}

section Steps

variable [Sha256]

def failJob (jobId code reason message : String) (runningAfterTimeout : Bool)
    (ticks : Nat → Clock) : JobProgram Unit :=
  transition jobId .Failed reason runningAfterTimeout
    (some (resultOf code message (nowUnixMsOrMax (ticks 0)))) (ticks 1)

-- A refused call ends the thread; so does a program that returns `Ended`.
def WorkerPhase.step (jobId : String) (turn : Turn ν) : WorkerPhase ν → JobProgram (WorkerPhase ν)
  | .Registered => do
      transition jobId .Running "worker_starting" false none (turn.ticks 0)
      return .Starting
  | .Starting => do
      let _ ← snapshot jobId (turn.ticks 0)
      match turn.spawnError with
      | none => return .Supervising
      | some error => return .SpawnFailed error
  | .SpawnFailed error => do
      failJob jobId "worker_spawn_failed" "worker_spawn_failed" error false turn.ticks
      return .Ended
  | .Supervising =>
      match turn.spawnError with
      | none => pure .Preparing
      | some error => do
          failJob jobId "prepare_spawn_failed" "prepare_spawn_failed" error false turn.ticks
          return .Ended
  | .Preparing =>
      match turn.receipt with
      | .Sent prepared => pure (.Received (some prepared))
      | .Disconnected => pure (.Received none)
      | .TimedOut => do
          (requestCancel jobId "deadline_reached" true (turn.ticks 0)).orElse fun _ =>
            (pure () : JobProgram Unit)
          return .Overdue
  | .Overdue =>
      match turn.receipt with
      | .Sent prepared => pure (.Received (some prepared))
      | _ => pure (.Received none)
  | .Received prepared =>
      match prepared, turn.joined with
      | some prepared, true => do
          let reserved ← finishAfterPrepare jobId prepared (turn.ticks 0)
          match reserved with
          | none => return .Ended
          | some (value, now) => return .Reserved value now
      | _, _ => do
          let current ← snapshot jobId (turn.ticks 0)
          if current.state.isTerminal then return .Ended else return .Panicked current
  | .Panicked current => do
      failJob jobId "worker_panicked" "worker_panicked"
        "preparation worker panicked; cleanup cannot be proven" current.runningAfterTimeout turn.ticks
      return .Ended
  -- The commit closure runs here, outside of the lock.
  | .Reserved _ now => pure (.Committed now turn.outcome)
  | .Committed now outcome => do
      finishCommit jobId outcome (nowUnixMsOr now (turn.ticks 0))
      return .Ended
  | .Ended => pure .Ended

def Closer.step (ticks : Nat → Clock) : Closer → JobProgram Closer
  | .Shutdown [] => pure .Ended
  | .Shutdown (jobId :: remaining) => do
      let current ← snapshot jobId (ticks 0)
      if current.state = .Pending then return .ShutdownPending jobId remaining
      else return .ShutdownActive jobId remaining
  | .ShutdownPending jobId remaining => do
      let finishedAt ← Program.check (nowUnixMs (ticks 0))
      transition jobId .Cancelled "shutdown_before_start" false
        (some (resultOf "shutdown_before_start"
          "job was cancelled before execution during shutdown" finishedAt)) (ticks 1)
      return .Shutdown remaining
  | .ShutdownActive jobId remaining => do
      (requestCancel jobId "shutdown_requested" false (ticks 0)).orElse fun error =>
        match error with
        | .CancellationTooLate _ => (pure () : JobProgram Unit)
        | error => Program.refuse error
      return .Shutdown remaining
  | .Drop [] => pure .Ended
  | .Drop (jobId :: remaining) => do
      dropRequested jobId (ticks 0)
      return .Drop remaining
  | .Ended => pure .Ended

end Steps

-- The process that has the registry open, or the journal it left.
inductive JobProcess (ν : Type)
  | Closed (file : Bytes)
  | Open (registry : RegistryState) (workers : List (Worker ν)) (closers : List Closer)

def JobProcess.file : JobProcess ν → Bytes
  | .Closed file => file
  | .Open registry _ _ => registry.journal.file

-- One call of a commit closure, and the journal as it was then.
structure Invocation where
  jobId : String
  file : Bytes

structure JobWorld (ν : Type) where
  process : JobProcess ν
  invocations : List Invocation

def JobWorld.empty : JobWorld ν := ⟨.Closed [], []⟩

inductive JobEvent (ν : Type)
  | Open (maxInFlight : Nat) (ticks : String → Nat → Clock) (fates : List Fate)
  | Submit (request : RuntimeJobRequestV1) (clock : Clock) (fates : List Fate)
  | RequestCancel (jobId : String) (clock : Clock) (fates : List Fate)
  | CloseAdmission
  | Shutdown
  | Drop
  | Work (index : Nat) (turn : Turn ν)
  | Close (index : Nat) (ticks : Nat → Clock) (fates : List Fate)
  | Crash

section Apply

variable [Sha256] (fromSlice : RuntimeJobDecoder)

-- A critical section, and what the process is after it: a refused call has `refused` threads.
def JobProcess.enter {α : Type} (program : JobProgram α) (fates : List Fate)
    (registry : RegistryState) (returned : α → RegistryState → JobProcess ν)
    (refused : RegistryState → JobProcess ν) : JobProcess ν :=
  match program fates registry with
  | (.returned value, _, after) => returned value after
  | (.refused _, _, after) => refused after
  | (.crashed, _, after) => .Closed after.journal.file

def JobProcess.openFile (maxInFlight : Nat) (ticks : String → Nat → Clock) (fates : List Fate)
    (file : Bytes) : JobProcess ν :=
  match openRegistry fromSlice maxInFlight file with
  | .error _ => .Closed file
  | .ok registry =>
      enter (failClosedInterruptedJobs ticks) fates registry (fun _ after => .Open after [] [])
        fun after => .Closed after.journal.file

def submitProcess (request : RuntimeJobRequestV1) (clock : Clock) (fates : List Fate)
    (registry : RegistryState) (workers : List (Worker ν)) (closers : List Closer) :
    JobProcess ν :=
  JobProcess.enter
    (do
      Program.check (validateJobRequest request)
      registerPending request clock) fates registry
    (fun _ after => .Open after (workers ++ [⟨request.jobId, .Registered⟩]) closers)
    fun after => .Open after workers closers

def cancelProcess (jobId : String) (clock : Clock) (fates : List Fate) (registry : RegistryState)
    (workers : List (Worker ν)) (closers : List Closer) : JobProcess ν :=
  JobProcess.enter (requestCancel jobId "explicit_cancellation_requested" false clock) fates
    registry (fun _ after => .Open after workers closers)
    fun after => .Open after workers closers

def workProcess (index : Nat) (turn : Turn ν) (worker : Worker ν) (registry : RegistryState)
    (workers : List (Worker ν)) (closers : List Closer) : JobProcess ν :=
  JobProcess.enter (worker.phase.step worker.jobId turn) turn.fates registry
    (fun phase after => .Open after (workers.set index ⟨worker.jobId, phase⟩) closers)
    fun after => .Open after (workers.set index ⟨worker.jobId, .Ended⟩) closers

def closeProcess (index : Nat) (ticks : Nat → Clock) (fates : List Fate) (closer : Closer)
    (registry : RegistryState) (workers : List (Worker ν)) (closers : List Closer) :
    JobProcess ν :=
  JobProcess.enter (closer.step ticks) fates registry
    (fun next after => .Open after workers (closers.set index next))
    fun after => .Open after workers (closers.set index .Ended)

-- The commit closure is called in the step that leaves `Reserved`.
def Worker.invokes (worker : Worker ν) (file : Bytes) : List Invocation :=
  match worker.phase with
  | .Reserved _ _ => [⟨worker.jobId, file⟩]
  | _ => []

def JobWorld.apply (world : JobWorld ν) (event : JobEvent ν) : JobWorld ν :=
  match world.process, event with
  | .Closed file, .Open maxInFlight ticks fates =>
      { world with process := JobProcess.openFile fromSlice maxInFlight ticks fates file }
  | .Open registry workers closers, .Submit request clock fates =>
      { world with process := submitProcess request clock fates registry workers closers }
  | .Open registry workers closers, .RequestCancel jobId clock fates =>
      { world with process := cancelProcess jobId clock fates registry workers closers }
  | .Open registry workers closers, .CloseAdmission =>
      { world with process := .Open registry.close workers closers }
  | .Open registry workers closers, .Shutdown =>
      { world with
        process := .Open registry.close workers (closers ++ [.Shutdown registry.activeJobs]) }
  | .Open registry workers closers, .Drop =>
      { world with
        process := .Open registry.close workers (closers ++ [.Drop registry.activeJobs]) }
  | .Open registry workers closers, .Work index turn =>
      match workers[index]? with
      | none => world
      | some worker => {
          process := workProcess index turn worker registry workers closers
          invocations := world.invocations ++ worker.invokes registry.journal.file }
  | .Open registry workers closers, .Close index ticks fates =>
      match closers[index]? with
      | none => world
      | some closer =>
          { world with process := closeProcess index ticks fates closer registry workers closers }
  | process, .Crash => { world with process := .Closed process.file }
  | _, _ => world

def jobRun (events : List (JobEvent ν)) : JobWorld ν :=
  events.foldl (JobWorld.apply fromSlice) .empty

end Apply

end M1nd.Mcp
