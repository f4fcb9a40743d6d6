import M1nd.Control.Autonomy.Contract
import M1nd.Library.Framing
import M1nd.Library.Loops
import M1nd.Mcp.ProtectedJournalHead

namespace M1nd.Mcp

open M1nd.Control
open M1nd.Library.Checks
open M1nd.Library.Durable
open M1nd.Library.Json (Bytes Value utf8)

def RUNTIME_JOB_SCHEMA : String := "m1nd-runtime-job-v1"
def RUNTIME_JOB_BINDING_SCHEMA : String := "m1nd-runtime-job-binding-v1"
def RUNTIME_JOB_AUTHORITY_SCHEMA : String := "m1nd-runtime-job-authority-binding-v1"
def RUNTIME_JOB_TERMINAL_RESULT_SCHEMA : String := "m1nd-runtime-job-terminal-result-v1"
def RUNTIME_JOB_JOURNAL_RECORD_SCHEMA : String := "m1nd-runtime-job-journal-record-v1"
def RUNTIME_JOB_RECORD_DIGEST_DOMAIN : String := "m1nd-runtime-job-journal-record-v1"

inductive RuntimeJobState
  | Pending
  | Running
  | Cancelling
  | Succeeded
  | Failed
  | Cancelled
deriving DecidableEq

def RuntimeJobState.name : RuntimeJobState → String
  | .Pending => "PENDING"
  | .Running => "RUNNING"
  | .Cancelling => "CANCELLING"
  | .Succeeded => "SUCCEEDED"
  | .Failed => "FAILED"
  | .Cancelled => "CANCELLED"

-- The name the `Debug` form prints.
def RuntimeJobState.debug : RuntimeJobState → String
  | .Pending => "Pending"
  | .Running => "Running"
  | .Cancelling => "Cancelling"
  | .Succeeded => "Succeeded"
  | .Failed => "Failed"
  | .Cancelled => "Cancelled"

def RuntimeJobState.isTerminal : RuntimeJobState → Bool
  | .Succeeded | .Failed | .Cancelled => true
  | _ => false

inductive Ingress
  | Mcp
  | Rest
  | Cli
  | Hook
  | BackgroundJob
  | Recovery
  | Migration
deriving DecidableEq

def Ingress.name : Ingress → String
  | .Mcp => "MCP"
  | .Rest => "REST"
  | .Cli => "CLI"
  | .Hook => "HOOK"
  | .BackgroundJob => "BACKGROUND_JOB"
  | .Recovery => "RECOVERY"
  | .Migration => "MIGRATION"

@[ext]
structure RuntimeJobAuthorityBindingV1 where
  schema : String
  decisionId : String
  authorityVariant : AuthorityVariant
  authorityEpoch : Nat
  autonomyEpoch : Nat
  capabilityId : Option String
  authorizationDigest : String
deriving DecidableEq

@[ext]
structure RuntimeJobBindingV1 where
  schema : String
  organismId : String
  brainId : String
  missionId : String
  agentId : String
  action : String
  ingress : Ingress
  effects : BTreeSet Effect
  authority : RuntimeJobAuthorityBindingV1
deriving DecidableEq

structure RuntimeJobRequestV1 where
  jobId : String
  idempotencyKey : String
  binding : RuntimeJobBindingV1
  snapshotRevision : Nat
  deadlineUnixMs : Nat

@[ext]
structure RuntimeJobTerminalResultV1 where
  schema : String
  code : String
  message : String
  outputDigest : Option String
  finishedAtUnixMs : Nat
deriving DecidableEq

@[ext]
structure RuntimeJobV1 where
  schema : String
  jobId : String
  idempotencyKey : String
  binding : RuntimeJobBindingV1
  snapshotRevision : Nat
  deadlineUnixMs : Nat
  state : RuntimeJobState
  revision : Nat
  registeredAtUnixMs : Nat
  updatedAtUnixMs : Nat
  runningAfterTimeout : Bool
  commitInProgress : Bool
  stateReason : Option String
  terminalResult : Option RuntimeJobTerminalResultV1
deriving DecidableEq

structure RuntimeJobSuccess where
  code : String
  message : String
  outputDigest : Option String

structure RuntimeJobFailure where
  code : String
  message : String

inductive RuntimeJobError
  | Io
  | Refused (code detail : String)
  | Corruption (offset : Nat) (detail : String)
  | DuplicateJobId (jobId : String)
  | DuplicateIdempotencyKey (key : String)
  | UnknownJob (jobId : String)
  | IllegalTransition (jobId : String) (source target : RuntimeJobState)
  | RegistryShuttingDown
  | Overloaded (limit active : Nat)
  | CancellationTooLate (jobId : String)
  | RegistryPoisoned
deriving DecidableEq

-- What the shape checks of requests and replayed jobs ask for.

def isControl (c : Char) : Bool :=
  c.toNat < 0x20 || (0x7f ≤ c.toNat && c.toNat < 0xa0)

def validateIdentifier (field value : String) : Except RuntimeJobError Unit :=
  rejectIf (value = "" ∨ (utf8 value).length > 256 ∨ value.toList.any isControl)
    (.Refused "invalid_identifier" (field ++ " must contain 1..=256 non-control characters"))

def validateJobBinding (binding : RuntimeJobBindingV1) : Except RuntimeJobError Unit := do
  rejectIf (binding.schema ≠ RUNTIME_JOB_BINDING_SCHEMA)
    (.Refused "unsupported_job_binding_schema" ("observed '" ++ binding.schema ++ "'"))
  validateIdentifier "organism_id" binding.organismId
  validateIdentifier "brain_id" binding.brainId
  validateIdentifier "mission_id" binding.missionId
  validateIdentifier "agent_id" binding.agentId
  validateIdentifier "action" binding.action
  rejectIf binding.effects.isEmpty
    (.Refused "empty_effect_binding" "runtime job must bind at least one complete effect")
  rejectIf (binding.authority.schema ≠ RUNTIME_JOB_AUTHORITY_SCHEMA)
    (.Refused "unsupported_job_authority_schema"
      ("observed '" ++ binding.authority.schema ++ "'"))
  validateIdentifier "decision_id" binding.authority.decisionId
  validateIdentifier "authorization_digest" binding.authority.authorizationDigest
  match binding.authority.capabilityId with
  | none => pure ()
  | some capabilityId => validateIdentifier "capability_id" capabilityId

def validateJobRequest (request : RuntimeJobRequestV1) : Except RuntimeJobError Unit := do
  validateIdentifier "job_id" request.jobId
  validateIdentifier "idempotency_key" request.idempotencyKey
  validateJobBinding request.binding
  rejectIf (request.deadlineUnixMs = 0)
    (.Refused "invalid_deadline" "deadline_unix_ms must be non-zero")

def validateJobShape (job : RuntimeJobV1) : Except RuntimeJobError Unit := do
  rejectIf (job.schema ≠ RUNTIME_JOB_SCHEMA)
    (.Refused "unsupported_job_schema" ("observed '" ++ job.schema ++ "'"))
  validateIdentifier "job_id" job.jobId
  validateIdentifier "idempotency_key" job.idempotencyKey
  validateJobBinding job.binding
  rejectIf (job.state.isTerminal ≠ job.terminalResult.isSome)
    (.Refused "terminal_result_mismatch" "terminal state and terminal result presence disagree")
  rejectIf (job.commitInProgress ∧ job.state ≠ .Running)
    (.Refused "invalid_commit_reservation"
      "commit_in_progress is only valid while state is RUNNING")
  match job.terminalResult with
  | none => pure ()
  | some terminal => do
      rejectIf (terminal.schema ≠ RUNTIME_JOB_TERMINAL_RESULT_SCHEMA)
        (.Refused "unsupported_terminal_result_schema" ("observed '" ++ terminal.schema ++ "'"))
      validateIdentifier "terminal.code" terminal.code

-- The JSON forms, with their members in the order of the fields.

def RuntimeJobAuthorityBindingV1.toValue (authority : RuntimeJobAuthorityBindingV1) : Value :=
  .object [
    ("schema", .string authority.schema),
    ("decision_id", .string authority.decisionId),
    ("authority_variant", .string authority.authorityVariant.name),
    ("authority_epoch", .ofNat authority.authorityEpoch),
    ("autonomy_epoch", .ofNat authority.autonomyEpoch),
    ("capability_id", optionalString authority.capabilityId),
    ("authorization_digest", .string authority.authorizationDigest)]

def RuntimeJobBindingV1.toValue (binding : RuntimeJobBindingV1) : Value :=
  .object [
    ("schema", .string binding.schema),
    ("organism_id", .string binding.organismId),
    ("brain_id", .string binding.brainId),
    ("mission_id", .string binding.missionId),
    ("agent_id", .string binding.agentId),
    ("action", .string binding.action),
    ("ingress", .string binding.ingress.name),
    ("effects", nameSet Effect.name binding.effects),
    ("authority", binding.authority.toValue)]

def RuntimeJobTerminalResultV1.toValue (result : RuntimeJobTerminalResultV1) : Value :=
  .object [
    ("schema", .string result.schema),
    ("code", .string result.code),
    ("message", .string result.message),
    ("output_digest", optionalString result.outputDigest),
    ("finished_at_unix_ms", .ofNat result.finishedAtUnixMs)]

def RuntimeJobV1.toValue (job : RuntimeJobV1) : Value :=
  .object [
    ("schema", .string job.schema),
    ("job_id", .string job.jobId),
    ("idempotency_key", .string job.idempotencyKey),
    ("binding", job.binding.toValue),
    ("snapshot_revision", .ofNat job.snapshotRevision),
    ("deadline_unix_ms", .ofNat job.deadlineUnixMs),
    ("state", .string job.state.name),
    ("revision", .ofNat job.revision),
    ("registered_at_unix_ms", .ofNat job.registeredAtUnixMs),
    ("updated_at_unix_ms", .ofNat job.updatedAtUnixMs),
    ("running_after_timeout", .bool job.runningAfterTimeout),
    ("commit_in_progress", .bool job.commitInProgress),
    ("state_reason", optionalString job.stateReason),
    ("terminal_result", .ofOption RuntimeJobTerminalResultV1.toValue job.terminalResult)]

@[ext]
structure RuntimeJobJournalRecordV1 where
  schema : String
  sequence : Nat
  previousRecordDigest : Option String
  job : RuntimeJobV1
  recordDigest : String
deriving DecidableEq

-- The members the digest of a record is computed over.
def RuntimeJobJournalRecordV1.coreMembers (record : RuntimeJobJournalRecordV1) :
    List (String × Value) := [
  ("schema", .string record.schema),
  ("sequence", .ofNat record.sequence),
  ("previous_record_digest", optionalString record.previousRecordDigest),
  ("job", record.job.toValue)]

def RuntimeJobJournalRecordV1.toValue (record : RuntimeJobJournalRecordV1) : Value :=
  .object (record.coreMembers ++ [("record_digest", .string record.recordDigest)])

section Digest

variable [Sha256]

def RuntimeJobJournalRecordV1.computeDigest (record : RuntimeJobJournalRecordV1) : String :=
  hexLower (Sha256.finalize
    (utf8 RUNTIME_JOB_RECORD_DIGEST_DOMAIN ++ [0] ++ (Value.object record.coreMembers).write)).toList

def RuntimeJobJournalRecordV1.new (sequence : Nat) (previousRecordDigest : Option String)
    (job : RuntimeJobV1) : RuntimeJobJournalRecordV1 :=
  let record : RuntimeJobJournalRecordV1 := {
    schema := RUNTIME_JOB_JOURNAL_RECORD_SCHEMA
    sequence, previousRecordDigest, job
    recordDigest := "" }
  { record with recordDigest := record.computeDigest }

end Digest

-- The state machine of the snapshots of one job.

def sameJobIdentity (left right : RuntimeJobV1) : Bool :=
  left.schema = right.schema && left.jobId = right.jobId &&
    left.idempotencyKey = right.idempotencyKey && left.binding = right.binding &&
    left.snapshotRevision = right.snapshotRevision &&
    left.deadlineUnixMs = right.deadlineUnixMs &&
    left.registeredAtUnixMs = right.registeredAtUnixMs

def validTransition : RuntimeJobState → RuntimeJobState → Bool
  | .Pending, .Running | .Pending, .Cancelling | .Pending, .Cancelled | .Pending, .Failed
  | .Running, .Cancelling | .Running, .Succeeded | .Running, .Failed
  | .Cancelling, .Cancelled | .Cancelling, .Failed => true
  | _, _ => false

def validSnapshotTransition (previous incoming : RuntimeJobV1) : Bool :=
  if incoming.commitInProgress && incoming.state ≠ .Running then false
  else if previous.commitInProgress then
    previous.state = .Running && (incoming.state = .Succeeded || incoming.state = .Failed) &&
      !incoming.commitInProgress
  else if incoming.commitInProgress then
    previous.state = .Running && incoming.state = .Running
  else
    validTransition previous.state incoming.state ||
      (previous.state = .Cancelling && incoming.state = .Cancelling &&
        !previous.runningAfterTimeout && incoming.runningAfterTimeout)

def applyReplayedJob (jobs : BTreeMap RuntimeJobV1) (incoming : RuntimeJobV1) (offset : Nat) :
    Except RuntimeJobError (BTreeMap RuntimeJobV1) := do
  match jobs[incoming.jobId]? with
  | none =>
      rejectIf (incoming.revision ≠ 0 ∨ incoming.state ≠ .Pending ∨ incoming.commitInProgress)
        (.Corruption offset
          ("first record for '" ++ incoming.jobId ++ "' is not revision 0 PENDING"))
  | some previous => do
      rejectIf (incoming.revision ≠ saturatingSucc previous.revision)
        (.Corruption offset ("non-contiguous revision for '" ++ incoming.jobId ++ "'"))
      rejectIf (!sameJobIdentity previous incoming)
        (.Corruption offset ("job identity changed for '" ++ incoming.jobId ++ "'"))
      rejectIf (!validSnapshotTransition previous incoming)
        (.Corruption offset ("illegal replayed transition for '" ++ incoming.jobId ++ "': " ++
          previous.state.debug ++ " -> " ++ incoming.state.debug))
      rejectIf (previous.runningAfterTimeout ∧ !incoming.runningAfterTimeout)
        (.Corruption offset ("running_after_timeout regressed for '" ++ incoming.jobId ++ "'"))
  return jobs.insert incoming.jobId incoming

end M1nd.Mcp
