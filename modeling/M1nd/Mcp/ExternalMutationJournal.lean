import M1nd.Mcp.OwnerAuthorizationBroker

namespace M1nd.Mcp

open M1nd.Control
open M1nd.Library.Checks
open M1nd.Library.Durable
open M1nd.Library.Json (Bytes CanonicalValue Value)

def EXTERNAL_MUTATION_JOURNAL_RECORD_SCHEMA : String :=
  "m1nd-external-mutation-journal-record-v2"
def EXTERNAL_MUTATION_JOURNAL_RECORD_DIGEST_DOMAIN : String :=
  "m1nd-external-mutation-journal-record-v2"
def EXTERNAL_MUTATION_OPERATION_ID_DIGEST_DOMAIN : String :=
  "m1nd-external-mutation-operation-id-v1"
def EXTERNAL_MUTATION_JOURNAL_HEAD_DOMAIN : String := "m1nd-external-mutation-journal-head-v1"
def EXTERNAL_MUTATION_PUBLISHED_RESULT_SCHEMA : String :=
  "m1nd-external-mutation-published-result-v1"
def EXTERNAL_MUTATION_PUBLISHED_RESULT_DIGEST_DOMAIN : String :=
  "m1nd-external-mutation-published-result-v1"
def BRAIN_PROMOTE_RECONCILIATION_RECEIPT_SCHEMA : String :=
  "m1nd-brain-promote-reconciliation-receipt-v1"
def BRAIN_PROMOTE_RECONCILIATION_RECEIPT_DIGEST_DOMAIN : String :=
  "m1nd-brain-promote-reconciliation-receipt-v1"
def BRAIN_PROMOTE_CHECKPOINT_ACK_SCHEMA : String := "m1nd-checkpoint-ack-v1"
def BRAIN_PROMOTE_CHECKPOINT_ACK_DIGEST_DOMAIN : String := "m1nd-brain-promote-checkpoint-ack-v1"

inductive ExternalMutationJournalPhaseV1
  | Prepared
  | Committed
  | Reconciled
  | Published
  | RecoveryRequired
deriving DecidableEq

def ExternalMutationJournalPhaseV1.name : ExternalMutationJournalPhaseV1 → String
  | .Prepared => "PREPARED"
  | .Committed => "COMMITTED"
  | .Reconciled => "RECONCILED"
  | .Published => "PUBLISHED"
  | .RecoveryRequired => "RECOVERY_REQUIRED"

-- The raw JSON values of an operation come from ordered maps, so their keys are in order.

@[ext]
structure ExternalMutationPrepareV1 where
  semanticAction : String
  payloadDigest : String
  operationObjectDigest : String
  operationVersion : Nat
  actorBrainId : String
  routeSelector : Option String
  missionId : Option String
  missionHeadId : Option String
  recoveryPayload : CanonicalValue
deriving DecidableEq

def ExternalMutationPrepareV1.toValue (prepare : ExternalMutationPrepareV1) : Value :=
  .object [
    ("semantic_action", .string prepare.semanticAction),
    ("payload_digest", .string prepare.payloadDigest),
    ("operation_object_digest", .string prepare.operationObjectDigest),
    ("operation_version", .ofNat prepare.operationVersion),
    ("actor_brain_id", .string prepare.actorBrainId),
    ("route_selector", optionalString prepare.routeSelector),
    ("mission_id", optionalString prepare.missionId),
    ("mission_head_id", optionalString prepare.missionHeadId),
    ("recovery_payload", prepare.recoveryPayload.form)]

@[ext]
structure ExternalMutationPublishedResultV1 where
  schema : String
  semanticAction : String
  semanticPayloadDigest : String
  operationObjectDigest : String
  outcomeDigest : String
  graphResyncRequired : Bool
  reconciliationState : String
  result : CanonicalValue
deriving DecidableEq

def ExternalMutationPublishedResultV1.toValue (result : ExternalMutationPublishedResultV1) : Value :=
  .object [
    ("schema", .string result.schema),
    ("semantic_action", .string result.semanticAction),
    ("semantic_payload_digest", .string result.semanticPayloadDigest),
    ("operation_object_digest", .string result.operationObjectDigest),
    ("outcome_digest", .string result.outcomeDigest),
    ("graph_resync_required", .bool result.graphResyncRequired),
    ("reconciliation_state", .string result.reconciliationState),
    ("result", result.result.form)]

@[ext]
structure BrainPromoteCheckpointAckV1 where
  schema : String
  checkpointId : String
  brainId : String
  epoch : Nat
  generation : Nat
  revision : Nat
  currentPointerDigest : String
  confirmedAtUnixMs : Nat
deriving DecidableEq

def BrainPromoteCheckpointAckV1.toValue (ack : BrainPromoteCheckpointAckV1) : Value :=
  .object [
    ("schema", .string ack.schema),
    ("checkpoint_id", .string ack.checkpointId),
    ("brain_id", .string ack.brainId),
    ("epoch", .ofNat ack.epoch),
    ("generation", .ofNat ack.generation),
    ("revision", .ofNat ack.revision),
    ("current_pointer_digest", .string ack.currentPointerDigest),
    ("confirmed_at_unix_ms", .ofNat ack.confirmedAtUnixMs)]

@[ext]
structure BrainPromoteReconciliationReceiptV1 where
  schema : String
  operationId : String
  operationObjectDigest : String
  sourceBrainId : String
  reconciliationBrainId : String
  medullaPath : String
  medullaPostimageSha256 : String
  adapter : String
  mode : String
  incremental : Bool
  namespaceName : String
  ingestOutputDigest : String
  graphGenerationBefore : Nat
  graphGenerationAfter : Nat
  checkpointAck : BrainPromoteCheckpointAckV1
  checkpointAckDigest : String
  reconciledAt : Nat
deriving DecidableEq

def BrainPromoteReconciliationReceiptV1.toValue (receipt : BrainPromoteReconciliationReceiptV1) : Value :=
  .object [
    ("schema", .string receipt.schema),
    ("operation_id", .string receipt.operationId),
    ("operation_object_digest", .string receipt.operationObjectDigest),
    ("source_brain_id", .string receipt.sourceBrainId),
    ("reconciliation_brain_id", .string receipt.reconciliationBrainId),
    ("medulla_path", .string receipt.medullaPath),
    ("medulla_postimage_sha256", .string receipt.medullaPostimageSha256),
    ("adapter", .string receipt.adapter),
    ("mode", .string receipt.mode),
    ("incremental", .bool receipt.incremental),
    ("namespace", .string receipt.namespaceName),
    ("ingest_output_digest", .string receipt.ingestOutputDigest),
    ("graph_generation_before", .ofNat receipt.graphGenerationBefore),
    ("graph_generation_after", .ofNat receipt.graphGenerationAfter),
    ("checkpoint_ack", receipt.checkpointAck.toValue),
    ("checkpoint_ack_digest", .string receipt.checkpointAckDigest),
    ("reconciled_at", .ofNat receipt.reconciledAt)]

@[ext]
structure ExternalMutationJournalEntryV1 where
  operationId : String
  reservationId : String
  leaseId : String
  authorizationSnapshotDigest : String
  prepare : ExternalMutationPrepareV1
  phase : ExternalMutationJournalPhaseV1
  outcomeDigest : Option String
  commitRecordDigest : Option String
  committedAt : Option Nat
  publishedResult : Option ExternalMutationPublishedResultV1
  publishedResultDigest : Option String
  reconciliationReceipt : Option BrainPromoteReconciliationReceiptV1
  reconciliationReceiptDigest : Option String
  preparedAt : Nat
  updatedAt : Nat
deriving DecidableEq

def ExternalMutationJournalEntryV1.toValue (entry : ExternalMutationJournalEntryV1) : Value :=
  .object [
    ("operation_id", .string entry.operationId),
    ("reservation_id", .string entry.reservationId),
    ("lease_id", .string entry.leaseId),
    ("authorization_snapshot_digest", .string entry.authorizationSnapshotDigest),
    ("prepare", entry.prepare.toValue),
    ("phase", .string entry.phase.name),
    ("outcome_digest", optionalString entry.outcomeDigest),
    ("commit_record_digest", optionalString entry.commitRecordDigest),
    ("committed_at", .ofOption .ofNat entry.committedAt),
    ("published_result",
      .ofOption ExternalMutationPublishedResultV1.toValue entry.publishedResult),
    ("published_result_digest", optionalString entry.publishedResultDigest),
    ("reconciliation_receipt",
      .ofOption BrainPromoteReconciliationReceiptV1.toValue entry.reconciliationReceipt),
    ("reconciliation_receipt_digest", optionalString entry.reconciliationReceiptDigest),
    ("prepared_at", .ofNat entry.preparedAt),
    ("updated_at", .ofNat entry.updatedAt)]

@[ext]
structure ExternalMutationJournalRecordCoreV1 where
  sequence : Nat
  entry : ExternalMutationJournalEntryV1
  previousRecordDigest : Option String
  recordedAt : Nat
deriving DecidableEq

def ExternalMutationJournalRecordCoreV1.toValue (core : ExternalMutationJournalRecordCoreV1) : Value :=
  .object [
    ("sequence", .ofNat core.sequence),
    ("entry", core.entry.toValue),
    ("previous_record_digest", optionalString core.previousRecordDigest),
    ("recorded_at", .ofNat core.recordedAt)]

@[ext]
structure ExternalMutationJournalRecordV1 where
  schema : String
  core : ExternalMutationJournalRecordCoreV1
  recordDigest : String
deriving DecidableEq

def ExternalMutationJournalRecordV1.toValue (record : ExternalMutationJournalRecordV1) : Value :=
  .object [
    ("schema", .string record.schema),
    ("core", record.core.toValue),
    ("record_digest", .string record.recordDigest)]


-- Why a frame is not a complete record of the current shape.
inductive RecordShapeDetail
  | ExpectedObject
  | Fields (missing unknown : List String)

inductive ExternalMutationJournalError
  | Io
  | Json
  | ProtectedHead (detail : ProtectedHeadError)
  | ProtectedHeadChanged
  | Corruption (detail : String)
  | IncompleteRecordShape (sequence : Nat) (context : String) (detail : RecordShapeDetail)
  | Refused (code detail : String)
  | NotInPhase (code : String) (phase : ExternalMutationJournalPhaseV1)
  | Poisoned

-- The shape of a frame, looked at before it is decoded.

def requireExactFields (members : List (String × Value)) (expected : List String)
    (sequence : Nat) (context : String) : Except ExternalMutationJournalError Unit :=
  let missing := expected.filter fun field => !members.any fun member => member.1 = field
  let unknown := (members.map Prod.fst).filter fun field => !expected.contains field
  rejectIf (missing ≠ [] ∨ unknown ≠ []) (.IncompleteRecordShape sequence context
    (.Fields missing unknown))

def requireObject (value : Option Value) (sequence : Nat) (context : String) :
    Except ExternalMutationJournalError (List (String × Value)) :=
  match value.bind Value.asObject with
  | some members => .ok members
  | none => .error (.IncompleteRecordShape sequence context .ExpectedObject)

def RECORD_FIELDS : List String := ["schema", "core", "record_digest"]

def CORE_FIELDS : List String := ["sequence", "entry", "previous_record_digest", "recorded_at"]

def ENTRY_FIELDS : List String := ["operation_id", "reservation_id", "lease_id",
  "authorization_snapshot_digest", "prepare", "phase", "outcome_digest", "commit_record_digest",
  "committed_at", "published_result", "published_result_digest", "reconciliation_receipt",
  "reconciliation_receipt_digest", "prepared_at", "updated_at"]

def PREPARE_FIELDS : List String := ["semantic_action", "payload_digest",
  "operation_object_digest", "operation_version", "actor_brain_id", "route_selector", "mission_id",
  "mission_head_id", "recovery_payload"]

def validateRecordShape (record : Value) (sequence : Nat) :
    Except ExternalMutationJournalError Unit := do
  let record ← requireObject (some record) sequence "record"
  requireExactFields record RECORD_FIELDS sequence "record"
  let core ← requireObject (record.lookup "core") sequence "core"
  requireExactFields core CORE_FIELDS sequence "core"
  let entry ← requireObject (core.lookup "entry") sequence "entry"
  requireExactFields entry ENTRY_FIELDS sequence "entry"
  let prepare ← requireObject (entry.lookup "prepare") sequence "prepare"
  requireExactFields prepare PREPARE_FIELDS sequence "prepare"

-- The contents of an entry.

def reconciledByActor (semanticAction : String) : Bool :=
  semanticAction = "brain.promote" || semanticAction = "graph.ingest.replace" ||
    semanticAction = "graph.ingest.merge_existing"

def expectedReconciliationState (entry : ExternalMutationJournalEntryV1)
    (result : ExternalMutationPublishedResultV1) : String :=
  if reconciledByActor entry.prepare.semanticAction then "RECONCILED"
  else if result.graphResyncRequired then "PENDING_RECONCILIATION"
  else "NOT_REQUIRED"

def validatePublishedResultBinding (entry : ExternalMutationJournalEntryV1)
    (result : ExternalMutationPublishedResultV1) : Except ExternalMutationJournalError Unit :=
  rejectIf (result.schema ≠ EXTERNAL_MUTATION_PUBLISHED_RESULT_SCHEMA ∨
    result.semanticAction ≠ entry.prepare.semanticAction ∨
    result.semanticPayloadDigest ≠ entry.prepare.payloadDigest ∨
    result.operationObjectDigest ≠ entry.prepare.operationObjectDigest ∨
    entry.outcomeDigest ≠ some result.outcomeDigest ∨
    !isDigest result.outcomeDigest ∨
    result.reconciliationState ≠ expectedReconciliationState entry result ∨
    (reconciledByActor entry.prepare.semanticAction ∧ result.graphResyncRequired))
    (.Refused "external_mutation_published_result_binding_mismatch"
      "sealed result differs from the committed operation bindings")

def recoveryMember (prepare : ExternalMutationPrepareV1) (key : String) : Option String :=
  (prepare.recoveryPayload.form.get key).bind Value.asStr

def recoveryMedullaMember (prepare : ExternalMutationPrepareV1) (key : String) : Option String :=
  ((prepare.recoveryPayload.form.get "medulla").bind (Value.get key)).bind Value.asStr

-- A phase says which fields of an entry are filled.
def fieldsMatchPhase (entry : ExternalMutationJournalEntryV1) : Bool :=
  let result := entry.publishedResult.isSome && entry.publishedResultDigest.isSome
  let noResult := entry.publishedResult.isNone && entry.publishedResultDigest.isNone
  let receipt := entry.reconciliationReceipt.isSome && entry.reconciliationReceiptDigest.isSome
  let noReceipt := entry.reconciliationReceipt.isNone && entry.reconciliationReceiptDigest.isNone
  match entry.phase with
  | .Prepared => entry.outcomeDigest.isNone && entry.commitRecordDigest.isNone &&
      entry.committedAt.isNone && noResult && noReceipt
  | .Committed => entry.outcomeDigest.isSome && entry.commitRecordDigest.isNone &&
      entry.committedAt.isSome && noResult && noReceipt
  | .RecoveryRequired => entry.outcomeDigest.isSome && entry.commitRecordDigest.isSome &&
      entry.committedAt.isSome && noResult && noReceipt
  | .Reconciled => entry.prepare.semanticAction = "brain.promote" &&
      entry.outcomeDigest.isSome && entry.commitRecordDigest.isSome &&
      entry.committedAt.isSome && result && receipt
  | .Published => entry.outcomeDigest.isSome && entry.commitRecordDigest.isSome &&
      entry.committedAt.isSome && result &&
      if entry.prepare.semanticAction = "brain.promote" then receipt else noReceipt

def entryMisshapen (entry : ExternalMutationJournalEntryV1) : Bool :=
  !isDigest entry.operationId || !isDigest entry.reservationId || isBlank entry.leaseId ||
    !isDigest entry.authorizationSnapshotDigest || !isDigest entry.prepare.payloadDigest ||
    !isDigest entry.prepare.operationObjectDigest || isBlank entry.prepare.semanticAction ||
    entry.prepare.operationVersion = 0 || isBlank entry.prepare.actorBrainId ||
    entry.prepare.routeSelector.any isBlank || entry.preparedAt > entry.updatedAt ||
    entry.outcomeDigest.any (!isDigest ·) || entry.commitRecordDigest.any (!isDigest ·) ||
    entry.publishedResultDigest.any (!isDigest ·) ||
    entry.reconciliationReceiptDigest.any (!isDigest ·) ||
    (entry.committedAt.any fun committed =>
      committed < entry.preparedAt || committed > entry.updatedAt)

section Digests

variable [Sha256]

def BrainPromoteCheckpointAckV1.digest (ack : BrainPromoteCheckpointAckV1) : String :=
  digestCanonical BRAIN_PROMOTE_CHECKPOINT_ACK_DIGEST_DOMAIN ack.toValue

def BrainPromoteReconciliationReceiptV1.digest (receipt : BrainPromoteReconciliationReceiptV1) :
    String :=
  digestCanonical BRAIN_PROMOTE_RECONCILIATION_RECEIPT_DIGEST_DOMAIN receipt.toValue

def ExternalMutationPublishedResultV1.digest (result : ExternalMutationPublishedResultV1) :
    String :=
  digestCanonical EXTERNAL_MUTATION_PUBLISHED_RESULT_DIGEST_DOMAIN result.toValue

def validateReconciliationReceiptBinding (entry : ExternalMutationJournalEntryV1)
    (receipt : BrainPromoteReconciliationReceiptV1) : Except ExternalMutationJournalError Unit :=
  rejectIf (receipt.schema ≠ BRAIN_PROMOTE_RECONCILIATION_RECEIPT_SCHEMA ∨
    entry.prepare.semanticAction ≠ "brain.promote" ∨
    recoveryMember entry.prepare "kind" ≠ some "brain_promote" ∨
    receipt.operationId ≠ entry.operationId ∨
    receipt.operationObjectDigest ≠ entry.prepare.operationObjectDigest ∨
    entry.prepare.routeSelector ≠ some receipt.sourceBrainId ∨
    isBlank receipt.reconciliationBrainId ∨
    recoveryMember entry.prepare "reconciliation_brain_id" ≠ some receipt.reconciliationBrainId ∨
    isBlank receipt.medullaPath ∨
    recoveryMedullaMember entry.prepare "target_path" ≠ some receipt.medullaPath ∨
    !isDigest receipt.medullaPostimageSha256 ∨
    recoveryMedullaMember entry.prepare "after_sha256" ≠ some receipt.medullaPostimageSha256 ∨
    receipt.adapter ≠ "light" ∨ receipt.mode ≠ "merge" ∨ receipt.incremental ∨
    receipt.namespaceName ≠ "light" ∨ !isDigest receipt.ingestOutputDigest ∨
    receipt.graphGenerationAfter ≤ receipt.graphGenerationBefore ∨
    receipt.checkpointAck.schema ≠ BRAIN_PROMOTE_CHECKPOINT_ACK_SCHEMA ∨
    !isDigest receipt.checkpointAck.checkpointId ∨
    receipt.checkpointAck.brainId ≠ receipt.reconciliationBrainId ∨
    receipt.checkpointAck.generation < receipt.graphGenerationAfter ∨
    !isDigest receipt.checkpointAck.currentPointerDigest ∨
    receipt.checkpointAck.confirmedAtUnixMs = 0 ∨
    receipt.checkpointAck.confirmedAtUnixMs > receipt.reconciledAt ∨
    receipt.checkpointAckDigest ≠ receipt.checkpointAck.digest ∨
    receipt.reconciledAt < entry.committedAt.getD entry.preparedAt ∨
    receipt.reconciledAt > entry.updatedAt)
    (.Refused "brain_promote_reconciliation_receipt_binding_mismatch"
      "reconciliation receipt differs from the exact committed promotion")

def validateSealedReceipt (entry : ExternalMutationJournalEntryV1) :
    Except ExternalMutationJournalError Unit :=
  match entry.reconciliationReceipt with
  | none => .error (.Corruption "reconciled promotion has no receipt")
  | some receipt => do
      validateReconciliationReceiptBinding entry receipt
      rejectIf (entry.reconciliationReceiptDigest ≠ some receipt.digest)
        (.Corruption "promotion reconciliation receipt digest mismatch")

def validateSealedResult (entry : ExternalMutationJournalEntryV1) :
    Except ExternalMutationJournalError Unit :=
  match entry.publishedResult with
  | none => .error (.Corruption "reconciled/published entry has no sealed result")
  | some result => do
      validatePublishedResultBinding entry result
      rejectIf (entry.publishedResultDigest ≠ some result.digest)
        (.Corruption "reconciled/published result digest mismatch")

def validateEntry (entry : ExternalMutationJournalEntryV1) :
    Except ExternalMutationJournalError Unit := do
  rejectIf (entryMisshapen entry || !fieldsMatchPhase entry)
    (.Corruption "invalid external mutation journal entry")
  if entry.phase = .Reconciled ∨ entry.phase = .Published then
    if entry.prepare.semanticAction = "brain.promote" then
      validateSealedReceipt entry
    validateSealedResult entry

def ExternalMutationJournalRecordCoreV1.digest (core : ExternalMutationJournalRecordCoreV1) :
    String :=
  digestCanonical EXTERNAL_MUTATION_JOURNAL_RECORD_DIGEST_DOMAIN core.toValue

def ExternalMutationJournalRecordV1.seal (core : ExternalMutationJournalRecordCoreV1) :
    ExternalMutationJournalRecordV1 where
  schema := EXTERNAL_MUTATION_JOURNAL_RECORD_SCHEMA
  core := core
  recordDigest := core.digest

def ExternalMutationJournalRecordV1.validate (record : ExternalMutationJournalRecordV1)
    (expectedSequence : Nat) (expectedPrevious : Option String) :
    Except ExternalMutationJournalError Unit := do
  rejectIf (record.schema ≠ EXTERNAL_MUTATION_JOURNAL_RECORD_SCHEMA ∨
    record.core.sequence ≠ expectedSequence ∨
    record.core.previousRecordDigest ≠ expectedPrevious ∨ !isDigest record.recordDigest ∨
    record.core.digest ≠ record.recordDigest)
    (.Corruption ("journal chain mismatch at sequence " ++ toString expectedSequence))
  validateEntry record.core.entry

end Digests

-- What replay asks of the next record of an operation.

def commitFieldsMatch (previous next : ExternalMutationJournalEntryV1) : Bool :=
  next.outcomeDigest = previous.outcomeDigest &&
    next.commitRecordDigest = previous.commitRecordDigest &&
    next.committedAt = previous.committedAt

def noCommitFields (entry : ExternalMutationJournalEntryV1) : Bool :=
  entry.outcomeDigest.isNone && entry.commitRecordDigest.isNone && entry.committedAt.isNone

def noResultFields (entry : ExternalMutationJournalEntryV1) : Bool :=
  entry.publishedResult.isNone && entry.publishedResultDigest.isNone

def noReceiptFields (entry : ExternalMutationJournalEntryV1) : Bool :=
  entry.reconciliationReceipt.isNone && entry.reconciliationReceiptDigest.isNone

def resultFields (entry : ExternalMutationJournalEntryV1) : Bool :=
  entry.publishedResult.isSome && entry.publishedResultDigest.isSome

def receiptFields (entry : ExternalMutationJournalEntryV1) : Bool :=
  entry.reconciliationReceipt.isSome && entry.reconciliationReceiptDigest.isSome

def sameResult (previous next : ExternalMutationJournalEntryV1) : Bool :=
  next.publishedResult = previous.publishedResult &&
    next.publishedResultDigest = previous.publishedResultDigest

def sameReceipt (previous next : ExternalMutationJournalEntryV1) : Bool :=
  next.reconciliationReceipt = previous.reconciliationReceipt &&
    next.reconciliationReceiptDigest = previous.reconciliationReceiptDigest

def commitFieldsFollowTransition (previous next : ExternalMutationJournalEntryV1) : Bool :=
  match previous.phase, next.phase with
  | .Prepared, .Committed =>
      noCommitFields previous && noResultFields previous && noReceiptFields previous &&
        next.outcomeDigest.isSome && next.commitRecordDigest.isNone && next.committedAt.isSome &&
        noResultFields next && noReceiptFields next
  | .Committed, .Reconciled | .RecoveryRequired, .Reconciled =>
      commitFieldsMatch previous next && noResultFields previous && resultFields next &&
        noReceiptFields previous && receiptFields next
  | .Committed, .Published | .RecoveryRequired, .Published =>
      commitFieldsMatch previous next && sameReceipt previous next &&
        noResultFields previous && resultFields next
  | .Committed, .RecoveryRequired | .RecoveryRequired, .RecoveryRequired =>
      commitFieldsMatch previous next && sameReceipt previous next && sameResult previous next
  | .Reconciled, .Published =>
      commitFieldsMatch previous next && sameReceipt previous next && sameResult previous next
  | _, _ => false

def legalTransition (previous next : ExternalMutationJournalPhaseV1) : Bool :=
  match previous, next with
  | .Prepared, .Committed => true
  | .Committed, .Published | .Committed, .Reconciled | .Committed, .RecoveryRequired => true
  | .RecoveryRequired, .RecoveryRequired | .RecoveryRequired, .Reconciled
  | .RecoveryRequired, .Published => true
  | .Reconciled, .Published => true
  | _, _ => false

def followsEntry (previous : Option ExternalMutationJournalEntryV1)
    (next : ExternalMutationJournalEntryV1) : Bool :=
  match previous with
  | none => next.phase = .Prepared
  | some previous => previous.reservationId = next.reservationId &&
      previous.leaseId = next.leaseId &&
      previous.authorizationSnapshotDigest = next.authorizationSnapshotDigest &&
      previous.prepare = next.prepare && commitFieldsFollowTransition previous next &&
      legalTransition previous.phase next.phase

-- What is kept of a record: the digest of the commit record is only known once it is sealed.
def persistedEntry (previous : Option ExternalMutationJournalEntryV1)
    (record : ExternalMutationJournalRecordV1) : ExternalMutationJournalEntryV1 :=
  let next := record.core.entry
  if next.phase = .Committed then
    { next with commitRecordDigest := some record.recordDigest }
  else
    match previous with
    | some previous => { next with commitRecordDigest := previous.commitRecordDigest }
    | none => next

def applyRecord (entries : BTreeMap ExternalMutationJournalEntryV1)
    (record : ExternalMutationJournalRecordV1) :
    Except ExternalMutationJournalError (BTreeMap ExternalMutationJournalEntryV1) := do
  let next := record.core.entry
  let previous := entries[next.operationId]?
  rejectIf (!followsEntry previous next) (.Corruption ("illegal transition for " ++ next.operationId))
  return entries.insert next.operationId (persistedEntry previous record)

-- What the journal keeps in memory.
structure ExternalMutationJournalStateV1 where
  sequence : Nat
  tailDigest : Option String
  entries : BTreeMap ExternalMutationJournalEntryV1

-- What serde_json answers: on the bytes of a line, and on the value read from them.
structure ExternalMutationDecoder where
  fromSlice : Bytes → Option Value
  fromValue : Value → Option ExternalMutationJournalRecordV1

section Format

variable [Sha256]

def ExternalMutationJournalStateV1.accept (state : ExternalMutationJournalStateV1)
    (record : ExternalMutationJournalRecordV1) :
    Except ExternalMutationJournalError ExternalMutationJournalStateV1 := do
  record.validate (state.sequence + 1) state.tailDigest
  let entries ← applyRecord state.entries record
  return { sequence := state.sequence + 1, tailDigest := some record.recordDigest, entries }

def decodeExternalMutationRecord (decoder : ExternalMutationDecoder)
    (state : ExternalMutationJournalStateV1) (line : Bytes) :
    Except ExternalMutationJournalError ExternalMutationJournalRecordV1 := do
  let rawRecord ← (decoder.fromSlice line).elim (.error .Json) .ok
  validateRecordShape rawRecord (state.sequence + 1)
  (decoder.fromValue rawRecord).elim (.error .Json) .ok

-- This journal looks at its file before it looks at the protected head.
def externalMutationFormat (decoder : ExternalMutationDecoder) :
    ChainedJournal.Format ExternalMutationJournalRecordV1 ExternalMutationJournalStateV1
      ExternalMutationJournalError where
  headDomain := EXTERNAL_MUTATION_JOURNAL_HEAD_DOMAIN
  fileFirst := true
  toVec record := record.toValue.write
  decode := decodeExternalMutationRecord decoder
  fresh := ⟨0, none, ∅⟩
  accept := ExternalMutationJournalStateV1.accept
  sequence state := state.sequence
  tailDigest state := state.tailDigest
  recordDigest record := record.recordDigest
  emptyRecord line := .Corruption ("empty record at sequence " ++ toString line)
  io := .Io
  headError := .ProtectedHead
  headChanged := .ProtectedHeadChanged
  lengthChanged := .Corruption "journal length changed outside the held writer lock"
  isPoisoned := .Poisoned

end Format

end M1nd.Mcp

namespace M1nd.Mcp

open M1nd.Control
open M1nd.Library.Json
open M1nd.Library.Json.Value (sortKeys_object_inj sortKeys_object_ne_null sortKeys_ofOption_injective
  sortKeys_bool sortKeys_canonical sortKeys_ofNat sortKeys_string)

-- Different records have different canonical forms.

theorem ExternalMutationJournalPhaseV1.name_injective :
    Function.Injective ExternalMutationJournalPhaseV1.name := by
  intro a b h
  cases a <;> cases b <;> first | rfl | exact absurd h (by decide)

theorem sortKeys_ofNat_ne_null (n : Nat) : (Value.ofNat n).sortKeys ≠ .null := nofun

theorem canonical_prepare :
    Function.Injective fun prepare : ExternalMutationPrepareV1 => prepare.toValue.sortKeys := by
  intro a b h
  dsimp only [ExternalMutationPrepareV1.toValue] at h
  have h := sortKeys_object_inj (by rfl) (by simp) h
  simp only [List.map_cons, List.map_nil, List.cons.injEq, and_true, sortKeys_string,
    sortKeys_ofNat, Value.string.injEq, Value.ofNat_inj, sortKeys_canonical,
    sortKeys_optionalString, optionalString_injective.eq_iff,
    CanonicalValue.form_injective.eq_iff] at h
  exact ExternalMutationPrepareV1.ext_iff.mpr h

theorem canonical_publishedResult :
    Function.Injective fun result : ExternalMutationPublishedResultV1 => result.toValue.sortKeys := by
  intro a b h
  dsimp only [ExternalMutationPublishedResultV1.toValue] at h
  have h := sortKeys_object_inj (by rfl) (by simp) h
  simp only [List.map_cons, List.map_nil, List.cons.injEq, and_true, sortKeys_string,
    Value.string.injEq, sortKeys_canonical, sortKeys_bool, Value.bool.injEq,
    CanonicalValue.form_injective.eq_iff] at h
  exact ExternalMutationPublishedResultV1.ext_iff.mpr h

theorem canonical_checkpointAck :
    Function.Injective fun ack : BrainPromoteCheckpointAckV1 => ack.toValue.sortKeys := by
  intro a b h
  dsimp only [BrainPromoteCheckpointAckV1.toValue] at h
  have h := sortKeys_object_inj (by rfl) (by simp) h
  simp only [List.map_cons, List.map_nil, List.cons.injEq, and_true, sortKeys_string,
    sortKeys_ofNat, Value.string.injEq, Value.ofNat_inj] at h
  exact BrainPromoteCheckpointAckV1.ext_iff.mpr h

theorem canonical_reconciliationReceipt :
    Function.Injective fun receipt : BrainPromoteReconciliationReceiptV1 => receipt.toValue.sortKeys := by
  intro a b h
  dsimp only [BrainPromoteReconciliationReceiptV1.toValue] at h
  have h := sortKeys_object_inj (by rfl) (by simp) h
  simp only [List.map_cons, List.map_nil, List.cons.injEq, and_true, sortKeys_string,
    sortKeys_ofNat, Value.string.injEq, Value.ofNat_inj, sortKeys_bool, Value.bool.injEq,
    canonical_checkpointAck.eq_iff] at h
  exact BrainPromoteReconciliationReceiptV1.ext_iff.mpr h

theorem canonical_optionalNat :
    Function.Injective fun n : Option Nat => (Value.ofOption Value.ofNat n).sortKeys :=
  sortKeys_ofOption_injective (fun _ _ h => Value.ofNat_inj.mp h) sortKeys_ofNat_ne_null

theorem canonical_entry :
    Function.Injective fun entry : ExternalMutationJournalEntryV1 => entry.toValue.sortKeys := by
  intro a b h
  dsimp only [ExternalMutationJournalEntryV1.toValue] at h
  have h := sortKeys_object_inj (by rfl) (by simp) h
  simp only [List.map_cons, List.map_nil, List.cons.injEq, and_true, sortKeys_string,
    sortKeys_ofNat, Value.string.injEq, Value.ofNat_inj, sortKeys_optionalString,
    optionalString_injective.eq_iff, ExternalMutationJournalPhaseV1.name_injective.eq_iff,
    canonical_prepare.eq_iff, canonical_optionalNat.eq_iff,
    (sortKeys_ofOption_injective canonical_publishedResult fun _ => sortKeys_object_ne_null _).eq_iff,
    (sortKeys_ofOption_injective canonical_reconciliationReceipt fun _ => sortKeys_object_ne_null _).eq_iff] at h
  exact ExternalMutationJournalEntryV1.ext_iff.mpr h

theorem canonical_externalMutationCore :
    Function.Injective fun core : ExternalMutationJournalRecordCoreV1 => core.toValue.sortKeys := by
  intro a b h
  dsimp only [ExternalMutationJournalRecordCoreV1.toValue] at h
  have h := sortKeys_object_inj (by rfl) (by simp) h
  simp only [List.map_cons, List.map_nil, List.cons.injEq, and_true,
    sortKeys_ofNat, Value.ofNat_inj, sortKeys_optionalString,
    optionalString_injective.eq_iff, canonical_entry.eq_iff] at h
  exact ExternalMutationJournalRecordCoreV1.ext_iff.mpr h

theorem canonical_externalMutationRecord :
    Function.Injective fun record : ExternalMutationJournalRecordV1 => record.toValue.sortKeys := by
  intro a b h
  dsimp only [ExternalMutationJournalRecordV1.toValue] at h
  have h := sortKeys_object_inj (by rfl) (by simp) h
  simp only [List.map_cons, List.map_nil, List.cons.injEq, and_true, sortKeys_string,
    Value.string.injEq, canonical_externalMutationCore.eq_iff] at h
  exact ExternalMutationJournalRecordV1.ext_iff.mpr h

end M1nd.Mcp
