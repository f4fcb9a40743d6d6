import M1nd.Mcp.ExternalMutationJournal

namespace M1nd.Mcp

open M1nd.Control
open M1nd.Library.Checks
open M1nd.Library.Durable
open M1nd.Library.Json (Value)

abbrev ExternalMutationHandle := ChainedJournal.Handle ExternalMutationJournalStateV1

abbrev ExternalMutationWorld := ChainedJournal.World ExternalMutationJournalStateV1

abbrev ExternalMutationProgram :=
  Program ExternalMutationWorld ExternalMutationJournalError

-- What an operation decides: the entry it appends and the time of its record, or that there is
-- nothing left to do.
abbrev EntryPlan :=
  Except ExternalMutationJournalError (Option (ExternalMutationJournalEntryV1 × Nat))

def findEntry (state : ExternalMutationJournalStateV1) (code operationId : String) :
    Except ExternalMutationJournalError ExternalMutationJournalEntryV1 :=
  match state.entries[operationId]? with
  | some entry => .ok entry
  | none => .error (.Refused code operationId)

namespace ExternalMutationJournalStateV1

variable (state : ExternalMutationJournalStateV1)

section Write

variable [Sha256]

def operationIdOf (reservation : AuthorizationReservationV1) (authorizationSnapshotDigest : String)
    (prepare : ExternalMutationPrepareV1) : String :=
  digestCanonical EXTERNAL_MUTATION_OPERATION_ID_DIGEST_DOMAIN (.array [
    .string reservation.reservationId, .string reservation.leaseId,
    .string authorizationSnapshotDigest, prepare.toValue])

def preparedEntry (reservation : AuthorizationReservationV1) (authorizationSnapshotDigest : String)
    (prepare : ExternalMutationPrepareV1) (nowMs : Nat) : ExternalMutationJournalEntryV1 where
  operationId := operationIdOf reservation authorizationSnapshotDigest prepare
  reservationId := reservation.reservationId
  leaseId := reservation.leaseId
  authorizationSnapshotDigest := authorizationSnapshotDigest
  prepare := prepare
  phase := .Prepared
  outcomeDigest := none
  commitRecordDigest := none
  committedAt := none
  publishedResult := none
  publishedResultDigest := none
  reconciliationReceipt := none
  reconciliationReceiptDigest := none
  preparedAt := nowMs
  updatedAt := nowMs

def prepare (reservation : AuthorizationReservationV1) (authorizationSnapshotDigest : String)
    (prepare : ExternalMutationPrepareV1) (nowMs : Nat) : EntryPlan := do
  rejectIf (reservation.operationObjectDigest ≠ prepare.operationObjectDigest ∨
    !isDigest authorizationSnapshotDigest)
    (.Refused "external_mutation_prepare_binding_mismatch"
      "prepare does not bind the reserved object and signed receipt")
  let entry := preparedEntry reservation authorizationSnapshotDigest prepare nowMs
  rejectIf state.entries[entry.operationId]?.isSome
    (.Refused "external_mutation_duplicate_prepare" entry.operationId)
  return some (entry, nowMs)

omit [Sha256] in
def commit (operationId outcomeDigest : String) (committedAt : Nat) : EntryPlan := do
  rejectIf (!isDigest outcomeDigest)
    (.Refused "external_mutation_outcome_digest_invalid" "outcome digest must be canonical SHA-256")
  let entry ← findEntry state "external_mutation_prepare_not_found" operationId
  rejectIf (entry.phase ≠ .Prepared) (.NotInPhase "external_mutation_not_prepared" entry.phase)
  return some ({ entry with
    phase := .Committed
    outcomeDigest := some outcomeDigest
    committedAt := some committedAt
    updatedAt := committedAt }, committedAt)

-- The entry already carries this result under its digest.
def carriesResult (entry : ExternalMutationJournalEntryV1)
    (result : ExternalMutationPublishedResultV1) : Bool :=
  entry.publishedResult = some result && entry.publishedResultDigest = some result.digest

def carriesReceipt (entry : ExternalMutationJournalEntryV1)
    (receipt : BrainPromoteReconciliationReceiptV1) : Bool :=
  entry.reconciliationReceipt = some receipt &&
    entry.reconciliationReceiptDigest = some receipt.digest

def reconciledEntry (entry : ExternalMutationJournalEntryV1)
    (receipt : BrainPromoteReconciliationReceiptV1) (result : ExternalMutationPublishedResultV1)
    (nowMs : Nat) : ExternalMutationJournalEntryV1 :=
  { entry with
    phase := .Reconciled
    reconciliationReceipt := some receipt
    reconciliationReceiptDigest := some receipt.digest
    publishedResult := some result
    publishedResultDigest := some result.digest
    updatedAt := nowMs }

def markReconciled (operationId : String) (receipt : BrainPromoteReconciliationReceiptV1)
    (result : ExternalMutationPublishedResultV1) (nowMs : Nat) : EntryPlan := do
  let entry ← findEntry state "external_mutation_operation_not_found" operationId
  if entry.phase = .Reconciled then
    rejectIf (!(carriesReceipt entry receipt && carriesResult entry result))
      (.Refused "brain_promote_reconciliation_receipt_mismatch"
        "RECONCILED operation already carries a different receipt")
    return none
  else do
    rejectIf (entry.phase ≠ .Committed ∧ entry.phase ≠ .RecoveryRequired)
      (.NotInPhase "brain_promote_not_committed_for_reconciliation" entry.phase)
    let next := reconciledEntry entry receipt result nowMs
    validateReconciliationReceiptBinding next receipt
    validatePublishedResultBinding next result
    return some (next, nowMs)

def publishable (entry : ExternalMutationJournalEntryV1) : Bool :=
  if entry.prepare.semanticAction = "brain.promote" then
    entry.phase = .Reconciled && entry.reconciliationReceipt.isSome &&
      entry.reconciliationReceiptDigest.isSome
  else
    entry.phase = .Committed ||
      (entry.phase = .RecoveryRequired && entry.commitRecordDigest.isSome &&
        entry.committedAt.isSome)

def markPublished (operationId : String) (result : ExternalMutationPublishedResultV1)
    (nowMs : Nat) : EntryPlan := do
  let entry ← findEntry state "external_mutation_operation_not_found" operationId
  validatePublishedResultBinding entry result
  if entry.phase = .Published then
    rejectIf (!carriesResult entry result)
      (.Refused "external_mutation_published_result_mismatch"
        "PUBLISHED operation already carries a different sealed result")
    return none
  else do
    rejectIf (entry.phase = .Reconciled ∧ !carriesResult entry result)
      (.Refused "external_mutation_published_result_mismatch"
        "RECONCILED operation may only publish its already sealed result")
    rejectIf (!publishable entry) (.NotInPhase "external_mutation_not_committed" entry.phase)
    let publishedAt := max nowMs entry.updatedAt
    return some ({ entry with
      phase := .Published
      publishedResult := some result
      publishedResultDigest := some result.digest
      updatedAt := publishedAt }, publishedAt)

omit [Sha256] in
def markRecoveryRequired (operationId : String) (nowMs : Nat) : EntryPlan := do
  let entry ← findEntry state "external_mutation_operation_not_found" operationId
  rejectIf (entry.phase ≠ .Committed ∧
    !(entry.phase = .RecoveryRequired && entry.commitRecordDigest.isSome &&
      entry.committedAt.isSome))
    (.NotInPhase "external_mutation_not_committed" entry.phase)
  return some ({ entry with phase := .RecoveryRequired, updatedAt := nowMs }, nowMs)

end Write

-- What the broker is answered with, from the replayed entries.

def verifiedCommitWitness (operationId : String) :
    Except ExternalMutationJournalError ExternalMutationCommitWitnessV1 := do
  let entry ← findEntry state "external_mutation_operation_not_found" operationId
  rejectIf (entry.phase = .Prepared) (.NotInPhase "external_mutation_not_committed" entry.phase)
  match entry.commitRecordDigest, entry.committedAt with
  | none, _ => .error (.Corruption "committed operation has no replay-verified commit record")
  | _, none => .error (.Corruption "committed operation has no sealed commit timestamp")
  | some digest, some committedAt => return {
      reservationId := entry.reservationId
      leaseId := entry.leaseId
      operationObjectDigest := entry.prepare.operationObjectDigest
      authorizationSnapshotDigest := entry.authorizationSnapshotDigest
      journalRecordDigest := digest
      committedAt }

def verifiedPreparedAbortWitness (operationId : String) :
    Except ExternalMutationJournalError ExternalMutationPreparedAbortWitnessV1 := do
  let entry ← findEntry state "external_mutation_operation_not_found" operationId
  rejectIf (entry.phase ≠ .Prepared ∨ entry.commitRecordDigest.isSome ∨
    entry.outcomeDigest.isSome ∨ entry.committedAt.isSome)
    (.NotInPhase "external_mutation_not_exact_prepared" entry.phase)
  return {
    reservationId := entry.reservationId
    leaseId := entry.leaseId
    operationObjectDigest := entry.prepare.operationObjectDigest
    authorizationSnapshotDigest := entry.authorizationSnapshotDigest
    preparedAt := entry.preparedAt }

end ExternalMutationJournalStateV1

section Append

variable [Sha256]

def externalMutationRecord (state : ExternalMutationJournalStateV1)
    (entry : ExternalMutationJournalEntryV1) (nowMs : Nat) : ExternalMutationJournalRecordV1 :=
  .seal {
    sequence := state.sequence + 1
    entry
    previousRecordDigest := state.tailDigest
    recordedAt := nowMs }

-- `keep` is what the caller leaves in memory once the record is durable: a commit adds the
-- digest of its own record to the entry.
def chainEntry (keep : String → ExternalMutationJournalEntryV1 → ExternalMutationJournalEntryV1)
    (entry : ExternalMutationJournalEntryV1) (nowMs : Nat)
    (state : ExternalMutationJournalStateV1) :
    Except ExternalMutationJournalError
      (ExternalMutationJournalRecordV1 × ExternalMutationJournalStateV1) := do
  validateEntry entry
  let record := externalMutationRecord state entry nowMs
  return (record, {
    sequence := state.sequence + 1
    tailDigest := some record.recordDigest
    entries := state.entries.insert entry.operationId (keep record.recordDigest entry) })

def keepEntry (_ : String) (entry : ExternalMutationJournalEntryV1) :
    ExternalMutationJournalEntryV1 :=
  entry

def keepCommitted (recordDigest : String) (entry : ExternalMutationJournalEntryV1) :
    ExternalMutationJournalEntryV1 :=
  { entry with commitRecordDigest := some recordDigest }

variable (decoder : ExternalMutationDecoder)

def appendEntry
    (keep : String → ExternalMutationJournalEntryV1 → ExternalMutationJournalEntryV1)
    (plan : ExternalMutationJournalStateV1 → EntryPlan) :
    ExternalMutationProgram (Option (ExternalMutationJournalEntryV1 × String)) := do
  let { handle, .. } ← Program.get
  match ← Program.check (plan handle.state) with
  | none => return none
  | some (entry, nowMs) => do
      let record ← (externalMutationFormat decoder).append (chainEntry keep entry nowMs)
      return some (keep record.recordDigest entry, record.recordDigest)

-- `backend` tells whether a protected-head backend is configured.
def openExternalMutationJournal (backend : Bool) :
    Program ChainedJournal.Disk ExternalMutationJournalError ExternalMutationHandle :=
  (externalMutationFormat decoder).openJournal backend

end Append

-- Every operation of the journal that may write.
inductive ExternalMutationOperation
  | Prepare (reservation : AuthorizationReservationV1) (authorizationSnapshotDigest : String)
      (prepare : ExternalMutationPrepareV1) (nowMs : Nat)
  | Commit (operationId outcomeDigest : String) (committedAt : Nat)
  | MarkReconciled (operationId : String) (receipt : BrainPromoteReconciliationReceiptV1)
      (publishedResult : ExternalMutationPublishedResultV1) (nowMs : Nat)
  | MarkPublished (operationId : String) (publishedResult : ExternalMutationPublishedResultV1)
      (nowMs : Nat)
  | MarkRecoveryRequired (operationId : String) (nowMs : Nat)

section Operation

variable [Sha256]

def ExternalMutationOperation.plan (state : ExternalMutationJournalStateV1) :
    ExternalMutationOperation → EntryPlan
  | .Prepare reservation digest prepare nowMs => state.prepare reservation digest prepare nowMs
  | .Commit operationId outcomeDigest committedAt =>
      state.commit operationId outcomeDigest committedAt
  | .MarkReconciled operationId receipt result nowMs =>
      state.markReconciled operationId receipt result nowMs
  | .MarkPublished operationId result nowMs => state.markPublished operationId result nowMs
  | .MarkRecoveryRequired operationId nowMs => state.markRecoveryRequired operationId nowMs

def ExternalMutationOperation.keep :
    ExternalMutationOperation → String → ExternalMutationJournalEntryV1 →
      ExternalMutationJournalEntryV1
  | .Commit _ _ _ => keepCommitted
  | _ => keepEntry

def ExternalMutationOperation.program (decoder : ExternalMutationDecoder)
    (operation : ExternalMutationOperation) :
    ExternalMutationProgram (Option (ExternalMutationJournalEntryV1 × String)) :=
  appendEntry decoder operation.keep fun state => operation.plan state

end Operation

end M1nd.Mcp
