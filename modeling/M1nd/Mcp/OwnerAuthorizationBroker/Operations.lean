import M1nd.Mcp.OwnerAuthorizationBroker

namespace M1nd.Mcp

open M1nd.Control
open M1nd.Library.Checks
open M1nd.Library.Durable
open M1nd.Library.Json (Value)

abbrev BrokerHandle := ChainedJournal.Handle BrokerStateV1
abbrev BrokerWorld := ChainedJournal.World BrokerStateV1
abbrev BrokerProgram := Program BrokerWorld OwnerAuthorizationBrokerError

-- What an operation decides from the state of the broker: it leaves the lease as it is, or
-- appends a snapshot of the next one.
inductive LeaseMove
  | Keep (lease : OwnerAuthorizationLeaseV1)
  | Append (kind : BrokerJournalEventKindV1) (lease : OwnerAuthorizationLeaseV1)

abbrev LeasePlan := Except OwnerAuthorizationBrokerError LeaseMove

-- The parts the operations share.

def findLease (state : BrokerStateV1) (leaseId : String) :
    Except OwnerAuthorizationBrokerError OwnerAuthorizationLeaseV1 :=
  state.leases[leaseId]?.elim (.error (.Refused "authorization_lease_not_found" leaseId)) .ok

def exactReserved (state : BrokerStateV1) (reservation : AuthorizationReservationV1) (nowMs : Nat)
    (requireUnexpired : Bool) :
    Except OwnerAuthorizationBrokerError OwnerAuthorizationLeaseV1 := do
  let lease ← findLease state reservation.leaseId
  rejectIf (lease.state ≠ .Reserved ∨ lease.reservation ≠ some reservation ∨
    (requireUnexpired ∧ nowMs ≥ reservation.reservationExpiresAt))
    (.Refused "authorization_reservation_not_current"
      "reservation is stale, replayed, or expired")
  return lease

def authorityMoved (current : AuthorityRuntimeStateCoreV1)
    (receipt : AuthorityAuthorizationReceiptCoreV1) : Bool :=
  current.issuanceFrozen || current.safetyState ≠ .Healthy ||
    current.activeMode ≠ receipt.activeMode ||
    current.constitutionDigest ≠ receipt.constitutionDigest ||
    current.constitutionEpoch ≠ receipt.constitutionEpoch ||
    current.autonomyEpoch ≠ receipt.autonomyEpoch ||
    current.policyRegistryDigest ≠ receipt.policyRegistryDigest ||
    current.protectedEpoch ≠ receipt.protectedEpoch ||
    current.journalRootDigest ≠ receipt.journalRootDigest

def validateForFinalization (state : BrokerStateV1) (reservation : AuthorizationReservationV1)
    (current : AuthorityRuntimeStateCoreV1) (nowMs : Nat) :
    Except OwnerAuthorizationBrokerError OwnerAuthorizationLeaseV1 := do
  let lease ← exactReserved state reservation nowMs false
  let receipt := lease.authorizationReceipt.core
  rejectIf (authorityMoved current receipt ∨ nowMs ≥ receipt.expiresAt)
    (.Refused "authorization_state_changed_before_finalization"
      "freeze/RED, mode, policy, epoch, protected root, or expiry changed")
  rejectIf (nowMs ≥ reservation.reservationExpiresAt)
    (.Refused "authorization_reservation_not_current"
      "reservation expired before operation finalization")
  return lease

def finalizationSnapshot (current : AuthorityRuntimeStateCoreV1) (nowMs : Nat) :
    AuthorizationFinalizationSnapshotV1 where
  activeMode := current.activeMode
  constitutionEpoch := current.constitutionEpoch
  autonomyEpoch := current.autonomyEpoch
  protectedEpoch := current.protectedEpoch
  journalRootDigest := current.journalRootDigest
  revalidatedAt := nowMs

def requireReservation (lease : OwnerAuthorizationLeaseV1) (detail : String) :
    Except OwnerAuthorizationBrokerError AuthorizationReservationV1 :=
  lease.reservation.elim (.error (.Corruption detail)) .ok

def validateWalWitness (lease : OwnerAuthorizationLeaseV1) (witness : AuthorityWalCommitWitnessV1)
    (nowMs : Nat) : Except OwnerAuthorizationBrokerError Unit := do
  let reservation ← requireReservation lease "WAL finalization lease has no reservation"
  rejectIf (witness.phase ≠ .Commit ∨
    reservation.transactionId ≠ some witness.transactionId ∨
    witness.transactionDigest ≠ reservation.operationObjectDigest ∨
    witness.authorizationSnapshotDigest ≠ lease.authorizationReceipt.receiptDigest ∨
    !isDigest witness.terminalRecordDigest ∨ witness.committedAt > nowMs ∨
    witness.committedAt < lease.issuedAt ∨ witness.committedAt ≥ lease.expiresAt)
    (.Refused "authority_wal_witness_binding_mismatch"
      "commit witness does not bind the reserved receipt/object/time")

def validateExternalMutationWitness (lease : OwnerAuthorizationLeaseV1)
    (witness : ExternalMutationCommitWitnessV1) (nowMs : Nat) :
    Except OwnerAuthorizationBrokerError Unit := do
  let reservation ← requireReservation lease
    "external mutation finalization lease has no reservation"
  rejectIf (witness.reservationId ≠ reservation.reservationId ∨ witness.leaseId ≠ lease.leaseId ∨
    witness.operationObjectDigest ≠ reservation.operationObjectDigest ∨
    witness.authorizationSnapshotDigest ≠ lease.authorizationReceipt.receiptDigest ∨
    !isDigest witness.journalRecordDigest ∨ witness.committedAt > nowMs ∨
    witness.committedAt < lease.issuedAt ∨ witness.committedAt ≥ lease.expiresAt)
    (.Refused "external_mutation_witness_binding_mismatch"
      "commit witness does not bind the exact reservation, receipt, object, and time")

def ended (state : AuthorizationLeaseStateV1) (terminal : AuthorizationTerminalV1)
    (lease : OwnerAuthorizationLeaseV1) : OwnerAuthorizationLeaseV1 :=
  { lease with state, terminal := some terminal, revision := lease.revision + 1 }

def abortReservedLocked (current : OwnerAuthorizationLeaseV1) (reasonDigest : String)
    (nowMs : Nat) : LeasePlan := do
  rejectIf (!isDigest reasonDigest)
    (.Refused "invalid_abort_reason_digest" "abort reason must be a SHA-256 digest")
  return .Append .Aborted (ended .Aborted {
    kind := .Aborted
    outcomeDigest := reasonDigest
    walWitness := none
    externalMutationWitness := none
    terminalAt := nowMs } current)

def consumedByWal (witness : AuthorityWalCommitWitnessV1) (nowMs : Nat) :
    OwnerAuthorizationLeaseV1 → OwnerAuthorizationLeaseV1 :=
  ended .Consumed {
    kind := .WalCommitted
    outcomeDigest := witness.terminalRecordDigest
    walWitness := some witness
    externalMutationWitness := none
    terminalAt := nowMs }

def consumedByExternalMutation (witness : ExternalMutationCommitWitnessV1) (nowMs : Nat) :
    OwnerAuthorizationLeaseV1 → OwnerAuthorizationLeaseV1 :=
  ended .Consumed {
    kind := .ExternalMutationCommitted
    outcomeDigest := witness.journalRecordDigest
    walWitness := none
    externalMutationWitness := some witness
    terminalAt := nowMs }

def reservationExpired (lease : OwnerAuthorizationLeaseV1) (nowMs : Nat) : Bool :=
  lease.reservation.all fun reservation => nowMs ≥ reservation.reservationExpiresAt

namespace BrokerStateV1

section Issue

variable (config : OwnerAuthorizationBrokerConfigV1) (state : BrokerStateV1)

def issue (leaseId : String) (receipt : AuthorityAuthorizationReceiptV1) (nowMs : Nat) :
    LeasePlan := do
  rejectIf (isBlank leaseId ∨ !isDigest receipt.receiptDigest ∨
    receipt.core.authorizedAt > nowMs ∨ nowMs ≥ receipt.core.expiresAt ∨
    receipt.core.verifiedObjectDigest.utf8ByteSize ≠ 64)
    (.Refused "invalid_authorization_receipt"
      "receipt identity, digest, object, or time binding is invalid")
  rejectIf (state.leases[leaseId]?.isSome) (.Refused "duplicate_authorization_lease" leaseId)
  return .Append .Issued {
    schema := OWNER_AUTHORIZATION_LEASE_SCHEMA
    leaseId
    authorizationReceipt := receipt
    state := .Unused
    reservation := none
    finalizationSnapshot := none
    terminal := none
    issuedAt := nowMs
    expiresAt := receipt.core.expiresAt
    retainUntil := saturatingAdd receipt.core.expiresAt config.minimumTerminalRetentionMs
    revision := 1 }

variable [Sha256]

def reserveBoundOperation (leaseId transportSessionId ingressContextDigest
    operationObjectDigest : String) (transactionId : Option String) (nowMs : Nat) :
    LeasePlan := do
  rejectIf (!isDigest operationObjectDigest)
    (.Refused "invalid_authorization_operation_digest"
      "operation object must be a canonical SHA-256 digest")
  let current ← findLease state leaseId
  rejectIf (current.state ≠ .Unused)
    (.Refused "authorization_lease_not_unused" ("lease is " ++ current.state.debug))
  rejectIf (nowMs ≥ current.expiresAt ∨
    current.authorizationReceipt.core.transportSessionId ≠ transportSessionId ∨
    current.authorizationReceipt.core.ingressContextDigest ≠ ingressContextDigest)
    (.Refused "authorization_reservation_binding_mismatch"
      "lease is expired or transport/session binding differs")
  let reservationId := digestCanonical OWNER_AUTHORIZATION_RESERVATION_DIGEST_DOMAIN (.array [
    .string leaseId, .string current.authorizationReceipt.receiptDigest,
    .string transportSessionId, .string ingressContextDigest, .string operationObjectDigest,
    optionalString transactionId, .ofNat nowMs, .ofNat current.revision])
  return .Append .Reserved { current with
    state := .Reserved
    reservation := some {
      reservationId
      leaseId
      operationObjectDigest
      transactionId
      transportSessionId
      ingressContextDigest
      reservedAt := nowMs
      reservationExpiresAt :=
        min (saturatingAdd nowMs config.reservationTtlMs) current.expiresAt }
    revision := current.revision + 1 }

def reserve (leaseId transportSessionId ingressContextDigest operationObjectDigest : String)
    (nowMs : Nat) : LeasePlan := do
  let current ← findLease state leaseId
  rejectIf (current.authorizationReceipt.core.verifiedObjectDigest ≠ operationObjectDigest)
    (.Refused "authorization_operation_binding_mismatch"
      "operation digest differs from the verified authorization object")
  state.reserveBoundOperation config leaseId transportSessionId ingressContextDigest
    operationObjectDigest none nowMs

end Issue

end BrokerStateV1

def landBindingDiffers (receipt : AuthorityAuthorizationReceiptV1) (receiptVariant : AuthorityVariant)
    (positive : PositiveAuthorityTransactionV1) (nowMs : Nat) : Bool :=
  let binding := positive.binding
  let core := receipt.core
  core.action ≠ "mission.service.land" ||
    core.verifiedObjectDigest ≠ positive.actionPayloadDigest ||
    binding.organismId ≠ core.organismId || binding.brainId ≠ core.brainId ||
    binding.subjectId ≠ core.subjectId || binding.actionId ≠ "land" ||
    binding.capabilityId ≠ core.capabilityId ||
    some binding.capabilityKind ≠ core.capabilityKind ||
    binding.expectedHeadId ≠ core.missionHeadId ||
    binding.expectedActiveMode ≠ core.activeMode ||
    binding.expectedConstitutionEpoch ≠ core.constitutionEpoch ||
    binding.expectedAutonomyEpoch ≠ core.autonomyEpoch ||
    core.authorityDecisionDigest ≠ some positive.authorityDecisionDigest ||
    core.policyRegistryDigest ≠ positive.actionPolicyRegistryDigest ||
    receiptVariant ≠ positive.requiredAuthorityVariant ||
    binding.authorizationSnapshotDigest ≠ receipt.receiptDigest ||
    binding.issuedAt < core.authorizedAt || binding.expiresAt > core.expiresAt ||
    binding.issuedAt > nowMs || nowMs ≥ binding.expiresAt

def validateLandTransactionBinding (receipt : AuthorityAuthorizationReceiptV1)
    (transaction : AuthorityTransactionV1) (nowMs : Nat) :
    Except OwnerAuthorizationBrokerError Unit :=
  match transaction, receipt.core.authority with
  | .SafetyKernel _, _ =>
      .error (.Refused "land_requires_positive_authority"
        "landing cannot reserve a SAFETY_KERNEL transaction")
  | .PositiveAuthority positive, .Positive variant _ =>
      rejectIf (landBindingDiffers receipt variant positive nowMs)
        (.Refused "land_authorization_receipt_binding_mismatch"
          "transaction does not bind the exact positive receipt, LandIntent object, policy, identity, epochs, and time window")
  | .PositiveAuthority _, _ =>
      .error (.Refused "land_requires_positive_authority"
        "landing lease was not issued from positive sovereign authority")

namespace BrokerStateV1

section Land

variable [Sha256] (config : OwnerAuthorizationBrokerConfigV1) (state : BrokerStateV1)

def reserveLand (leaseId transportSessionId ingressContextDigest : String)
    (transaction : AuthorityTransactionV1) (nowMs : Nat) : LeasePlan := do
  let _ ← transaction.validate.mapError fun _ =>
    .Refused "invalid_land_authority_transaction" "the transaction does not validate"
  let current ← findLease state leaseId
  validateLandTransactionBinding current.authorizationReceipt transaction nowMs
  state.reserveBoundOperation config leaseId transportSessionId ingressContextDigest
    transaction.transactionDigest (some transaction.binding.transactionId) nowMs

end Land

variable (state : BrokerStateV1)

-- The first record of a finalization: from here on the commit may happen.
def prepareFinalization (reservation : AuthorizationReservationV1)
    (current : AuthorityRuntimeStateCoreV1) (nowMs : Nat) : LeasePlan := do
  let lease ← validateForFinalization state reservation current nowMs
  return .Append .FinalizationPrepared { lease with
    finalizationSnapshot := some (finalizationSnapshot current nowMs)
    revision := lease.revision + 1 }

def consumedNow (reservation : AuthorizationReservationV1) (current : AuthorityRuntimeStateCoreV1)
    (kind : AuthorizationTerminalKindV1) (outcomeDigest : String) (nowMs : Nat) : LeasePlan := do
  let lease ← validateForFinalization state reservation current nowMs
  return .Append .Consumed (ended .Consumed {
    kind
    outcomeDigest
    walWitness := none
    externalMutationWitness := none
    terminalAt := nowMs } { lease with
      finalizationSnapshot := some (finalizationSnapshot current nowMs) })

def finalizeRead (reservation : AuthorizationReservationV1) (current : AuthorityRuntimeStateCoreV1)
    (readResultDigest : String) (nowMs : Nat) : LeasePlan := do
  rejectIf (!isDigest readResultDigest)
    (.Refused "invalid_read_result_digest"
      "read finalization requires a canonical result digest")
  state.consumedNow reservation current .ReadCompleted readResultDigest nowMs

def admitNonWal (reservation : AuthorizationReservationV1) (current : AuthorityRuntimeStateCoreV1)
    (nowMs : Nat) : LeasePlan :=
  state.consumedNow reservation current .OperationAdmitted reservation.operationObjectDigest nowMs

-- The finalization snapshot of the lease is not looked at.
def abortReserved (reservation : AuthorizationReservationV1) (reasonDigest : String)
    (nowMs : Nat) : LeasePlan := do
  let current ← exactReserved state reservation nowMs false
  abortReservedLocked current reasonDigest nowMs

section Recover

variable [Sha256]

def recoverReserved (leaseId : String) (committedWitness : Option AuthorityWalCommitWitnessV1)
    (nowMs : Nat) : LeasePlan := do
  let current ← findLease state leaseId
  if current.state ≠ .Reserved then
    return .Keep current
  match committedWitness with
  | some witness => do
      rejectIf current.finalizationSnapshot.isNone
        (.Corruption "WAL commit exists without broker finalization snapshot")
      validateWalWitness current witness witness.committedAt
      return .Append .Consumed (consumedByWal witness nowMs current)
  | none =>
      if !reservationExpired current nowMs then
        return .Keep current
      else
        abortReservedLocked current (digestCanonical "m1nd-owner-authorization-recovery-abort-v1"
          (.array [.string leaseId, .ofNat nowMs])) nowMs

def recoverExternalReserved (leaseId : String)
    (committedWitness : Option ExternalMutationCommitWitnessV1) (nowMs : Nat) : LeasePlan := do
  let current ← findLease state leaseId
  if current.state ≠ .Reserved then
    return .Keep current
  match committedWitness with
  | none =>
      if current.finalizationSnapshot.isNone ∧ reservationExpired current nowMs then
        abortReservedLocked current
          (digestCanonical "m1nd-owner-external-authorization-recovery-abort-v1"
            (.array [.string leaseId, .ofNat nowMs])) nowMs
      else
        return .Keep current
  | some witness => do
      rejectIf current.finalizationSnapshot.isNone
        (.Corruption "external mutation commit exists without broker finalization snapshot")
      validateExternalMutationWitness current witness nowMs
      return .Append .Consumed (consumedByExternalMutation witness nowMs current)

def recoverExternalPreparedWithoutCommit (leaseId : String)
    (witness : ExternalMutationPreparedAbortWitnessV1) (nowMs : Nat) : LeasePlan := do
  let current ← findLease state leaseId
  if current.state ≠ .Reserved then
    return .Keep current
  let reservation ← requireReservation current "reserved external lease has no reservation"
  rejectIf (witness.leaseId ≠ current.leaseId ∨
    witness.reservationId ≠ reservation.reservationId ∨
    witness.operationObjectDigest ≠ reservation.operationObjectDigest ∨
    witness.authorizationSnapshotDigest ≠ current.authorizationReceipt.receiptDigest ∨
    witness.preparedAt < reservation.reservedAt ∨ witness.preparedAt ≥ current.expiresAt)
    (.Refused "external_mutation_prepared_abort_witness_mismatch"
      "protected PREPARED witness differs from the exact reservation and receipt")
  abortReservedLocked current (digestCanonical "m1nd-owner-external-prepared-abort-v1" (.array [
    .string witness.leaseId, .string witness.reservationId, .string witness.operationObjectDigest,
    .string witness.authorizationSnapshotDigest, .ofNat witness.preparedAt, .ofNat nowMs])) nowMs

def recoverExternalReservedWithoutJournal (leaseId : String)
    (witness : ExternalMutationJournalAbsenceWitnessV1) (nowMs : Nat) : LeasePlan := do
  let current ← findLease state leaseId
  if current.state ≠ .Reserved then
    return .Keep current
  rejectIf current.finalizationSnapshot.isSome
    (.Corruption "external finalization snapshot exists without outer journal PREPARED")
  let reservation ← requireReservation current "reserved external lease has no reservation"
  rejectIf (witness.leaseId ≠ current.leaseId ∨
    witness.reservationId ≠ reservation.reservationId ∨
    witness.operationObjectDigest ≠ reservation.operationObjectDigest ∨
    witness.authorizationSnapshotDigest ≠ current.authorizationReceipt.receiptDigest)
    (.Refused "external_mutation_journal_absence_witness_mismatch"
      "protected journal absence differs from the exact reservation and receipt")
  abortReservedLocked current (digestCanonical "m1nd-owner-external-no-journal-abort-v1" (.array [
    .string witness.leaseId, .string witness.reservationId, .string witness.operationObjectDigest,
    .string witness.authorizationSnapshotDigest, .ofNat nowMs])) nowMs

end Recover

-- The leases that gc may drop, in the order of their ids.
def gcCandidates (nowMs : Nat) (unreferenced : OwnerAuthorizationLeaseV1 → Bool) : List String :=
  (state.leases.toList.filter fun (_, lease) =>
    (lease.state = .Consumed || lease.state = .Aborted) && nowMs ≥ lease.retainUntil &&
      unreferenced lease).map fun (_, lease) => lease.leaseId

end BrokerStateV1

section Append

variable [Sha256]

def brokerRecord (state : BrokerStateV1) (kind : BrokerJournalEventKindV1) (leaseId : String)
    (lease : Option OwnerAuthorizationLeaseV1) (nowMs : Nat) : BrokerJournalRecordV1 :=
  .seal {
    sequence := state.sequence + 1
    eventKind := kind
    leaseId
    lease
    previousRecordDigest := state.tailDigest
    recordedAt := nowMs }

-- The record of `append_record`, with the leases the caller keeps once it is durable.
def chainRecord (record : BrokerStateV1 → BrokerJournalRecordV1)
    (keep : BTreeMap OwnerAuthorizationLeaseV1 → BTreeMap OwnerAuthorizationLeaseV1)
    (state : BrokerStateV1) :
    Except OwnerAuthorizationBrokerError (BrokerJournalRecordV1 × BrokerStateV1) := do
  (record state).validate (state.sequence + 1) state.tailDigest
  return (record state, {
    sequence := state.sequence + 1
    tailDigest := some (record state).recordDigest
    leases := keep state.leases })

variable (fromSlice : BrokerDecoder)

def appendSnapshot (kind : BrokerJournalEventKindV1) (lease : OwnerAuthorizationLeaseV1)
    (nowMs : Nat) : BrokerProgram Unit := do
  Program.check (validateLeaseShape lease)
  let _ ← (brokerFormat fromSlice).append (chainRecord
    (fun state => brokerRecord state kind lease.leaseId (some lease) nowMs)
    (fun leases => leases.insert lease.leaseId lease))

def appendTombstone (leaseId : String) (nowMs : Nat) : BrokerProgram Unit := do
  let _ ← (brokerFormat fromSlice).append (chainRecord
    (fun state => brokerRecord state .GcTombstone leaseId none nowMs)
    (fun leases => leases.erase leaseId))

def appendTombstones (nowMs : Nat) : List String → BrokerProgram Unit
  | [] => pure ()
  | leaseId :: leaseIds => do
      appendTombstone fromSlice leaseId nowMs
      appendTombstones nowMs leaseIds

-- An operation that appends at most one snapshot.
def perform (plan : BrokerStateV1 → LeasePlan) (nowMs : Nat) :
    BrokerProgram OwnerAuthorizationLeaseV1 := do
  let { handle, .. } ← Program.get
  match ← Program.check (plan handle.state) with
  | .Keep lease => return lease
  | .Append kind lease => do
      appendSnapshot fromSlice kind lease nowMs
      return lease

-- The second half of a finalization, from what became of the commit callback. A callback
-- that failed leaves the lease as it is.

def finishWal (next : OwnerAuthorizationLeaseV1) (commit : Outcome String AuthorityWalCommitWitnessV1)
    (nowMs : Nat) : BrokerProgram OwnerAuthorizationLeaseV1 :=
  match commit with
  | .crashed => Program.crash
  | .refused detail => Program.refuse (.CommitCallback detail)
  | .returned witness => do
      Program.check (validateWalWitness next witness nowMs)
      let consumed := consumedByWal witness nowMs next
      appendSnapshot fromSlice .Consumed consumed nowMs
      return consumed

def finishExternalMutation (next : OwnerAuthorizationLeaseV1)
    (commit : Outcome String ExternalMutationCommitWitnessV1) (nowMs : Nat) :
    BrokerProgram OwnerAuthorizationLeaseV1 :=
  match commit with
  | .crashed => Program.crash
  | .refused detail => Program.refuse (.ExternalCommitCallback detail)
  | .returned witness => do
      Program.check (validateExternalMutationWitness next witness nowMs)
      let consumed := consumedByExternalMutation witness nowMs next
      appendSnapshot fromSlice .Consumed consumed nowMs
      return consumed

def gc (nowMs : Nat) (unreferenced : OwnerAuthorizationLeaseV1 → Bool) :
    BrokerProgram (List String) := do
  let { handle, .. } ← Program.get
  let candidates := handle.state.gcCandidates nowMs unreferenced
  appendTombstones fromSlice nowMs candidates
  return candidates

-- `backend` tells whether a protected-head backend is configured.
def openBroker (config : OwnerAuthorizationBrokerConfigV1) (backend : Bool) :
    Program ChainedJournal.Disk OwnerAuthorizationBrokerError BrokerHandle := do
  Program.check (rejectIf
    (config.reservationTtlMs = 0 ∨ config.minimumTerminalRetentionMs = 0)
    (OwnerAuthorizationBrokerError.Refused "invalid_broker_config"
      "reservation TTL and terminal retention must be non-zero"))
  (brokerFormat fromSlice).openJournal backend

end Append

-- Every operation of the broker that may write. A commit callback is given by what becomes of
-- it.
inductive BrokerOperation
  | Issue (leaseId : String) (receipt : AuthorityAuthorizationReceiptV1)
  | Reserve (leaseId transportSessionId ingressContextDigest operationObjectDigest : String)
  | ReserveLand (leaseId transportSessionId ingressContextDigest : String)
      (transaction : AuthorityTransactionV1)
  | FinalizeWal (reservation : AuthorizationReservationV1) (current : AuthorityRuntimeStateCoreV1)
      (commit : Outcome String AuthorityWalCommitWitnessV1)
  | FinalizeExternalMutation (reservation : AuthorizationReservationV1)
      (current : AuthorityRuntimeStateCoreV1)
      (commit : Outcome String ExternalMutationCommitWitnessV1)
  | FinalizeRead (reservation : AuthorizationReservationV1) (current : AuthorityRuntimeStateCoreV1)
      (readResultDigest : String)
  | AdmitNonWal (reservation : AuthorizationReservationV1) (current : AuthorityRuntimeStateCoreV1)
  | AbortReserved (reservation : AuthorizationReservationV1) (reasonDigest : String)
  | RecoverReserved (leaseId : String) (committedWitness : Option AuthorityWalCommitWitnessV1)
  | RecoverExternalReserved (leaseId : String)
      (committedWitness : Option ExternalMutationCommitWitnessV1)
  | RecoverExternalPreparedWithoutCommit (leaseId : String)
      (preparedWitness : ExternalMutationPreparedAbortWitnessV1)
  | RecoverExternalReservedWithoutJournal (leaseId : String)
      (absenceWitness : ExternalMutationJournalAbsenceWitnessV1)
  | Gc (unreferenced : OwnerAuthorizationLeaseV1 → Bool)

section Operation

variable [Sha256] (fromSlice : BrokerDecoder) (config : OwnerAuthorizationBrokerConfigV1)

def BrokerOperation.program (operation : BrokerOperation) (nowMs : Nat) : BrokerProgram Unit :=
  match operation with
  | .Issue leaseId receipt => do
      let _ ← perform fromSlice (·.issue config leaseId receipt nowMs) nowMs
  | .Reserve leaseId session context object => do
      let _ ← perform fromSlice (·.reserve config leaseId session context object nowMs) nowMs
  | .ReserveLand leaseId session context transaction => do
      let _ ← perform fromSlice (·.reserveLand config leaseId session context transaction nowMs) nowMs
  | .FinalizeWal reservation current commit => do
      let next ← perform fromSlice (·.prepareFinalization reservation current nowMs) nowMs
      let _ ← finishWal fromSlice next commit nowMs
  | .FinalizeExternalMutation reservation current commit => do
      let next ← perform fromSlice (·.prepareFinalization reservation current nowMs) nowMs
      let _ ← finishExternalMutation fromSlice next commit nowMs
  | .FinalizeRead reservation current digest => do
      let _ ← perform fromSlice (·.finalizeRead reservation current digest nowMs) nowMs
  | .AdmitNonWal reservation current => do
      let _ ← perform fromSlice (·.admitNonWal reservation current nowMs) nowMs
  | .AbortReserved reservation reason => do
      let _ ← perform fromSlice (·.abortReserved reservation reason nowMs) nowMs
  | .RecoverReserved leaseId witness => do
      let _ ← perform fromSlice (·.recoverReserved leaseId witness nowMs) nowMs
  | .RecoverExternalReserved leaseId witness => do
      let _ ← perform fromSlice (·.recoverExternalReserved leaseId witness nowMs) nowMs
  | .RecoverExternalPreparedWithoutCommit leaseId witness => do
      let _ ← perform fromSlice (·.recoverExternalPreparedWithoutCommit leaseId witness nowMs) nowMs
  | .RecoverExternalReservedWithoutJournal leaseId witness => do
      let _ ← perform fromSlice
        (·.recoverExternalReservedWithoutJournal leaseId witness nowMs) nowMs
  | .Gc unreferenced => do
      let _ ← gc fromSlice nowMs unreferenced

end Operation

end M1nd.Mcp
