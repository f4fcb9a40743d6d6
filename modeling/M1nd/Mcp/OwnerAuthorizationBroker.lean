import M1nd.Control.Autonomy.Contract
import M1nd.Mcp.AuthorityWal
import M1nd.Mcp.ChainedJournal

namespace M1nd.Mcp

open M1nd.Control
open M1nd.Library.Checks
open M1nd.Library.Json (Bytes CanonicalValue Value utf8)

def OWNER_AUTHORIZATION_LEASE_SCHEMA : String := "m1nd-owner-authorization-lease-v1"
def OWNER_AUTHORIZATION_BROKER_RECORD_SCHEMA : String :=
  "m1nd-owner-authorization-broker-record-v1"
def OWNER_AUTHORIZATION_BROKER_RECORD_DIGEST_DOMAIN : String :=
  "m1nd-owner-authorization-broker-record-v1"
def OWNER_AUTHORIZATION_RESERVATION_DIGEST_DOMAIN : String :=
  "m1nd-owner-authorization-reservation-v1"
def OWNER_AUTHORIZATION_BROKER_HEAD_DOMAIN : String := "m1nd-owner-authorization-broker-head-v1"

-- Addition on u64, which stops at the largest value.
def saturatingAdd (n m : Nat) : Nat :=
  min (n + m) (2 ^ 64 - 1)

inductive AuthorizationLeaseStateV1
  | Unused
  | Reserved
  | Consumed
  | Aborted
deriving DecidableEq

def AuthorizationLeaseStateV1.name : AuthorizationLeaseStateV1 → String
  | .Unused => "UNUSED"
  | .Reserved => "RESERVED"
  | .Consumed => "CONSUMED"
  | .Aborted => "ABORTED"

-- The name the `Debug` form prints.
def AuthorizationLeaseStateV1.debug : AuthorizationLeaseStateV1 → String
  | .Unused => "Unused"
  | .Reserved => "Reserved"
  | .Consumed => "Consumed"
  | .Aborted => "Aborted"

inductive AuthorizationTerminalKindV1
  | OperationAdmitted
  | ExternalMutationCommitted
  | ReadCompleted
  | WalCommitted
  | Aborted
deriving DecidableEq

def AuthorizationTerminalKindV1.name : AuthorizationTerminalKindV1 → String
  | .OperationAdmitted => "OPERATION_ADMITTED"
  | .ExternalMutationCommitted => "EXTERNAL_MUTATION_COMMITTED"
  | .ReadCompleted => "READ_COMPLETED"
  | .WalCommitted => "WAL_COMMITTED"
  | .Aborted => "ABORTED"

-- The authority a receipt was issued from. What the broker does not look at is kept by its
-- JSON form.
inductive AuthorizationAuthorityV1
  | OrdinarySession (assurance : CanonicalValue)
  | Positive (variant : AuthorityVariant) (assurance : CanonicalValue)
  | Autonomous (variant : AuthorityVariant) (capabilityAssurance : CanonicalValue)
      (admissionReceiptDigest : String)
  | ServiceIdentity (serviceId : String) (assurance : CanonicalValue)
  | SafetyActuator (assurance : CanonicalValue)
deriving DecidableEq

def AuthorizationAuthorityV1.toValue : AuthorizationAuthorityV1 → Value
  | .OrdinarySession assurance =>
      .object [("ORDINARY_SESSION", .object [("assurance", assurance.form)])]
  | .Positive variant assurance => .object [("POSITIVE", .object [
      ("variant", .string variant.name), ("assurance", assurance.form)])]
  | .Autonomous variant assurance digest => .object [("AUTONOMOUS", .object [
      ("variant", .string variant.name), ("capability_assurance", assurance.form),
      ("admission_receipt_digest", .string digest)])]
  | .ServiceIdentity serviceId assurance => .object [("SERVICE_IDENTITY", .object [
      ("service_id", .string serviceId), ("assurance", assurance.form)])]
  | .SafetyActuator assurance =>
      .object [("SAFETY_ACTUATOR", .object [("assurance", assurance.form)])]

@[ext]
structure AuthorityAuthorizationReceiptCoreV1 where
  organismId : String
  repoId : String
  brainId : String
  subjectId : String
  role : CanonicalValue
  capabilityId : String
  capabilityKind : Option CapabilityKind
  verifiedObjectDigest : String
  missionId : Option String
  missionHeadId : Option String
  transportSessionId : String
  ingressContextDigest : String
  action : String
  ingress : CanonicalValue
  completeEffects : CanonicalValue
  activeMode : ActiveMode
  constitutionDigest : String
  constitutionEpoch : Nat
  autonomyEpoch : Nat
  protectedEpochAtDecision : Nat
  policyRegistryDigest : String
  exactPolicyTuple : CanonicalValue
  authorityDecisionDigest : Option String
  autonomyAdmissionReceiptDigest : Option String
  autonomyCommittedStateDigest : Option String
  autonomyProtectedRootDigest : Option String
  authority : AuthorizationAuthorityV1
  authorityBodyDigest : String
  replaySequence : Nat
  journalSequence : Nat
  journalRootDigest : String
  protectedEpoch : Nat
  authorizedAt : Nat
  expiresAt : Nat
deriving DecidableEq

def AuthorityAuthorizationReceiptCoreV1.toValue (core : AuthorityAuthorizationReceiptCoreV1) :
    Value :=
  .object [
    ("organism_id", .string core.organismId),
    ("repo_id", .string core.repoId),
    ("brain_id", .string core.brainId),
    ("subject_id", .string core.subjectId),
    ("role", core.role.form),
    ("capability_id", .string core.capabilityId),
    ("capability_kind", optionalString (core.capabilityKind.map CapabilityKind.name)),
    ("verified_object_digest", .string core.verifiedObjectDigest),
    ("mission_id", optionalString core.missionId),
    ("mission_head_id", optionalString core.missionHeadId),
    ("transport_session_id", .string core.transportSessionId),
    ("ingress_context_digest", .string core.ingressContextDigest),
    ("action", .string core.action),
    ("ingress", core.ingress.form),
    ("complete_effects", core.completeEffects.form),
    ("active_mode", .string core.activeMode.name),
    ("constitution_digest", .string core.constitutionDigest),
    ("constitution_epoch", .ofNat core.constitutionEpoch),
    ("autonomy_epoch", .ofNat core.autonomyEpoch),
    ("protected_epoch_at_decision", .ofNat core.protectedEpochAtDecision),
    ("policy_registry_digest", .string core.policyRegistryDigest),
    ("exact_policy_tuple", core.exactPolicyTuple.form),
    ("authority_decision_digest", optionalString core.authorityDecisionDigest),
    ("autonomy_admission_receipt_digest", optionalString core.autonomyAdmissionReceiptDigest),
    ("autonomy_committed_state_digest", optionalString core.autonomyCommittedStateDigest),
    ("autonomy_protected_root_digest", optionalString core.autonomyProtectedRootDigest),
    ("authority", core.authority.toValue),
    ("authority_body_digest", .string core.authorityBodyDigest),
    ("replay_sequence", .ofNat core.replaySequence),
    ("journal_sequence", .ofNat core.journalSequence),
    ("journal_root_digest", .string core.journalRootDigest),
    ("protected_epoch", .ofNat core.protectedEpoch),
    ("authorized_at", .ofNat core.authorizedAt),
    ("expires_at", .ofNat core.expiresAt)]

@[ext]
structure AuthorityAuthorizationReceiptV1 where
  schema : String
  core : AuthorityAuthorizationReceiptCoreV1
  receiptDigest : String
  issuer : String
  keyId : String
  algorithm : String
  signature : OpaqueSignature
deriving DecidableEq

def AuthorityAuthorizationReceiptV1.toValue (receipt : AuthorityAuthorizationReceiptV1) : Value :=
  .object [
    ("schema", .string receipt.schema),
    ("core", receipt.core.toValue),
    ("receipt_digest", .string receipt.receiptDigest),
    ("issuer", .string receipt.issuer),
    ("key_id", .string receipt.keyId),
    ("algorithm", .string receipt.algorithm),
    ("signature", receipt.signature.toValue)]

-- What the broker reads of the current authority state.
structure AuthorityRuntimeStateCoreV1 where
  activeMode : ActiveMode
  constitutionDigest : String
  constitutionEpoch : Nat
  autonomyEpoch : Nat
  policyRegistryDigest : String
  issuanceFrozen : Bool
  safetyState : SafetyState
  protectedEpoch : Nat
  journalRootDigest : String
deriving DecidableEq

@[ext]
structure AuthorizationReservationV1 where
  reservationId : String
  leaseId : String
  operationObjectDigest : String
  transactionId : Option String
  transportSessionId : String
  ingressContextDigest : String
  reservedAt : Nat
  reservationExpiresAt : Nat
deriving DecidableEq

def AuthorizationReservationV1.toValue (reservation : AuthorizationReservationV1) : Value :=
  .object [
    ("reservation_id", .string reservation.reservationId),
    ("lease_id", .string reservation.leaseId),
    ("operation_object_digest", .string reservation.operationObjectDigest),
    ("transaction_id", optionalString reservation.transactionId),
    ("transport_session_id", .string reservation.transportSessionId),
    ("ingress_context_digest", .string reservation.ingressContextDigest),
    ("reserved_at", .ofNat reservation.reservedAt),
    ("reservation_expires_at", .ofNat reservation.reservationExpiresAt)]

def AuthorityWalCommitWitnessV1.toValue (witness : AuthorityWalCommitWitnessV1) : Value :=
  .object [
    ("transaction_id", .string witness.transactionId),
    ("phase", .string witness.phase.name),
    ("transaction_digest", .string witness.transactionDigest),
    ("authorization_snapshot_digest", .string witness.authorizationSnapshotDigest),
    ("terminal_record_digest", .string witness.terminalRecordDigest),
    ("committed_at", .ofNat witness.committedAt)]

-- What the external mutation journal answers with; each is built there only.

@[ext]
structure ExternalMutationCommitWitnessV1 where
  reservationId : String
  leaseId : String
  operationObjectDigest : String
  authorizationSnapshotDigest : String
  journalRecordDigest : String
  committedAt : Nat
deriving DecidableEq

def ExternalMutationCommitWitnessV1.toValue (witness : ExternalMutationCommitWitnessV1) : Value :=
  .object [
    ("reservation_id", .string witness.reservationId),
    ("lease_id", .string witness.leaseId),
    ("operation_object_digest", .string witness.operationObjectDigest),
    ("authorization_snapshot_digest", .string witness.authorizationSnapshotDigest),
    ("journal_record_digest", .string witness.journalRecordDigest),
    ("committed_at", .ofNat witness.committedAt)]

structure ExternalMutationPreparedAbortWitnessV1 where
  reservationId : String
  leaseId : String
  operationObjectDigest : String
  authorizationSnapshotDigest : String
  preparedAt : Nat
deriving DecidableEq

structure ExternalMutationJournalAbsenceWitnessV1 where
  reservationId : String
  leaseId : String
  operationObjectDigest : String
  authorizationSnapshotDigest : String
deriving DecidableEq

@[ext]
structure AuthorizationFinalizationSnapshotV1 where
  activeMode : ActiveMode
  constitutionEpoch : Nat
  autonomyEpoch : Nat
  protectedEpoch : Nat
  journalRootDigest : String
  revalidatedAt : Nat
deriving DecidableEq

def AuthorizationFinalizationSnapshotV1.toValue (snapshot : AuthorizationFinalizationSnapshotV1) :
    Value :=
  .object [
    ("active_mode", .string snapshot.activeMode.name),
    ("constitution_epoch", .ofNat snapshot.constitutionEpoch),
    ("autonomy_epoch", .ofNat snapshot.autonomyEpoch),
    ("protected_epoch", .ofNat snapshot.protectedEpoch),
    ("journal_root_digest", .string snapshot.journalRootDigest),
    ("revalidated_at", .ofNat snapshot.revalidatedAt)]

@[ext]
structure AuthorizationTerminalV1 where
  kind : AuthorizationTerminalKindV1
  outcomeDigest : String
  walWitness : Option AuthorityWalCommitWitnessV1
  externalMutationWitness : Option ExternalMutationCommitWitnessV1
  terminalAt : Nat
deriving DecidableEq

-- The external witness is left out when there is none.
def AuthorizationTerminalV1.toValue (terminal : AuthorizationTerminalV1) : Value :=
  .object ([
    ("kind", .string terminal.kind.name),
    ("outcome_digest", .string terminal.outcomeDigest),
    ("wal_witness", .ofOption AuthorityWalCommitWitnessV1.toValue terminal.walWitness)] ++
    (terminal.externalMutationWitness.toList.map fun witness =>
      ("external_mutation_witness", witness.toValue)) ++
    [("terminal_at", .ofNat terminal.terminalAt)])

@[ext]
structure OwnerAuthorizationLeaseV1 where
  schema : String
  leaseId : String
  authorizationReceipt : AuthorityAuthorizationReceiptV1
  state : AuthorizationLeaseStateV1
  reservation : Option AuthorizationReservationV1
  finalizationSnapshot : Option AuthorizationFinalizationSnapshotV1
  terminal : Option AuthorizationTerminalV1
  issuedAt : Nat
  expiresAt : Nat
  retainUntil : Nat
  revision : Nat
deriving DecidableEq

def OwnerAuthorizationLeaseV1.toValue (lease : OwnerAuthorizationLeaseV1) : Value :=
  .object [
    ("schema", .string lease.schema),
    ("lease_id", .string lease.leaseId),
    ("authorization_receipt", lease.authorizationReceipt.toValue),
    ("state", .string lease.state.name),
    ("reservation", .ofOption AuthorizationReservationV1.toValue lease.reservation),
    ("finalization_snapshot",
      .ofOption AuthorizationFinalizationSnapshotV1.toValue lease.finalizationSnapshot),
    ("terminal", .ofOption AuthorizationTerminalV1.toValue lease.terminal),
    ("issued_at", .ofNat lease.issuedAt),
    ("expires_at", .ofNat lease.expiresAt),
    ("retain_until", .ofNat lease.retainUntil),
    ("revision", .ofNat lease.revision)]

inductive BrokerJournalEventKindV1
  | Issued
  | Reserved
  | FinalizationPrepared
  | Consumed
  | Aborted
  | GcTombstone
deriving DecidableEq

def BrokerJournalEventKindV1.name : BrokerJournalEventKindV1 → String
  | .Issued => "ISSUED"
  | .Reserved => "RESERVED"
  | .FinalizationPrepared => "FINALIZATION_PREPARED"
  | .Consumed => "CONSUMED"
  | .Aborted => "ABORTED"
  | .GcTombstone => "GC_TOMBSTONE"

@[ext]
structure BrokerJournalRecordCoreV1 where
  sequence : Nat
  eventKind : BrokerJournalEventKindV1
  leaseId : String
  lease : Option OwnerAuthorizationLeaseV1
  previousRecordDigest : Option String
  recordedAt : Nat
deriving DecidableEq

def BrokerJournalRecordCoreV1.toValue (core : BrokerJournalRecordCoreV1) : Value :=
  .object [
    ("sequence", .ofNat core.sequence),
    ("event_kind", .string core.eventKind.name),
    ("lease_id", .string core.leaseId),
    ("lease", .ofOption OwnerAuthorizationLeaseV1.toValue core.lease),
    ("previous_record_digest", optionalString core.previousRecordDigest),
    ("recorded_at", .ofNat core.recordedAt)]

@[ext]
structure BrokerJournalRecordV1 where
  schema : String
  core : BrokerJournalRecordCoreV1
  recordDigest : String
deriving DecidableEq

def BrokerJournalRecordV1.toValue (record : BrokerJournalRecordV1) : Value :=
  .object [
    ("schema", .string record.schema),
    ("core", record.core.toValue),
    ("record_digest", .string record.recordDigest)]

structure OwnerAuthorizationBrokerConfigV1 where
  reservationTtlMs : Nat
  minimumTerminalRetentionMs : Nat

inductive OwnerAuthorizationBrokerError
  | Io
  | Json
  | Corruption (detail : String)
  | Refused (code detail : String)
  | CommitCallback (detail : String)
  | ExternalCommitCallback (detail : String)
  | ProtectedHead (detail : ProtectedHeadError)
  | ProtectedHeadChanged
  | Poisoned

-- The shape of a lease, on which every record is checked.

def reservationMisshapen (lease : OwnerAuthorizationLeaseV1)
    (reservation : AuthorizationReservationV1) : Bool :=
  reservation.leaseId ≠ lease.leaseId ||
    isBlank reservation.transportSessionId ||
    !isDigest reservation.reservationId ||
    !isDigest reservation.operationObjectDigest ||
    reservation.transactionId.any isBlank ||
    !isDigest reservation.ingressContextDigest ||
    reservation.reservedAt ≥ reservation.reservationExpiresAt ||
    reservation.reservationExpiresAt > lease.expiresAt

def stateShape (lease : OwnerAuthorizationLeaseV1) : Bool :=
  match lease.state with
  | .Unused =>
      lease.reservation.isNone && lease.finalizationSnapshot.isNone && lease.terminal.isNone
  | .Reserved => lease.reservation.isSome && lease.terminal.isNone
  | .Consumed | .Aborted => lease.reservation.isSome && lease.terminal.isSome

def witnessShape (terminal : AuthorizationTerminalV1) : Bool :=
  match terminal.kind with
  | .WalCommitted => terminal.walWitness.isSome && terminal.externalMutationWitness.isNone
  | .ExternalMutationCommitted =>
      terminal.walWitness.isNone && terminal.externalMutationWitness.isSome
  | .OperationAdmitted | .ReadCompleted | .Aborted =>
      terminal.walWitness.isNone && terminal.externalMutationWitness.isNone

def validateLeaseShape (lease : OwnerAuthorizationLeaseV1) :
    Except OwnerAuthorizationBrokerError Unit := do
  rejectIf (lease.schema ≠ OWNER_AUTHORIZATION_LEASE_SCHEMA ∨ isBlank lease.leaseId ∨
    lease.issuedAt ≥ lease.expiresAt ∨ lease.revision = 0 ∨
    !isDigest lease.authorizationReceipt.receiptDigest)
    (.Corruption "invalid authorization lease shape")
  rejectIf (lease.reservation.any (reservationMisshapen lease))
    (.Corruption "invalid authorization reservation shape")
  rejectIf (!stateShape lease)
    (.Corruption "lease state and reservation/finalization fields diverge")
  rejectIf (lease.terminal.any fun terminal =>
    !witnessShape terminal || !isDigest terminal.outcomeDigest)
    (.Corruption "lease terminal kind and witness diverge")

-- The chain: each record is sealed over its core and names the one before it.

section Chain

variable [Sha256]

def BrokerJournalRecordCoreV1.digest (core : BrokerJournalRecordCoreV1) : String :=
  digestCanonical OWNER_AUTHORIZATION_BROKER_RECORD_DIGEST_DOMAIN core.toValue

def BrokerJournalRecordV1.seal (core : BrokerJournalRecordCoreV1) : BrokerJournalRecordV1 where
  schema := OWNER_AUTHORIZATION_BROKER_RECORD_SCHEMA
  core := core
  recordDigest := core.digest

def BrokerJournalRecordV1.validate (record : BrokerJournalRecordV1) (expectedSequence : Nat)
    (expectedPrevious : Option String) : Except OwnerAuthorizationBrokerError Unit := do
  rejectIf (record.schema ≠ OWNER_AUTHORIZATION_BROKER_RECORD_SCHEMA ∨
    record.core.sequence ≠ expectedSequence ∨
    record.core.previousRecordDigest ≠ expectedPrevious ∨ isBlank record.core.leaseId)
    (.Corruption ("broker chain mismatch at sequence " ++ toString expectedSequence))
  rejectIf (!isDigest record.recordDigest ∨ record.core.digest ≠ record.recordDigest)
    (.Corruption ("broker digest mismatch at sequence " ++ toString expectedSequence))
  match record.core.eventKind with
  | .GcTombstone =>
      rejectIf record.core.lease.isSome (.Corruption "GC tombstone unexpectedly carries a lease")
  | _ =>
      rejectIf record.core.lease.isNone (.Corruption "non-GC broker record omits lease snapshot")

end Chain

def legalLeaseTransition (previous next : AuthorizationLeaseStateV1)
    (kind : BrokerJournalEventKindV1) : Bool :=
  match previous, next, kind with
  | .Unused, .Reserved, .Reserved => true
  | .Reserved, .Reserved, .FinalizationPrepared => true
  | .Reserved, .Consumed, .Consumed => true
  | .Reserved, .Aborted, .Aborted => true
  | _, _, _ => false

def applyReplayedRecord (leases : BTreeMap OwnerAuthorizationLeaseV1)
    (record : BrokerJournalRecordV1) :
    Except OwnerAuthorizationBrokerError (BTreeMap OwnerAuthorizationLeaseV1) :=
  match record.core.eventKind, record.core.lease with
  | .GcTombstone, _ => do
      rejectIf (leases[record.core.leaseId]?.isNone)
        (.Corruption "GC tombstone references an unknown lease")
      return leases.erase record.core.leaseId
  | _, none => .error (.Corruption "record validation proved lease")
  | kind, some lease => do
      validateLeaseShape lease
      rejectIf (lease.leaseId ≠ record.core.leaseId) (.Corruption "record/lease id mismatch")
      match leases[lease.leaseId]? with
      | none =>
          rejectIf (kind ≠ .Issued ∨ lease.state ≠ .Unused)
            (.Corruption "lease revision/event replay mismatch")
      | some previous => do
          rejectIf (lease.revision ≠ previous.revision + 1)
            (.Corruption "lease revision/event replay mismatch")
          rejectIf (!legalLeaseTransition previous.state lease.state kind)
            (.Corruption "illegal durable lease transition")
      return leases.insert lease.leaseId lease

-- What the broker keeps in memory.
structure BrokerStateV1 where
  sequence : Nat
  tailDigest : Option String
  leases : BTreeMap OwnerAuthorizationLeaseV1

section Format

variable [Sha256]

def BrokerStateV1.accept (state : BrokerStateV1) (record : BrokerJournalRecordV1) :
    Except OwnerAuthorizationBrokerError BrokerStateV1 := do
  record.validate (state.sequence + 1) state.tailDigest
  let leases ← applyReplayedRecord state.leases record
  return { sequence := state.sequence + 1, tailDigest := some record.recordDigest, leases }

-- What the decoder of serde_json answers on the bytes of one line.
abbrev BrokerDecoder := Bytes → Option BrokerJournalRecordV1

-- The broker looks at the protected head before it looks at the file.
def brokerFormat (fromSlice : BrokerDecoder) : ChainedJournal.Format BrokerJournalRecordV1
    BrokerStateV1 OwnerAuthorizationBrokerError where
  headDomain := OWNER_AUTHORIZATION_BROKER_HEAD_DOMAIN
  fileFirst := false
  toVec record := canonicalJson record.toValue
  decode _ line := (fromSlice line).elim (.error .Json) .ok
  fresh := ⟨0, none, ∅⟩
  accept := BrokerStateV1.accept
  sequence state := state.sequence
  tailDigest state := state.tailDigest
  recordDigest record := record.recordDigest
  emptyRecord line := .Corruption ("empty broker record at line " ++ toString line)
  io := .Io
  headError := .ProtectedHead
  headChanged := .ProtectedHeadChanged
  lengthChanged := .Corruption "broker journal length changed outside owner serial"
  isPoisoned := .Poisoned

end Format

end M1nd.Mcp

namespace M1nd.Mcp

open M1nd.Control
open M1nd.Library.Json
open M1nd.Library.Json.Value (sortKeys_object_inj sortKeys_object_ne_null sortKeys_ofOption_injective
  sortKeys_ofNat sortKeys_single sortKeys_string sortKeys_canonical)

-- Different records have different canonical forms.

theorem AuthorizationLeaseStateV1.name_injective :
    Function.Injective AuthorizationLeaseStateV1.name := by
  intro a b h
  cases a <;> cases b <;> first | rfl | exact absurd h (by decide)

theorem AuthorizationTerminalKindV1.name_injective :
    Function.Injective AuthorizationTerminalKindV1.name := by
  intro a b h
  cases a <;> cases b <;> first | rfl | exact absurd h (by decide)

theorem BrokerJournalEventKindV1.name_injective :
    Function.Injective BrokerJournalEventKindV1.name := by
  intro a b h
  cases a <;> cases b <;> first | rfl | exact absurd h (by decide)

theorem canonical_authority :
    Function.Injective fun authority : AuthorizationAuthorityV1 => authority.toValue.sortKeys := by
  intro a b h
  cases a <;> cases b <;>
    simp only [AuthorizationAuthorityV1.toValue, sortKeys_single, Value.object.injEq, List.cons.injEq,
      Prod.mk.injEq, true_and, and_true, String.reduceEq, false_and, sortKeys_canonical,
      CanonicalValue.form_injective.eq_iff] at h
  case OrdinarySession.OrdinarySession => rw [h]
  case SafetyActuator.SafetyActuator => rw [h]
  case Positive.Positive =>
      have h := sortKeys_object_inj (by rfl) (by simp) h
      simp only [List.map_cons, List.map_nil, List.cons.injEq, and_true, sortKeys_string,
        sortKeys_canonical, Value.string.injEq, AuthorityVariant.name_injective.eq_iff,
        CanonicalValue.form_injective.eq_iff] at h
      rw [h.1, h.2]
  case Autonomous.Autonomous =>
      have h := sortKeys_object_inj (by rfl) (by simp) h
      simp only [List.map_cons, List.map_nil, List.cons.injEq, and_true, sortKeys_string,
        sortKeys_canonical, Value.string.injEq, AuthorityVariant.name_injective.eq_iff,
        CanonicalValue.form_injective.eq_iff] at h
      rw [h.1, h.2.1, h.2.2]
  case ServiceIdentity.ServiceIdentity =>
      have h := sortKeys_object_inj (by rfl) (by simp) h
      simp only [List.map_cons, List.map_nil, List.cons.injEq, and_true, sortKeys_string,
        sortKeys_canonical, Value.string.injEq, CanonicalValue.form_injective.eq_iff] at h
      rw [h.1, h.2]

theorem canonical_receiptCore :
    Function.Injective fun core : AuthorityAuthorizationReceiptCoreV1 => core.toValue.sortKeys := by
  intro a b h
  dsimp only [AuthorityAuthorizationReceiptCoreV1.toValue] at h
  have h := sortKeys_object_inj (by rfl) (by simp) h
  simp only [List.map_cons, List.map_nil, List.cons.injEq, and_true, sortKeys_string, sortKeys_ofNat,
    sortKeys_canonical, sortKeys_optionalString, Value.string.injEq, Value.ofNat_inj,
    optionalString_injective.eq_iff, ActiveMode.name_injective.eq_iff,
    CanonicalValue.form_injective.eq_iff, canonical_authority.eq_iff,
    (Option.map_injective CapabilityKind.name_injective).eq_iff] at h
  exact AuthorityAuthorizationReceiptCoreV1.ext_iff.mpr h

theorem canonical_receipt :
    Function.Injective fun receipt : AuthorityAuthorizationReceiptV1 => receipt.toValue.sortKeys := by
  intro a b h
  dsimp only [AuthorityAuthorizationReceiptV1.toValue] at h
  have h := sortKeys_object_inj (by rfl) (by simp) h
  simp only [List.map_cons, List.map_nil, List.cons.injEq, and_true, sortKeys_string,
    Value.string.injEq, canonical_receiptCore.eq_iff, sortKeys_signature, OpaqueSignature.toValue_injective.eq_iff] at h
  exact AuthorityAuthorizationReceiptV1.ext_iff.mpr h

theorem canonical_reservation :
    Function.Injective fun reservation : AuthorizationReservationV1 => reservation.toValue.sortKeys := by
  intro a b h
  dsimp only [AuthorizationReservationV1.toValue] at h
  have h := sortKeys_object_inj (by rfl) (by simp) h
  simp only [List.map_cons, List.map_nil, List.cons.injEq, and_true, sortKeys_string,
    sortKeys_ofNat, Value.string.injEq, Value.ofNat_inj,
    sortKeys_optionalString, optionalString_injective.eq_iff] at h
  exact AuthorizationReservationV1.ext_iff.mpr h

theorem canonical_walWitness :
    Function.Injective fun witness : AuthorityWalCommitWitnessV1 => witness.toValue.sortKeys := by
  intro a b h
  dsimp only [AuthorityWalCommitWitnessV1.toValue] at h
  have h := sortKeys_object_inj (by rfl) (by simp) h
  simp only [List.map_cons, List.map_nil, List.cons.injEq, and_true, sortKeys_string,
    sortKeys_ofNat, Value.string.injEq, Value.ofNat_inj,
    AuthorityWalPhase.name_injective.eq_iff] at h
  exact AuthorityWalCommitWitnessV1.ext_iff.mpr h

theorem canonical_externalMutationWitness :
    Function.Injective fun witness : ExternalMutationCommitWitnessV1 => witness.toValue.sortKeys := by
  intro a b h
  dsimp only [ExternalMutationCommitWitnessV1.toValue] at h
  have h := sortKeys_object_inj (by rfl) (by simp) h
  simp only [List.map_cons, List.map_nil, List.cons.injEq, and_true, sortKeys_string,
    sortKeys_ofNat, Value.string.injEq, Value.ofNat_inj] at h
  exact ExternalMutationCommitWitnessV1.ext_iff.mpr h

theorem canonical_finalizationSnapshot :
    Function.Injective fun snapshot : AuthorizationFinalizationSnapshotV1 => snapshot.toValue.sortKeys := by
  intro a b h
  dsimp only [AuthorizationFinalizationSnapshotV1.toValue] at h
  have h := sortKeys_object_inj (by rfl) (by simp) h
  simp only [List.map_cons, List.map_nil, List.cons.injEq, and_true, sortKeys_string,
    sortKeys_ofNat, Value.string.injEq, Value.ofNat_inj,
    ActiveMode.name_injective.eq_iff] at h
  exact AuthorizationFinalizationSnapshotV1.ext_iff.mpr h

-- The external witness is a member of the terminal only when there is one.
theorem canonical_terminal :
    Function.Injective fun terminal : AuthorizationTerminalV1 => terminal.toValue.sortKeys := by
  intro a b h
  obtain ⟨akind, adigest, awal, aexternal, aat⟩ := a
  obtain ⟨bkind, bdigest, bwal, bexternal, bat⟩ := b
  dsimp only [AuthorizationTerminalV1.toValue] at h
  have hlength := (Value.sortKeys_object_perm h).length_eq
  have hwal := sortKeys_ofOption_injective canonical_walWitness fun _ => sortKeys_object_ne_null _
  cases aexternal <;> cases bexternal
  · have h := sortKeys_object_inj (by rfl) (by simp) h
    simp only [List.map_cons, List.map_nil, List.nil_append, List.cons_append, Option.toList_none,
      List.cons.injEq, and_true, sortKeys_string, sortKeys_ofNat, Value.string.injEq,
      Value.ofNat_inj, AuthorizationTerminalKindV1.name_injective.eq_iff, hwal.eq_iff] at h
    obtain ⟨rfl, rfl, rfl, rfl⟩ := h
    rfl
  · simp at hlength
  · simp at hlength
  · have h := sortKeys_object_inj (by rfl) (by simp) h
    simp only [List.map_cons, List.map_nil, List.nil_append, List.cons_append, Option.toList_some,
      List.cons.injEq, and_true, sortKeys_string, sortKeys_ofNat, Value.string.injEq,
      Value.ofNat_inj, AuthorizationTerminalKindV1.name_injective.eq_iff, hwal.eq_iff,
      canonical_externalMutationWitness.eq_iff] at h
    obtain ⟨rfl, rfl, rfl, rfl, rfl⟩ := h
    rfl

theorem canonical_lease :
    Function.Injective fun lease : OwnerAuthorizationLeaseV1 => lease.toValue.sortKeys := by
  intro a b h
  dsimp only [OwnerAuthorizationLeaseV1.toValue] at h
  have h := sortKeys_object_inj (by rfl) (by simp) h
  simp only [List.map_cons, List.map_nil, List.cons.injEq, and_true, sortKeys_string,
    sortKeys_ofNat, Value.string.injEq, Value.ofNat_inj,
    AuthorizationLeaseStateV1.name_injective.eq_iff, canonical_receipt.eq_iff,
    (sortKeys_ofOption_injective canonical_reservation fun _ => sortKeys_object_ne_null _).eq_iff, 
    (sortKeys_ofOption_injective canonical_finalizationSnapshot fun _ => sortKeys_object_ne_null _).eq_iff,
    (sortKeys_ofOption_injective canonical_terminal fun _ => sortKeys_object_ne_null _).eq_iff] at h
  exact OwnerAuthorizationLeaseV1.ext_iff.mpr h

theorem canonical_recordCore :
    Function.Injective fun core : BrokerJournalRecordCoreV1 => core.toValue.sortKeys := by
  intro a b h
  dsimp only [BrokerJournalRecordCoreV1.toValue] at h
  have h := sortKeys_object_inj (by rfl) (by simp) h
  simp only [List.map_cons, List.map_nil, List.cons.injEq, and_true, sortKeys_string,
    sortKeys_ofNat, Value.string.injEq, Value.ofNat_inj,
    BrokerJournalEventKindV1.name_injective.eq_iff, (sortKeys_ofOption_injective canonical_lease fun _ => sortKeys_object_ne_null _).eq_iff,
    sortKeys_optionalString, optionalString_injective.eq_iff] at h
  exact BrokerJournalRecordCoreV1.ext_iff.mpr h

theorem canonical_record :
    Function.Injective fun record : BrokerJournalRecordV1 => record.toValue.sortKeys := by
  intro a b h
  dsimp only [BrokerJournalRecordV1.toValue] at h
  have h := sortKeys_object_inj (by rfl) (by simp) h
  simp only [List.map_cons, List.map_nil, List.cons.injEq, and_true, sortKeys_string,
    Value.string.injEq, canonical_recordCore.eq_iff] at h
  exact BrokerJournalRecordV1.ext_iff.mpr h

-- Reading back by the inverse of the writer.
theorem canonicalJson_record_injective :
    Function.Injective fun record : BrokerJournalRecordV1 => canonicalJson record.toValue :=
  fun _ _ h => canonical_record (write_injective h)

end M1nd.Mcp
