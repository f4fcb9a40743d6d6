import M1nd.Control.Policy
import M1nd.Library.Json.Canonical

namespace M1nd.Control

open M1nd.Library.Json
open M1nd.Library.Checks

def POSITIVE_AUTHORITY_TRANSACTION_SCHEMA : String := "m1nd-positive-authority-transaction-v1"
def SAFETY_KERNEL_TRANSACTION_SCHEMA : String := "m1nd-safety-kernel-transaction-v1"
def AUTHORITY_WAL_RECORD_SCHEMA : String := "m1nd-authority-wal-record-v1"

def AUTHORITY_TRANSACTION_DIGEST_DOMAIN : String := "m1nd-authority-transaction-v1"
def AUTHORITY_WAL_PAYLOAD_DIGEST_DOMAIN : String := "m1nd-authority-wal-payload-v1"
def AUTHORITY_WAL_RECORD_DIGEST_DOMAIN : String := "m1nd-authority-wal-record-v1"
def AUTHORITY_WAL_RECORD_SIGNATURE_DOMAIN : String := "m1nd-authority-wal-record-signature-v1"

def AUTHORITY_WAL_SIGNATURE_PREFIX : Bytes := utf8 "m1nd-authority-wal-signature-message-v1\x00"

inductive CapabilityKind
  | Human
  | Autonomy
  | Safety
deriving DecidableEq

def CapabilityKind.name : CapabilityKind → String
  | .Human => "HUMAN"
  | .Autonomy => "AUTONOMY"
  | .Safety => "SAFETY"

@[ext]
structure AuthorityTransactionBindingV1 where
  transactionId : String
  organismId : String
  brainId : String
  subjectId : String
  actionId : String
  idempotencyKey : String
  intentCoreRef : String
  intentDigest : String
  intentCanonicalizationVersion : String
  capabilityId : String
  capabilityKind : CapabilityKind
  nonce : String
  expectedHeadId : Option String
  expectedActiveMode : ActiveMode
  expectedActivationReceiptId : Option String
  expectedConstitutionEpoch : Nat
  expectedAutonomyEpoch : Nat
  expectedStoreEpoch : Nat
  sentinelVerdictDigest : Option String
  authorizationSnapshotDigest : String
  issuedAt : Nat
  expiresAt : Nat
deriving DecidableEq

@[ext]
structure PositiveAuthorityTransactionV1 where
  schema : String
  binding : AuthorityTransactionBindingV1
  authorityDecisionDigest : String
  identityRoleBindingDigest : String
  requiredAuthorityVariant : AuthorityVariant
  actionPolicyRegistryDigest : String
  classifierDecisionDigest : String
  expectedPendingRedSetDigest : String
  expectedRedLatchEpoch : Nat
  expectedStoreVersion : Nat
  expectedBoundaryVersion : Nat
  expectedContractVersion : Nat
  actionPayloadDigest : String
  issuer : String
  keyId : String
  algorithm : String
  transactionDigest : String
  signature : OpaqueSignature
deriving DecidableEq

@[ext]
structure SafetyKernelTransactionV1 where
  schema : String
  binding : AuthorityTransactionBindingV1
  safetyIntentDigest : String
  safetyIntentCoreRef : String
  safetyIntentCanonicalizationVersion : String
  safetyAttemptId : String
  sentinelRedVerdictDigest : String
  redLatchReceiptDigest : String
  actuatorIdentityKeyBinaryPolicyDigest : String
  allowedNegativeActionsDigest : String
  affectedGrantsScopeDigest : String
  rollbackCandidatePlanDigest : String
  expectedNextAutonomyEpoch : Nat
  positiveAuthorityDecisionForbidden : Bool
  issuer : String
  keyId : String
  algorithm : String
  transactionDigest : String
  signature : OpaqueSignature
deriving DecidableEq

inductive AuthorityTransactionV1
  | PositiveAuthority (transaction : PositiveAuthorityTransactionV1)
  | SafetyKernel (transaction : SafetyKernelTransactionV1)
deriving DecidableEq

inductive AuthorityWalPhase
  | Prepare
  | Provisional
  | Commit
  | Abort
deriving DecidableEq

def AuthorityWalPhase.name : AuthorityWalPhase → String
  | .Prepare => "PREPARE"
  | .Provisional => "PROVISIONAL"
  | .Commit => "COMMIT"
  | .Abort => "ABORT"

def AuthorityWalPhase.isTerminal (phase : AuthorityWalPhase) : Bool :=
  phase = .Commit || phase = .Abort

structure AuthorityWalPrepareV1 where
  transaction : AuthorityTransactionV1
deriving DecidableEq

structure AuthorityWalProvisionalV1 where
  provisionalEffectsDigest : String
deriving DecidableEq

@[ext]
structure AuthorityWalCommitV1 where
  committedAt : Nat
  protectedTimeEvidenceDigest : String
  authorizationSnapshotDigest : String
  terminalOutcomeDigest : String
deriving DecidableEq

@[ext]
structure AuthorityWalAbortV1 where
  abortedAt : Nat
  reasonDigest : String
  terminalOutcomeDigest : String
deriving DecidableEq

inductive AuthorityWalPayloadV1
  | Prepare (payload : AuthorityWalPrepareV1)
  | Provisional (payload : AuthorityWalProvisionalV1)
  | Commit (payload : AuthorityWalCommitV1)
  | Abort (payload : AuthorityWalAbortV1)
deriving DecidableEq

def AuthorityWalPayloadV1.phase : AuthorityWalPayloadV1 → AuthorityWalPhase
  | .Prepare _ => .Prepare
  | .Provisional _ => .Provisional
  | .Commit _ => .Commit
  | .Abort _ => .Abort

@[ext]
structure AuthorityWalRecordV1 where
  schema : String
  sequence : Nat
  phase : AuthorityWalPhase
  transactionId : String
  idempotencyKey : String
  intentCoreRef : String
  intentDigest : String
  expectedHeadId : Option String
  expectedConstitutionEpoch : Nat
  expectedAutonomyEpoch : Nat
  expectedStoreEpoch : Nat
  transactionDigest : String
  authorizationSnapshotDigest : String
  payload : AuthorityWalPayloadV1
  payloadDigest : String
  previousRecordDigest : Option String
  recordedAt : Nat
  issuer : String
  keyId : String
  algorithm : String
  recordDigest : String
  signature : OpaqueSignature
deriving DecidableEq

inductive AuthorityWalIntegrityDisposition
  | OpaqueSignaturePresentUnverified
deriving DecidableEq

structure AuthorityTransactionStructuralValidation where
  transactionDigest : String
  integrity : AuthorityWalIntegrityDisposition
deriving DecidableEq

structure AuthorityWalRecordStructuralValidation where
  payloadDigest : String
  recordDigest : String
  integrity : AuthorityWalIntegrityDisposition
deriving DecidableEq

inductive AuthorityWalContractError
  | Schema (contract actual : String)
  | EmptyRequired (field : String)
  | InvalidDigest (field : String)
  | InvalidLifetime (issuedAt expiresAt : Nat)
  | NonPositiveAuthorityVariant (variant : AuthorityVariant)
  | CapabilityVariantMismatch (kind : CapabilityKind) (variant : AuthorityVariant)
  | SafetyCapabilityRequired
  | PositiveAuthorityDecisionNotForbidden
  | SafetySentinelMismatch
  | InvalidNextAutonomyEpoch
  | TransactionDigestMismatch (expected observed : String)
  | InvalidSequence
  | PhasePayloadMismatch (phase payloadPhase : AuthorityWalPhase)
  | PayloadDigestMismatch (expected observed : String)
  | RecordDigestMismatch (expected observed : String)
  | TransactionBindingMismatch (field : String)
  | InvalidCommitTime
  | TerminalAfterRecord (terminalAt recordedAt : Nat)
deriving DecidableEq

-- The JSON forms, member by member in the order of the declarations.

def AuthorityTransactionBindingV1.toValue (binding : AuthorityTransactionBindingV1) : Value :=
  .object [
    ("transaction_id", .string binding.transactionId),
    ("organism_id", .string binding.organismId),
    ("brain_id", .string binding.brainId),
    ("subject_id", .string binding.subjectId),
    ("action_id", .string binding.actionId),
    ("idempotency_key", .string binding.idempotencyKey),
    ("intent_core_ref", .string binding.intentCoreRef),
    ("intent_digest", .string binding.intentDigest),
    ("intent_canonicalization_version", .string binding.intentCanonicalizationVersion),
    ("capability_id", .string binding.capabilityId),
    ("capability_kind", .string binding.capabilityKind.name),
    ("nonce", .string binding.nonce),
    ("expected_head_id", optionalString binding.expectedHeadId),
    ("expected_active_mode", .string binding.expectedActiveMode.name),
    ("expected_activation_receipt_id", optionalString binding.expectedActivationReceiptId),
    ("expected_constitution_epoch", .ofNat binding.expectedConstitutionEpoch),
    ("expected_autonomy_epoch", .ofNat binding.expectedAutonomyEpoch),
    ("expected_store_epoch", .ofNat binding.expectedStoreEpoch),
    ("sentinel_verdict_digest", optionalString binding.sentinelVerdictDigest),
    ("authorization_snapshot_digest", .string binding.authorizationSnapshotDigest),
    ("issued_at", .ofNat binding.issuedAt),
    ("expires_at", .ofNat binding.expiresAt)]

def PositiveAuthorityTransactionV1.toValue (transaction : PositiveAuthorityTransactionV1) :
    Value :=
  .object [
    ("schema", .string transaction.schema),
    ("binding", transaction.binding.toValue),
    ("authority_decision_digest", .string transaction.authorityDecisionDigest),
    ("identity_role_binding_digest", .string transaction.identityRoleBindingDigest),
    ("required_authority_variant", .string transaction.requiredAuthorityVariant.name),
    ("action_policy_registry_digest", .string transaction.actionPolicyRegistryDigest),
    ("classifier_decision_digest", .string transaction.classifierDecisionDigest),
    ("expected_pending_red_set_digest", .string transaction.expectedPendingRedSetDigest),
    ("expected_red_latch_epoch", .ofNat transaction.expectedRedLatchEpoch),
    ("expected_store_version", .ofNat transaction.expectedStoreVersion),
    ("expected_boundary_version", .ofNat transaction.expectedBoundaryVersion),
    ("expected_contract_version", .ofNat transaction.expectedContractVersion),
    ("action_payload_digest", .string transaction.actionPayloadDigest),
    ("issuer", .string transaction.issuer),
    ("key_id", .string transaction.keyId),
    ("algorithm", .string transaction.algorithm),
    ("transaction_digest", .string transaction.transactionDigest),
    ("signature", transaction.signature.toValue)]

def SafetyKernelTransactionV1.toValue (transaction : SafetyKernelTransactionV1) : Value :=
  .object [
    ("schema", .string transaction.schema),
    ("binding", transaction.binding.toValue),
    ("safety_intent_digest", .string transaction.safetyIntentDigest),
    ("safety_intent_core_ref", .string transaction.safetyIntentCoreRef),
    ("safety_intent_canonicalization_version",
      .string transaction.safetyIntentCanonicalizationVersion),
    ("safety_attempt_id", .string transaction.safetyAttemptId),
    ("sentinel_red_verdict_digest", .string transaction.sentinelRedVerdictDigest),
    ("red_latch_receipt_digest", .string transaction.redLatchReceiptDigest),
    ("actuator_identity_key_binary_policy_digest",
      .string transaction.actuatorIdentityKeyBinaryPolicyDigest),
    ("allowed_negative_actions_digest", .string transaction.allowedNegativeActionsDigest),
    ("affected_grants_scope_digest", .string transaction.affectedGrantsScopeDigest),
    ("rollback_candidate_plan_digest", .string transaction.rollbackCandidatePlanDigest),
    ("expected_next_autonomy_epoch", .ofNat transaction.expectedNextAutonomyEpoch),
    ("positive_authority_decision_forbidden",
      .bool transaction.positiveAuthorityDecisionForbidden),
    ("issuer", .string transaction.issuer),
    ("key_id", .string transaction.keyId),
    ("algorithm", .string transaction.algorithm),
    ("transaction_digest", .string transaction.transactionDigest),
    ("signature", transaction.signature.toValue)]

def AuthorityTransactionV1.toValue : AuthorityTransactionV1 → Value
  | .PositiveAuthority transaction => .object [
      ("transaction_variant", .string "POSITIVE_AUTHORITY"),
      ("transaction", transaction.toValue)]
  | .SafetyKernel transaction => .object [
      ("transaction_variant", .string "SAFETY_KERNEL"),
      ("transaction", transaction.toValue)]

def AuthorityWalPrepareV1.toValue (payload : AuthorityWalPrepareV1) : Value :=
  .object [("transaction", payload.transaction.toValue)]

def AuthorityWalProvisionalV1.toValue (payload : AuthorityWalProvisionalV1) : Value :=
  .object [("provisional_effects_digest", .string payload.provisionalEffectsDigest)]

def AuthorityWalCommitV1.toValue (payload : AuthorityWalCommitV1) : Value :=
  .object [
    ("committed_at", .ofNat payload.committedAt),
    ("protected_time_evidence_digest", .string payload.protectedTimeEvidenceDigest),
    ("authorization_snapshot_digest", .string payload.authorizationSnapshotDigest),
    ("terminal_outcome_digest", .string payload.terminalOutcomeDigest)]

def AuthorityWalAbortV1.toValue (payload : AuthorityWalAbortV1) : Value :=
  .object [
    ("aborted_at", .ofNat payload.abortedAt),
    ("reason_digest", .string payload.reasonDigest),
    ("terminal_outcome_digest", .string payload.terminalOutcomeDigest)]

def AuthorityWalPayloadV1.body : AuthorityWalPayloadV1 → Value
  | .Prepare payload => payload.toValue
  | .Provisional payload => payload.toValue
  | .Commit payload => payload.toValue
  | .Abort payload => payload.toValue

def AuthorityWalPayloadV1.toValue (payload : AuthorityWalPayloadV1) : Value :=
  .object [("payload_kind", .string payload.phase.name), ("payload", payload.body)]

def AuthorityWalRecordV1.toValue (record : AuthorityWalRecordV1) : Value :=
  .object [
    ("schema", .string record.schema),
    ("sequence", .ofNat record.sequence),
    ("phase", .string record.phase.name),
    ("transaction_id", .string record.transactionId),
    ("idempotency_key", .string record.idempotencyKey),
    ("intent_core_ref", .string record.intentCoreRef),
    ("intent_digest", .string record.intentDigest),
    ("expected_head_id", optionalString record.expectedHeadId),
    ("expected_constitution_epoch", .ofNat record.expectedConstitutionEpoch),
    ("expected_autonomy_epoch", .ofNat record.expectedAutonomyEpoch),
    ("expected_store_epoch", .ofNat record.expectedStoreEpoch),
    ("transaction_digest", .string record.transactionDigest),
    ("authorization_snapshot_digest", .string record.authorizationSnapshotDigest),
    ("payload", record.payload.toValue),
    ("payload_digest", .string record.payloadDigest),
    ("previous_record_digest", optionalString record.previousRecordDigest),
    ("recorded_at", .ofNat record.recordedAt),
    ("issuer", .string record.issuer),
    ("key_id", .string record.keyId),
    ("algorithm", .string record.algorithm),
    ("record_digest", .string record.recordDigest),
    ("signature", record.signature.toValue)]

end M1nd.Control

namespace M1nd.Control

open M1nd.Library.Json

-- Different records have different JSON forms.

theorem ActiveMode.name_injective : Function.Injective ActiveMode.name := by
  intro a b h
  cases a <;> cases b <;> first | rfl | exact absurd h (by decide)

theorem AuthorityVariant.name_injective : Function.Injective AuthorityVariant.name := by
  intro a b h
  cases a <;> cases b <;> first | rfl | exact absurd h (by decide)

theorem CapabilityKind.name_injective : Function.Injective CapabilityKind.name := by
  intro a b h
  cases a <;> cases b <;> first | rfl | exact absurd h (by decide)

theorem AuthorityWalPhase.name_injective : Function.Injective AuthorityWalPhase.name := by
  intro a b h
  cases a <;> cases b <;> first | rfl | exact absurd h (by decide)

theorem optionalString_injective : Function.Injective optionalString := by
  intro a b h
  cases a <;> cases b <;> simp_all [optionalString, Value.ofOption]

theorem OpaqueSignature.toValue_injective : Function.Injective OpaqueSignature.toValue := by
  rintro ⟨a⟩ ⟨b⟩ h
  exact congrArg OpaqueSignature.mk (Value.string.inj h)

theorem AuthorityTransactionBindingV1.toValue_injective :
    Function.Injective AuthorityTransactionBindingV1.toValue := by
  intro a b h
  simp only [toValue, Value.object.injEq, List.cons.injEq, Prod.mk.injEq, true_and, and_true,
    Value.string.injEq, Value.ofNat_inj, optionalString_injective.eq_iff,
    CapabilityKind.name_injective.eq_iff, ActiveMode.name_injective.eq_iff] at h
  exact AuthorityTransactionBindingV1.ext_iff.mpr h

theorem PositiveAuthorityTransactionV1.toValue_injective :
    Function.Injective PositiveAuthorityTransactionV1.toValue := by
  intro a b h
  simp only [toValue, Value.object.injEq, List.cons.injEq, Prod.mk.injEq, true_and, and_true,
    Value.string.injEq, Value.ofNat_inj, AuthorityTransactionBindingV1.toValue_injective.eq_iff,
    AuthorityVariant.name_injective.eq_iff, OpaqueSignature.toValue_injective.eq_iff] at h
  exact PositiveAuthorityTransactionV1.ext_iff.mpr h

theorem SafetyKernelTransactionV1.toValue_injective :
    Function.Injective SafetyKernelTransactionV1.toValue := by
  intro a b h
  simp only [toValue, Value.object.injEq, List.cons.injEq, Prod.mk.injEq, true_and, and_true,
    Value.string.injEq, Value.bool.injEq, Value.ofNat_inj,
    AuthorityTransactionBindingV1.toValue_injective.eq_iff,
    OpaqueSignature.toValue_injective.eq_iff] at h
  exact SafetyKernelTransactionV1.ext_iff.mpr h

theorem AuthorityTransactionV1.toValue_injective :
    Function.Injective AuthorityTransactionV1.toValue := by
  intro a b h
  cases a <;> cases b <;>
    simp only [toValue, Value.object.injEq, List.cons.injEq, Prod.mk.injEq, true_and, and_true,
      Value.string.injEq, PositiveAuthorityTransactionV1.toValue_injective.eq_iff,
      SafetyKernelTransactionV1.toValue_injective.eq_iff] at h
  · rw [h]
  · exact absurd h.1 (by decide)
  · exact absurd h.1 (by decide)
  · rw [h]

theorem AuthorityWalPayloadV1.toValue_injective :
    Function.Injective AuthorityWalPayloadV1.toValue := by
  intro a b h
  simp only [toValue, Value.object.injEq, List.cons.injEq, Prod.mk.injEq, true_and, and_true,
    Value.string.injEq, AuthorityWalPhase.name_injective.eq_iff] at h
  obtain ⟨hphase, hbody⟩ := h
  cases a <;> cases b <;> cases hphase
  · simp only [body, AuthorityWalPrepareV1.toValue, Value.object.injEq, List.cons.injEq,
      Prod.mk.injEq, true_and, and_true, AuthorityTransactionV1.toValue_injective.eq_iff] at hbody
    exact congrArg (fun transaction => Prepare ⟨transaction⟩) hbody
  · simp only [body, AuthorityWalProvisionalV1.toValue, Value.object.injEq, List.cons.injEq,
      Prod.mk.injEq, true_and, and_true, Value.string.injEq] at hbody
    exact congrArg (fun digest => Provisional ⟨digest⟩) hbody
  · simp only [body, AuthorityWalCommitV1.toValue, Value.object.injEq, List.cons.injEq,
      Prod.mk.injEq, true_and, and_true, Value.string.injEq, Value.ofNat_inj] at hbody
    exact congrArg Commit (AuthorityWalCommitV1.ext_iff.mpr hbody)
  · simp only [body, AuthorityWalAbortV1.toValue, Value.object.injEq, List.cons.injEq,
      Prod.mk.injEq, true_and, and_true, Value.string.injEq, Value.ofNat_inj] at hbody
    exact congrArg Abort (AuthorityWalAbortV1.ext_iff.mpr hbody)

theorem AuthorityWalRecordV1.toValue_injective :
    Function.Injective AuthorityWalRecordV1.toValue := by
  intro a b h
  simp only [toValue, Value.object.injEq, List.cons.injEq, Prod.mk.injEq, true_and, and_true,
    Value.string.injEq, Value.ofNat_inj, optionalString_injective.eq_iff,
    AuthorityWalPhase.name_injective.eq_iff, AuthorityWalPayloadV1.toValue_injective.eq_iff,
    OpaqueSignature.toValue_injective.eq_iff] at h
  exact AuthorityWalRecordV1.ext_iff.mpr h

-- The parts whose keys are in order already.

@[simp]
theorem sortKeys_optionalString (s : Option String) :
    (optionalString s).sortKeys = optionalString s := by
  cases s <;> rfl

@[simp]
theorem sortKeys_signature (signature : OpaqueSignature) :
    signature.toValue.sortKeys = signature.toValue := rfl

end M1nd.Control
