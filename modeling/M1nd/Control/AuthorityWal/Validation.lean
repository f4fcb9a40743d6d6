import M1nd.Control.AuthorityWal

namespace M1nd.Control

open M1nd.Library.Json
open M1nd.Library.Checks

namespace AuthorityTransactionV1

def binding : AuthorityTransactionV1 → AuthorityTransactionBindingV1
  | .PositiveAuthority transaction => transaction.binding
  | .SafetyKernel transaction => transaction.binding

def transactionDigest : AuthorityTransactionV1 → String
  | .PositiveAuthority transaction => transaction.transactionDigest
  | .SafetyKernel transaction => transaction.transactionDigest

def signature : AuthorityTransactionV1 → OpaqueSignature
  | .PositiveAuthority transaction => transaction.signature
  | .SafetyKernel transaction => transaction.signature

end AuthorityTransactionV1

section Digests

variable [Sha256]

def AuthorityTransactionV1.computeTransactionDigest (transaction : AuthorityTransactionV1) :
    String :=
  digestCanonical AUTHORITY_TRANSACTION_DIGEST_DOMAIN
    (transaction.toValue.adjust "transaction" fun body =>
      (body.remove "transaction_digest").remove "signature")

def AuthorityTransactionV1.sealed (transaction : AuthorityTransactionV1) :
    AuthorityTransactionV1 :=
  let digest := transaction.computeTransactionDigest
  match transaction with
  | .PositiveAuthority transaction =>
      .PositiveAuthority { transaction with transactionDigest := digest }
  | .SafetyKernel transaction => .SafetyKernel { transaction with transactionDigest := digest }

def AuthorityWalRecordV1.computePayloadDigest (record : AuthorityWalRecordV1) : String :=
  digestCanonical AUTHORITY_WAL_PAYLOAD_DIGEST_DOMAIN record.payload.toValue

def AuthorityWalRecordV1.computeRecordDigest (record : AuthorityWalRecordV1) : String :=
  digestCanonical AUTHORITY_WAL_RECORD_DIGEST_DOMAIN
    ((record.toValue.remove "record_digest").remove "signature")

def AuthorityWalRecordV1.assignChainAndSeal (record : AuthorityWalRecordV1) (sequence : Nat)
    (previousRecordDigest : Option String) : AuthorityWalRecordV1 :=
  let record := { record with sequence, previousRecordDigest }
  let record := { record with payloadDigest := record.computePayloadDigest }
  { record with recordDigest := record.computeRecordDigest }

end Digests

def AuthorityWalRecordV1.canonicalSignatureMessage (record : AuthorityWalRecordV1) : Bytes :=
  let canonical := canonicalJson (record.toValue.remove "signature")
  AUTHORITY_WAL_SIGNATURE_PREFIX ++
    toBeBytes (utf8 AUTHORITY_WAL_RECORD_SIGNATURE_DOMAIN).length ++
    utf8 AUTHORITY_WAL_RECORD_SIGNATURE_DOMAIN ++ toBeBytes canonical.length ++ canonical

-- An unchained draft of one phase of a sealed transaction.
def AuthorityWalRecordV1.draft (transaction : AuthorityTransactionV1)
    (payload : AuthorityWalPayloadV1) (recordedAt : Nat) (issuer keyId algorithm : String)
    (signature : OpaqueSignature) : AuthorityWalRecordV1 where
  schema := AUTHORITY_WAL_RECORD_SCHEMA
  sequence := 0
  phase := payload.phase
  transactionId := transaction.binding.transactionId
  idempotencyKey := transaction.binding.idempotencyKey
  intentCoreRef := transaction.binding.intentCoreRef
  intentDigest := transaction.binding.intentDigest
  expectedHeadId := transaction.binding.expectedHeadId
  expectedConstitutionEpoch := transaction.binding.expectedConstitutionEpoch
  expectedAutonomyEpoch := transaction.binding.expectedAutonomyEpoch
  expectedStoreEpoch := transaction.binding.expectedStoreEpoch
  transactionDigest := transaction.transactionDigest
  authorizationSnapshotDigest := transaction.binding.authorizationSnapshotDigest
  payload := payload
  payloadDigest := ""
  previousRecordDigest := none
  recordedAt := recordedAt
  issuer := issuer
  keyId := keyId
  algorithm := algorithm
  recordDigest := ""
  signature := signature

namespace AuthorityWal

def requireSchema (contract actual expected : String) : Except AuthorityWalContractError Unit :=
  rejectIf (actual ≠ expected) (.Schema contract actual)

def requireNonEmpty (field value : String) : Except AuthorityWalContractError Unit :=
  rejectIf (value = "") (.EmptyRequired field)

def requireOptionalNonEmpty (field : String) (value : Option String) :
    Except AuthorityWalContractError Unit :=
  rejectIf (value = some "") (.EmptyRequired field)

def requireDigest (field value : String) : Except AuthorityWalContractError Unit :=
  rejectIf (¬ isDigest value) (.InvalidDigest field)

def requireOptionalDigest (field : String) : Option String →
    Except AuthorityWalContractError Unit
  | none => .ok ()
  | some value => requireDigest field value

def ensureBinding (field : String) (equal : Prop) [Decidable equal] :
    Except AuthorityWalContractError Unit :=
  rejectIf (¬ equal) (.TransactionBindingMismatch field)

def ensureTerminalNotAfterRecord (terminalAt recordedAt : Nat) :
    Except AuthorityWalContractError Unit :=
  rejectIf (terminalAt > recordedAt) (.TerminalAfterRecord terminalAt recordedAt)

def validateBinding (binding : AuthorityTransactionBindingV1) :
    Except AuthorityWalContractError Unit := do
  forM [
    ("transaction_id", binding.transactionId),
    ("organism_id", binding.organismId),
    ("brain_id", binding.brainId),
    ("subject_id", binding.subjectId),
    ("action_id", binding.actionId),
    ("idempotency_key", binding.idempotencyKey),
    ("intent_core_ref", binding.intentCoreRef),
    ("intent_canonicalization_version", binding.intentCanonicalizationVersion),
    ("capability_id", binding.capabilityId),
    ("nonce", binding.nonce)] fun (field, value) => requireNonEmpty field value
  requireOptionalNonEmpty "expected_head_id" binding.expectedHeadId
  requireOptionalNonEmpty "expected_activation_receipt_id" binding.expectedActivationReceiptId
  requireDigest "intent_digest" binding.intentDigest
  requireOptionalDigest "sentinel_verdict_digest" binding.sentinelVerdictDigest
  requireDigest "authorization_snapshot_digest" binding.authorizationSnapshotDigest
  rejectIf (binding.issuedAt ≥ binding.expiresAt)
    (.InvalidLifetime binding.issuedAt binding.expiresAt)

def capabilityCompatible (kind : CapabilityKind) (variant : AuthorityVariant) : Bool :=
  match kind, variant with
  | .Human, .Human => true
  | .Autonomy, .Policy => true
  | .Autonomy, .AgentQuorum => true
  | _, _ => false

def validatePositive (transaction : PositiveAuthorityTransactionV1) :
    Except AuthorityWalContractError Unit := do
  requireSchema "positive authority transaction" transaction.schema
    POSITIVE_AUTHORITY_TRANSACTION_SCHEMA
  let variant := transaction.requiredAuthorityVariant
  rejectIf (¬ variant.isPositiveSovereign) (.NonPositiveAuthorityVariant variant)
  rejectIf (¬ capabilityCompatible transaction.binding.capabilityKind variant)
    (.CapabilityVariantMismatch transaction.binding.capabilityKind variant)
  forM [
    ("authority_decision_digest", transaction.authorityDecisionDigest),
    ("identity_role_binding_digest", transaction.identityRoleBindingDigest),
    ("action_policy_registry_digest", transaction.actionPolicyRegistryDigest),
    ("classifier_decision_digest", transaction.classifierDecisionDigest),
    ("expected_pending_red_set_digest", transaction.expectedPendingRedSetDigest),
    ("action_payload_digest", transaction.actionPayloadDigest)]
    fun (field, digest) => requireDigest field digest

def validateSafety (transaction : SafetyKernelTransactionV1) :
    Except AuthorityWalContractError Unit := do
  requireSchema "safety kernel transaction" transaction.schema SAFETY_KERNEL_TRANSACTION_SCHEMA
  rejectIf (transaction.binding.capabilityKind ≠ .Safety) .SafetyCapabilityRequired
  rejectIf (¬ transaction.positiveAuthorityDecisionForbidden)
    .PositiveAuthorityDecisionNotForbidden
  rejectIf (transaction.binding.sentinelVerdictDigest ≠ some transaction.sentinelRedVerdictDigest)
    .SafetySentinelMismatch
  -- `checked_add` refuses the last u64 epoch.
  rejectIf (transaction.binding.expectedAutonomyEpoch + 1 ≥ 2 ^ 64 ∨
      transaction.binding.expectedAutonomyEpoch + 1 ≠ transaction.expectedNextAutonomyEpoch)
    .InvalidNextAutonomyEpoch
  forM [
    ("safety_intent_core_ref", transaction.safetyIntentCoreRef),
    ("safety_intent_canonicalization_version", transaction.safetyIntentCanonicalizationVersion),
    ("safety_attempt_id", transaction.safetyAttemptId)]
    fun (field, value) => requireNonEmpty field value
  forM [
    ("safety_intent_digest", transaction.safetyIntentDigest),
    ("sentinel_red_verdict_digest", transaction.sentinelRedVerdictDigest),
    ("red_latch_receipt_digest", transaction.redLatchReceiptDigest),
    ("actuator_identity_key_binary_policy_digest",
      transaction.actuatorIdentityKeyBinaryPolicyDigest),
    ("allowed_negative_actions_digest", transaction.allowedNegativeActionsDigest),
    ("affected_grants_scope_digest", transaction.affectedGrantsScopeDigest),
    ("rollback_candidate_plan_digest", transaction.rollbackCandidatePlanDigest)]
    fun (field, digest) => requireDigest field digest

def validateVariant : AuthorityTransactionV1 → Except AuthorityWalContractError Unit
  | .PositiveAuthority transaction => validatePositive transaction
  | .SafetyKernel transaction => validateSafety transaction

def validateSignatureFields (transaction : AuthorityTransactionV1) :
    Except AuthorityWalContractError Unit := do
  let (issuer, keyId, algorithm) :=
    match transaction with
    | .PositiveAuthority transaction =>
        (transaction.issuer, transaction.keyId, transaction.algorithm)
    | .SafetyKernel transaction => (transaction.issuer, transaction.keyId, transaction.algorithm)
  forM [("issuer", issuer), ("key_id", keyId), ("algorithm", algorithm)]
    fun (field, value) => requireNonEmpty field value
  rejectIf transaction.signature.isEmpty (.EmptyRequired "signature")

end AuthorityWal

open AuthorityWal

variable [Sha256]

def AuthorityTransactionV1.validate (transaction : AuthorityTransactionV1) :
    Except AuthorityWalContractError AuthorityTransactionStructuralValidation := do
  validateBinding transaction.binding
  validateVariant transaction
  validateSignatureFields transaction
  requireDigest "transaction_digest" transaction.transactionDigest
  let expected := transaction.computeTransactionDigest
  rejectIf (expected ≠ transaction.transactionDigest)
    (.TransactionDigestMismatch expected transaction.transactionDigest)
  return { transactionDigest := expected, integrity := .OpaqueSignaturePresentUnverified }

def AuthorityWal.validatePayloadShape (payload : AuthorityWalPayloadV1) (recordedAt : Nat) :
    Except AuthorityWalContractError Unit := do
  match payload with
  | .Prepare payload =>
      let _ ← payload.transaction.validate
  | .Provisional payload =>
      requireDigest "provisional_effects_digest" payload.provisionalEffectsDigest
  | .Commit payload =>
      forM [
        ("protected_time_evidence_digest", payload.protectedTimeEvidenceDigest),
        ("commit.authorization_snapshot_digest", payload.authorizationSnapshotDigest),
        ("terminal_outcome_digest", payload.terminalOutcomeDigest)]
        fun (field, digest) => requireDigest field digest
      ensureTerminalNotAfterRecord payload.committedAt recordedAt
  | .Abort payload =>
      requireDigest "reason_digest" payload.reasonDigest
      requireDigest "terminal_outcome_digest" payload.terminalOutcomeDigest
      ensureTerminalNotAfterRecord payload.abortedAt recordedAt

def AuthorityWalRecordV1.validate (record : AuthorityWalRecordV1) :
    Except AuthorityWalContractError AuthorityWalRecordStructuralValidation := do
  requireSchema "AuthorityWAL record" record.schema AUTHORITY_WAL_RECORD_SCHEMA
  rejectIf (record.sequence = 0) .InvalidSequence
  forM [
    ("transaction_id", record.transactionId),
    ("idempotency_key", record.idempotencyKey),
    ("intent_core_ref", record.intentCoreRef),
    ("issuer", record.issuer),
    ("key_id", record.keyId),
    ("algorithm", record.algorithm)] fun (field, value) => requireNonEmpty field value
  requireOptionalNonEmpty "expected_head_id" record.expectedHeadId
  forM [
    ("intent_digest", record.intentDigest),
    ("transaction_digest", record.transactionDigest),
    ("authorization_snapshot_digest", record.authorizationSnapshotDigest),
    ("payload_digest", record.payloadDigest),
    ("record_digest", record.recordDigest)] fun (field, digest) => requireDigest field digest
  requireOptionalDigest "previous_record_digest" record.previousRecordDigest
  rejectIf record.signature.isEmpty (.EmptyRequired "signature")
  rejectIf (record.payload.phase ≠ record.phase)
    (.PhasePayloadMismatch record.phase record.payload.phase)
  validatePayloadShape record.payload record.recordedAt
  let payloadDigest := record.computePayloadDigest
  rejectIf (payloadDigest ≠ record.payloadDigest)
    (.PayloadDigestMismatch payloadDigest record.payloadDigest)
  let recordDigest := record.computeRecordDigest
  rejectIf (recordDigest ≠ record.recordDigest)
    (.RecordDigestMismatch recordDigest record.recordDigest)
  return { payloadDigest, recordDigest, integrity := .OpaqueSignaturePresentUnverified }

def AuthorityWal.ensureRecordBinds (record : AuthorityWalRecordV1)
    (transaction : AuthorityTransactionV1) : Except AuthorityWalContractError Unit := do
  let binding := transaction.binding
  ensureBinding "transaction_id" (record.transactionId = binding.transactionId)
  ensureBinding "idempotency_key" (record.idempotencyKey = binding.idempotencyKey)
  ensureBinding "intent_core_ref" (record.intentCoreRef = binding.intentCoreRef)
  ensureBinding "intent_digest" (record.intentDigest = binding.intentDigest)
  ensureBinding "expected_head_id" (record.expectedHeadId = binding.expectedHeadId)
  ensureBinding "expected_constitution_epoch"
    (record.expectedConstitutionEpoch = binding.expectedConstitutionEpoch)
  ensureBinding "expected_autonomy_epoch"
    (record.expectedAutonomyEpoch = binding.expectedAutonomyEpoch)
  ensureBinding "expected_store_epoch" (record.expectedStoreEpoch = binding.expectedStoreEpoch)
  ensureBinding "transaction_digest" (record.transactionDigest = transaction.transactionDigest)
  ensureBinding "authorization_snapshot_digest"
    (record.authorizationSnapshotDigest = binding.authorizationSnapshotDigest)

def AuthorityWal.ensurePayloadBinds (payload : AuthorityWalPayloadV1)
    (transaction : AuthorityTransactionV1) : Except AuthorityWalContractError Unit := do
  match payload with
  | .Prepare payload =>
      ensureBinding "prepare.transaction" (payload.transaction = transaction)
  | .Commit payload =>
      ensureBinding "commit.authorization_snapshot_digest"
        (payload.authorizationSnapshotDigest = transaction.binding.authorizationSnapshotDigest)
      rejectIf (payload.committedAt < transaction.binding.issuedAt ∨
          payload.committedAt ≥ transaction.binding.expiresAt) .InvalidCommitTime
  | _ => return

def AuthorityWalRecordV1.validateAgainstTransaction (record : AuthorityWalRecordV1)
    (transaction : AuthorityTransactionV1) :
    Except AuthorityWalContractError AuthorityWalRecordStructuralValidation := do
  let validation ← record.validate
  let _ ← transaction.validate
  ensureRecordBinds record transaction
  ensurePayloadBinds record.payload transaction
  return validation

end M1nd.Control
