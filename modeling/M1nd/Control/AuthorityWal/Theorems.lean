import M1nd.Control.AuthorityWal.Validation

namespace M1nd.Control

open M1nd.Library.Checks
open AuthorityWal

@[simp]
theorem ensureBinding_eq_ok {field : String} {equal : Prop} [Decidable equal] {u : Unit} :
    ensureBinding field equal = .ok u ↔ equal := by
  simp [ensureBinding]

@[simp]
theorem AuthorityWal.requireSchema_eq_ok {contract actual expected : String} {u : Unit} :
    requireSchema contract actual expected = .ok u ↔ actual = expected := by
  simp [requireSchema]

@[simp]
theorem AuthorityWal.requireNonEmpty_eq_ok {field value : String} {u : Unit} :
    requireNonEmpty field value = .ok u ↔ value ≠ "" := by
  simp [requireNonEmpty]

@[simp]
theorem AuthorityWal.requireOptionalNonEmpty_eq_ok {field : String} {value : Option String} {u : Unit} :
    requireOptionalNonEmpty field value = .ok u ↔ value ≠ some "" := by
  simp [requireOptionalNonEmpty]

@[simp]
theorem AuthorityWal.requireDigest_eq_ok {field value : String} {u : Unit} :
    requireDigest field value = .ok u ↔ isDigest value = true := by
  simp [requireDigest]

variable [Sha256] {record : AuthorityWalRecordV1} {transaction : AuthorityTransactionV1}

theorem validate_phase {validation : AuthorityWalRecordStructuralValidation}
    (h : record.validate = .ok validation) : record.phase = record.payload.phase := by
  simp only [AuthorityWalRecordV1.validate, bind_unit_eq_ok, rejectIf_eq_ok, ne_eq,
    not_not] at h
  obtain ⟨-, -, -, -, -, -, -, hphase, -⟩ := h
  exact hphase.symm

-- What a commit owes to the transaction it commits.
def WithinPrepared (payload : AuthorityWalCommitV1) (transaction : AuthorityTransactionV1) :
    Prop :=
  transaction.binding.issuedAt ≤ payload.committedAt ∧
    payload.committedAt < transaction.binding.expiresAt ∧
    payload.authorizationSnapshotDigest = transaction.binding.authorizationSnapshotDigest

structure Binds (record : AuthorityWalRecordV1) (transaction : AuthorityTransactionV1) :
    Prop where
  validates : ∃ validation, record.validate = .ok validation
  transactionId : record.transactionId = transaction.binding.transactionId
  idempotencyKey : record.idempotencyKey = transaction.binding.idempotencyKey
  snapshot : record.authorizationSnapshotDigest = transaction.binding.authorizationSnapshotDigest
  prepare : ∀ payload, record.payload = .Prepare payload → payload.transaction = transaction
  commit : ∀ payload, record.payload = .Commit payload → WithinPrepared payload transaction

theorem validateAgainstTransaction_binds
    {validation : AuthorityWalRecordStructuralValidation}
    (h : record.validateAgainstTransaction transaction = .ok validation) :
    Binds record transaction := by
  simp only [AuthorityWalRecordV1.validateAgainstTransaction, bind_eq_ok] at h
  obtain ⟨validation', hrecord, _, -, _, hbinds, _, hpayload, -⟩ := h
  simp only [ensureRecordBinds, bind_unit_eq_ok, ensureBinding_eq_ok] at hbinds
  obtain ⟨hid, hkey, -, -, -, -, -, -, -, hsnapshot⟩ := hbinds
  refine ⟨⟨validation', hrecord⟩, hid, hkey, hsnapshot, ?_, ?_⟩
  · intro payload hprepare
    rw [hprepare] at hpayload
    simpa [ensurePayloadBinds] using hpayload
  · intro payload hcommit
    rw [hcommit] at hpayload
    simp only [ensurePayloadBinds, bind_unit_eq_ok, ensureBinding_eq_ok, rejectIf_eq_ok,
      not_or, not_lt, ge_iff_le, not_le] at hpayload
    obtain ⟨hsnap, hissued, hexpires⟩ := hpayload
    exact ⟨hissued, hexpires, hsnap⟩

-- The fields of a validated transaction that its records repeat.
structure Validated (transaction : AuthorityTransactionV1) : Prop where
  transactionId : transaction.binding.transactionId ≠ ""
  idempotencyKey : transaction.binding.idempotencyKey ≠ ""
  intentCoreRef : transaction.binding.intentCoreRef ≠ ""
  expectedHeadId : transaction.binding.expectedHeadId ≠ some ""
  intentDigest : isDigest transaction.binding.intentDigest = true
  transactionDigest : isDigest transaction.transactionDigest = true
  snapshot : isDigest transaction.binding.authorizationSnapshotDigest = true

theorem transaction_validated {validation : AuthorityTransactionStructuralValidation}
    (h : transaction.validate = .ok validation) : Validated transaction := by
  simp only [AuthorityTransactionV1.validate, bind_unit_eq_ok, requireDigest_eq_ok] at h
  obtain ⟨hbinding, -, -, hdigest, -⟩ := h
  simp only [validateBinding, bind_unit_eq_ok, List.forM_cons, requireNonEmpty_eq_ok,
    requireOptionalNonEmpty_eq_ok, requireDigest_eq_ok] at hbinding
  obtain ⟨⟨hid, -, -, -, -, hkey, href, -⟩, hhead, -, hintent, -, hsnapshot, -⟩ := hbinding
  exact ⟨hid, hkey, href, hhead, hintent, hdigest, hsnapshot⟩

theorem Binds.phase (h : Binds record transaction) : record.phase = record.payload.phase := by
  obtain ⟨validation, hvalidate⟩ := h.validates
  exact validate_phase hvalidate

-- Sealing writes only fields that the digests leave out.

-- One phase of a transaction as the writer stores it.
def storedRecord (transaction : AuthorityTransactionV1) (payload : AuthorityWalPayloadV1)
    (recordedAt : Nat) (issuer keyId algorithm : String) (sequence : Nat)
    (previousRecordDigest : Option String) (signature : String) : AuthorityWalRecordV1 :=
  { (AuthorityWalRecordV1.draft transaction payload recordedAt issuer keyId algorithm
      ⟨"pending-owner-signature"⟩).assignChainAndSeal sequence previousRecordDigest with
    signature := ⟨signature⟩ }

variable {payload : AuthorityWalPayloadV1} {recordedAt sequence : Nat}
  {issuer keyId algorithm signature : String} {previous : Option String}

theorem storedRecord_validates (htransaction : Validated transaction)
    (hshape : validatePayloadShape payload recordedAt = .ok ()) (hsequence : sequence ≠ 0)
    (hissuer : issuer ≠ "") (hkeyId : keyId ≠ "") (halgorithm : algorithm ≠ "")
    (hsignature : signature ≠ "")
    (hprevious : ∀ digest, previous = some digest → isDigest digest = true) :
    ∃ validation, (storedRecord transaction payload recordedAt issuer keyId algorithm sequence
      previous signature).validate = .ok validation := by
  have hprev : requireOptionalDigest "previous_record_digest" previous = .ok () := by
    cases previous with
    | none => rfl
    | some digest => simpa [requireOptionalDigest] using hprevious digest rfl
  let record := storedRecord transaction payload recordedAt issuer keyId algorithm sequence
    previous signature
  refine ⟨⟨record.computePayloadDigest, record.computeRecordDigest,
    .OpaqueSignaturePresentUnverified⟩, ?_⟩
  simp only [AuthorityWalRecordV1.validate, bind_unit_eq_ok, List.forM_cons,
    requireNonEmpty_eq_ok, requireOptionalNonEmpty_eq_ok, requireDigest_eq_ok, rejectIf_eq_ok,
    requireSchema_eq_ok]
  refine ⟨rfl, hsequence, ?_, htransaction.expectedHeadId, ?_, hprev, ?_, ?_, hshape, ?_, ?_, rfl⟩
  · exact ⟨htransaction.transactionId, htransaction.idempotencyKey, htransaction.intentCoreRef,
      hissuer, hkeyId, halgorithm, rfl⟩
  · exact ⟨htransaction.intentDigest, htransaction.transactionDigest, htransaction.snapshot,
      isDigest_digestCanonical _ _, isDigest_digestCanonical _ _, rfl⟩
  · exact fun hempty => hsignature (of_decide_eq_true hempty)
  · exact fun h => h rfl
  · exact fun h => h rfl
  · exact fun h => h rfl

theorem storedRecord_validates_against {validation : AuthorityTransactionStructuralValidation}
    (htransaction : transaction.validate = .ok validation)
    (hshape : validatePayloadShape payload recordedAt = .ok ()) (hsequence : sequence ≠ 0)
    (hissuer : issuer ≠ "") (hkeyId : keyId ≠ "") (halgorithm : algorithm ≠ "")
    (hsignature : signature ≠ "")
    (hprevious : ∀ digest, previous = some digest → isDigest digest = true)
    (hpayload : ensurePayloadBinds payload transaction = .ok ()) :
    ∃ validation, (storedRecord transaction payload recordedAt issuer keyId algorithm sequence
      previous signature).validateAgainstTransaction transaction = .ok validation := by
  obtain ⟨validation', hvalidate⟩ := storedRecord_validates (transaction_validated htransaction)
    hshape hsequence hissuer hkeyId halgorithm hsignature hprevious
  refine ⟨validation', ?_⟩
  simp only [AuthorityWalRecordV1.validateAgainstTransaction, bind_eq_ok]
  refine ⟨validation', hvalidate, validation, htransaction, (), ?_, (), hpayload, rfl⟩
  simp only [ensureRecordBinds, bind_unit_eq_ok, ensureBinding_eq_ok]
  exact ⟨rfl, rfl, rfl, rfl, rfl, rfl, rfl, rfl, rfl, rfl⟩

-- A sealed transaction that a human owner issues, and the records of its landing.

def repeatHex (digit : Char) : String :=
  String.ofList (List.replicate 64 digit)

def landTransaction : AuthorityTransactionV1 :=
  AuthorityTransactionV1.sealed <| .PositiveAuthority {
    schema := POSITIVE_AUTHORITY_TRANSACTION_SCHEMA
    binding := {
      transactionId := "tx-1"
      organismId := "organism-1"
      brainId := "brain-1"
      subjectId := "subject-1"
      actionId := "land"
      idempotencyKey := "idempotency-1"
      intentCoreRef := "intent:a"
      intentDigest := repeatHex 'a'
      intentCanonicalizationVersion := CANONICALIZATION_VERSION
      capabilityId := "capability-tx-1"
      capabilityKind := .Human
      nonce := "nonce-tx-1"
      expectedHeadId := some "head-1"
      expectedActiveMode := .HumanGated
      expectedActivationReceiptId := none
      expectedConstitutionEpoch := 2
      expectedAutonomyEpoch := 7
      expectedStoreEpoch := 11
      sentinelVerdictDigest := none
      authorizationSnapshotDigest := repeatHex 'b'
      issuedAt := 1000
      expiresAt := 3000 }
    authorityDecisionDigest := repeatHex 'c'
    identityRoleBindingDigest := repeatHex 'd'
    requiredAuthorityVariant := .Human
    actionPolicyRegistryDigest := repeatHex 'e'
    classifierDecisionDigest := repeatHex 'f'
    expectedPendingRedSetDigest := repeatHex '1'
    expectedRedLatchEpoch := 3
    expectedStoreVersion := 19
    expectedBoundaryVersion := 5
    expectedContractVersion := 8
    actionPayloadDigest := repeatHex '2'
    issuer := "owner-1"
    keyId := "owner-key-1"
    algorithm := "opaque-test-algorithm"
    transactionDigest := repeatHex '0'
    signature := ⟨"opaque-transaction-signature"⟩ }

theorem landTransaction_validates :
    ∃ validation, landTransaction.validate = .ok validation := by
  refine ⟨⟨landTransaction.computeTransactionDigest, .OpaqueSignaturePresentUnverified⟩, ?_⟩
  simp only [AuthorityTransactionV1.validate, bind_unit_eq_ok]
  refine ⟨by rfl, by rfl, by rfl, ?_, ?_, rfl⟩
  · exact requireDigest_eq_ok.mpr (isDigest_digestCanonical _ _)
  · exact rejectIf_eq_ok.mpr fun h => h rfl

def landProvisional : AuthorityWalProvisionalV1 where
  provisionalEffectsDigest := repeatHex 'a'

def landCommit : AuthorityWalCommitV1 where
  committedAt := 1500
  protectedTimeEvidenceDigest := repeatHex 'b'
  authorizationSnapshotDigest := repeatHex 'b'
  terminalOutcomeDigest := repeatHex 'c'

def landRecord (payload : AuthorityWalPayloadV1) (sequence : Nat) (previous : Option String) :
    AuthorityWalRecordV1 :=
  storedRecord landTransaction payload 1600 "owner-1" "owner-key-1" "opaque-test-algorithm"
    sequence previous "opaque-record-signature"

def landLog : List AuthorityWalRecordV1 :=
  let first := landRecord (.Prepare ⟨landTransaction⟩) 1 none
  let second := landRecord (.Provisional landProvisional) 2 (some first.recordDigest)
  let third := landRecord (.Commit landCommit) 3 (some second.recordDigest)
  [first, second, third]

theorem landRecord_validates {payload : AuthorityWalPayloadV1} {sequence : Nat}
    {previous : Option String} (hsequence : sequence ≠ 0)
    (hshape : validatePayloadShape payload 1600 = .ok ())
    (hpayload : ensurePayloadBinds payload landTransaction = .ok ())
    (hprevious : ∀ digest, previous = some digest → isDigest digest = true) :
    ∃ validation, (landRecord payload sequence previous).validateAgainstTransaction
      landTransaction = .ok validation := by
  obtain ⟨_, htransaction⟩ := landTransaction_validates
  exact storedRecord_validates_against htransaction hshape hsequence (by decide) (by decide)
    (by decide) (by decide) hprevious hpayload

theorem landLog_validates : ∀ record ∈ landLog,
    ∃ validation, record.validateAgainstTransaction landTransaction = .ok validation := by
  obtain ⟨_, htransaction⟩ := landTransaction_validates
  have hdigest : ∀ payload sequence previous digest,
      some (landRecord payload sequence previous).recordDigest = some digest →
      isDigest digest = true := by
    rintro payload sequence previous digest ⟨⟩
    exact isDigest_digestCanonical _ _
  simp only [landLog, List.forall_mem_cons]
  refine ⟨landRecord_validates (by decide) ?_ ?_ (by simp), landRecord_validates (by decide)
    (by rfl) (by rfl) (hdigest _ _ _), landRecord_validates (by decide) (by rfl) (by rfl)
    (hdigest _ _ _), by simp⟩
  · simp [validatePayloadShape, htransaction, bind, Except.bind, pure, Except.pure]
  · simp [ensurePayloadBinds]

end M1nd.Control
