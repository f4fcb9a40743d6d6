import M1nd.Control.Autonomy.Contract

namespace M1nd.Control

open M1nd.Library.Json
open M1nd.Library.Checks

def SAFETY_KERNEL_SCHEMA : String := "m1nd-safety-kernel-v1"
def CONSTITUTION_SCHEMA : String := "m1nd-constitution-store-v1"
def INDEPENDENCE_SPEC_SCHEMA : String := "m1nd-independence-spec-v1"

def SAFETY_KERNEL_DIGEST_DOMAIN : String := "m1nd-safety-kernel-v1"
def CONSTITUTION_DIGEST_DOMAIN : String := "m1nd-constitution-v1"
def INDEPENDENCE_SPEC_DIGEST_DOMAIN : String := "m1nd-independence-spec-v1"

def IMMUTABLE_VERIFIER_SEATS : Nat := 4
def IMMUTABLE_QUORUM_THRESHOLD : Nat := 3
def IMMUTABLE_FAILURE_DOMAINS : Nat := 3

@[ext]
structure SafetyKernelCoreV1 where
  kernelId : String
  verifierBinaryDigest : String
  canonicalizationVersion : String
  pinnedExternalRootKey : String
  verifiedBootPolicyDigest : String
  immutableInvariantsDigest : String
  minimumVerifierSeats : Nat
  minimumQuorumThreshold : Nat
  minimumFailureDomains : Nat
  proposerExecutorNonvoting : Bool
  sentinelRequiredAndNonvoting : Bool
  sentinelRedAbsoluteVeto : Bool
  sentinelOutboxAntirollbackRequired : Bool
  sentinelIdentityKeyBinaryPolicyDigest : String
  safetyActuatorIdentityKeyBinaryPolicyDigest : String
  requiredSentinelUnavailableFailClosed : Bool
  auditWalTamperDetectionRequired : Bool
  epochFreezeAndRollbackRequired : Bool
  oldRuntimeApprovalRequired : Bool
  allowedNegativeEffects : BTreeSet Effect

@[ext]
structure SafetyKernelV1 where
  schema : String
  core : SafetyKernelCoreV1
  kernelDigest : String
  externalRootSignature : OpaqueSignature

@[ext]
structure VerifierSeatV1 where
  principalId : String
  keyId : String
  failureDomain : String
  parentSessionContextDigest : String

@[ext]
structure IndependenceSpecCoreV1 where
  constitutionEpoch : Nat
  votingVerifiers : List VerifierSeatV1
  quorumThreshold : Nat
  minimumFailureDomains : Nat
  blindIsolationPolicyDigest : String
  nonvotingSentinelId : String
  proposerExecutorNonvoting : Bool
  sentinelNonvoting : Bool

@[ext]
structure IndependenceSpecV1 where
  schema : String
  core : IndependenceSpecCoreV1
  independenceSpecDigest : String

@[ext]
structure ConstitutionCoreV1 where
  constitutionEpoch : Nat
  previousConstitutionDigest : Option String
  effectiveAt : Nat
  expiresAt : Nat
  allowedAutonomyModes : BTreeSet ActiveMode
  objectives : BTreeSet String
  nonGoals : BTreeSet String
  resourceScopeDigest : String
  riskBudgetActionPolicyDigest : String
  independenceSpecDigest : String
  metricSpecsDigest : String
  canaryRequirementsDigest : String
  rollbackRequirementsDigest : String
  amendmentRulesDigest : String
  previousGovernanceRuntimeDigest : String
  adoptingGovernanceRuntimeDigest : String
  oldRuntimeApprovalDigest : Option String
  issuerSubjectId : String

@[ext]
structure ConstitutionStoreV1 where
  schema : String
  core : ConstitutionCoreV1
  constitutionDigest : String
  signature : OpaqueSignature

def SafetyKernelCoreV1.toValue (core : SafetyKernelCoreV1) : Value :=
  .object [
    ("kernel_id", .string core.kernelId),
    ("verifier_binary_digest", .string core.verifierBinaryDigest),
    ("canonicalization_version", .string core.canonicalizationVersion),
    ("pinned_external_root_key", .string core.pinnedExternalRootKey),
    ("verified_boot_policy_digest", .string core.verifiedBootPolicyDigest),
    ("immutable_invariants_digest", .string core.immutableInvariantsDigest),
    ("minimum_verifier_seats", .ofNat core.minimumVerifierSeats),
    ("minimum_quorum_threshold", .ofNat core.minimumQuorumThreshold),
    ("minimum_failure_domains", .ofNat core.minimumFailureDomains),
    ("proposer_executor_nonvoting", .bool core.proposerExecutorNonvoting),
    ("sentinel_required_and_nonvoting", .bool core.sentinelRequiredAndNonvoting),
    ("sentinel_red_absolute_veto", .bool core.sentinelRedAbsoluteVeto),
    ("sentinel_outbox_antirollback_required", .bool core.sentinelOutboxAntirollbackRequired),
    ("sentinel_identity_key_binary_policy_digest",
      .string core.sentinelIdentityKeyBinaryPolicyDigest),
    ("safety_actuator_identity_key_binary_policy_digest",
      .string core.safetyActuatorIdentityKeyBinaryPolicyDigest),
    ("required_sentinel_unavailable_fail_closed",
      .bool core.requiredSentinelUnavailableFailClosed),
    ("audit_wal_tamper_detection_required", .bool core.auditWalTamperDetectionRequired),
    ("epoch_freeze_and_rollback_required", .bool core.epochFreezeAndRollbackRequired),
    ("old_runtime_approval_required", .bool core.oldRuntimeApprovalRequired),
    ("allowed_negative_effects", nameSet Effect.name core.allowedNegativeEffects)]

def VerifierSeatV1.toValue (seat : VerifierSeatV1) : Value :=
  .object [
    ("principal_id", .string seat.principalId),
    ("key_id", .string seat.keyId),
    ("failure_domain", .string seat.failureDomain),
    ("parent_session_context_digest", .string seat.parentSessionContextDigest)]

def IndependenceSpecCoreV1.toValue (core : IndependenceSpecCoreV1) : Value :=
  .object [
    ("constitution_epoch", .ofNat core.constitutionEpoch),
    ("voting_verifiers", listValue VerifierSeatV1.toValue core.votingVerifiers),
    ("quorum_threshold", .ofNat core.quorumThreshold),
    ("minimum_failure_domains", .ofNat core.minimumFailureDomains),
    ("blind_isolation_policy_digest", .string core.blindIsolationPolicyDigest),
    ("nonvoting_sentinel_id", .string core.nonvotingSentinelId),
    ("proposer_executor_nonvoting", .bool core.proposerExecutorNonvoting),
    ("sentinel_nonvoting", .bool core.sentinelNonvoting)]

def ConstitutionCoreV1.toValue (core : ConstitutionCoreV1) : Value :=
  .object [
    ("constitution_epoch", .ofNat core.constitutionEpoch),
    ("previous_constitution_digest", optionalString core.previousConstitutionDigest),
    ("effective_at", .ofNat core.effectiveAt),
    ("expires_at", .ofNat core.expiresAt),
    ("allowed_autonomy_modes", nameSet ActiveMode.name core.allowedAutonomyModes),
    ("objectives", stringSet core.objectives),
    ("non_goals", stringSet core.nonGoals),
    ("resource_scope_digest", .string core.resourceScopeDigest),
    ("risk_budget_action_policy_digest", .string core.riskBudgetActionPolicyDigest),
    ("independence_spec_digest", .string core.independenceSpecDigest),
    ("metric_specs_digest", .string core.metricSpecsDigest),
    ("canary_requirements_digest", .string core.canaryRequirementsDigest),
    ("rollback_requirements_digest", .string core.rollbackRequirementsDigest),
    ("amendment_rules_digest", .string core.amendmentRulesDigest),
    ("previous_governance_runtime_digest", .string core.previousGovernanceRuntimeDigest),
    ("adopting_governance_runtime_digest", .string core.adoptingGovernanceRuntimeDigest),
    ("old_runtime_approval_digest", optionalString core.oldRuntimeApprovalDigest),
    ("issuer_subject_id", .string core.issuerSubjectId)]

open Autonomy

def SafetyKernelV1.canonicalNegativeEffects : BTreeSet Effect :=
  .ofList [Effect.FreezeIssuance, .EpochFence, .EpochBump, .RevokeCapability, .AbortPrepared,
    .DemoteGrant, .RollbackSignedCandidate]

variable [Sha256]

namespace SafetyKernelV1

def computeKernelDigest (kernel : SafetyKernelV1) : String :=
  digestCanonical SAFETY_KERNEL_DIGEST_DOMAIN kernel.core.toValue

def sealed (kernel : SafetyKernelV1) : SafetyKernelV1 :=
  { kernel with kernelDigest := kernel.computeKernelDigest }

def validate (kernel : SafetyKernelV1) :
    Except AutonomyContractError AutonomyStructuralValidation := do
  let core := kernel.core
  requireSchema "SafetyKernelV1" kernel.schema SAFETY_KERNEL_SCHEMA
  requireNonEmpty "kernel_id" core.kernelId
  requireNonEmpty "canonicalization_version" core.canonicalizationVersion
  rejectIf (core.canonicalizationVersion ≠ CANONICALIZATION_VERSION)
    (.KernelFloor "canonicalization version must equal the runtime-pinned version")
  requireNonEmpty "pinned_external_root_key" core.pinnedExternalRootKey
  forM [
    ("verifier_binary_digest", core.verifierBinaryDigest),
    ("verified_boot_policy_digest", core.verifiedBootPolicyDigest),
    ("immutable_invariants_digest", core.immutableInvariantsDigest),
    ("sentinel_identity_key_binary_policy_digest", core.sentinelIdentityKeyBinaryPolicyDigest),
    ("safety_actuator_identity_key_binary_policy_digest",
      core.safetyActuatorIdentityKeyBinaryPolicyDigest)]
    fun (field, digest) => requireDigest field digest
  rejectIf (core.minimumVerifierSeats ≠ IMMUTABLE_VERIFIER_SEATS)
    (.KernelFloor "verifier seats must be pinned to four")
  rejectIf (core.minimumQuorumThreshold ≠ IMMUTABLE_QUORUM_THRESHOLD)
    (.KernelFloor "quorum threshold must be pinned to three-of-four")
  rejectIf (core.minimumFailureDomains ≠ IMMUTABLE_FAILURE_DOMAINS)
    (.KernelFloor "at least three independent failure domains are immutable")
  forM [
    (core.proposerExecutorNonvoting, "proposer and executor must remain non-voting"),
    (core.sentinelRequiredAndNonvoting,
      "the independent sentinel must remain required and non-voting"),
    (core.sentinelRedAbsoluteVeto, "sentinel RED must remain an absolute veto"),
    (core.sentinelOutboxAntirollbackRequired, "sentinel outbox anti-rollback is mandatory"),
    (core.requiredSentinelUnavailableFailClosed,
      "required sentinel unavailability must fail closed"),
    (core.auditWalTamperDetectionRequired, "audit/WAL tamper detection is mandatory"),
    (core.epochFreezeAndRollbackRequired, "epoch freeze and rollback are mandatory"),
    (core.oldRuntimeApprovalRequired, "governance adoption requires old-runtime approval")]
    fun (enabled, rule) => rejectIf (¬ enabled) (.KernelFloor rule)
  rejectIf (core.allowedNegativeEffects ≠ canonicalNegativeEffects) .SafetyAllowListMismatch
  requireDigest "kernel_digest" kernel.kernelDigest
  let computed := kernel.computeKernelDigest
  requireDigestEquality "kernel_digest" computed kernel.kernelDigest
  requireSignature "external_root_signature" kernel.externalRootSignature
  return .sealedAs computed

end SafetyKernelV1

namespace IndependenceSpecV1

def computeDigest (spec : IndependenceSpecV1) : String :=
  digestCanonical INDEPENDENCE_SPEC_DIGEST_DOMAIN spec.core.toValue

def sealed (spec : IndependenceSpecV1) : IndependenceSpecV1 :=
  { spec with independenceSpecDigest := spec.computeDigest }

-- What the loop over the seats has seen.
structure SeenSeats where
  principals : BTreeSet String
  keys : BTreeSet String
  contexts : BTreeSet String
  domains : BTreeSet String

def SeenSeats.none : SeenSeats where
  principals := ∅
  keys := ∅
  contexts := ∅
  domains := ∅

def SeenSeats.see (seen : SeenSeats) (seat : VerifierSeatV1) :
    Except AutonomyContractError SeenSeats := do
  requireNonEmpty "verifier.principal_id" seat.principalId
  requireNonEmpty "verifier.key_id" seat.keyId
  requireNonEmpty "verifier.failure_domain" seat.failureDomain
  requireDigest "verifier.parent_session_context_digest" seat.parentSessionContextDigest
  rejectIf (seat.principalId ∈ seen.principals ∨ seat.keyId ∈ seen.keys ∨
    seat.parentSessionContextDigest ∈ seen.contexts) .NonIndependentQuorum
  return {
    principals := seen.principals.insert seat.principalId
    keys := seen.keys.insert seat.keyId
    contexts := seen.contexts.insert seat.parentSessionContextDigest
    domains := seen.domains.insert seat.failureDomain }

def validateAgainstKernel (spec : IndependenceSpecV1) (kernel : SafetyKernelV1) :
    Except AutonomyContractError Unit := do
  let core := spec.core
  let _ ← kernel.validate
  requireSchema "IndependenceSpecV1" spec.schema INDEPENDENCE_SPEC_SCHEMA
  rejectIf (core.votingVerifiers.length ≠ kernel.core.minimumVerifierSeats)
    (.KernelFloor "constitution must preserve the four frozen voting seats")
  rejectIf (core.quorumThreshold < kernel.core.minimumQuorumThreshold ∨
      core.quorumThreshold > core.votingVerifiers.length)
    (.KernelFloor "constitution cannot reduce the three-of-four quorum")
  rejectIf (core.minimumFailureDomains < kernel.core.minimumFailureDomains)
    (.KernelFloor "constitution cannot reduce failure-domain diversity")
  rejectIf (¬ core.proposerExecutorNonvoting ∨ ¬ core.sentinelNonvoting)
    (.KernelFloor "proposer, executor, and sentinel remain non-voting")
  requireNonEmpty "nonvoting_sentinel_id" core.nonvotingSentinelId
  requireDigest "blind_isolation_policy_digest" core.blindIsolationPolicyDigest
  let seen ← core.votingVerifiers.foldlM SeenSeats.see .none
  rejectIf (seen.domains.size < core.minimumFailureDomains) .NonIndependentQuorum
  rejectIf (core.nonvotingSentinelId ∈ seen.principals) .NonIndependentQuorum
  requireDigest "independence_spec_digest" spec.independenceSpecDigest
  let computed := spec.computeDigest
  requireDigestEquality "independence_spec_digest" computed spec.independenceSpecDigest

end IndependenceSpecV1

namespace ConstitutionStoreV1

def computeDigest (constitution : ConstitutionStoreV1) : String :=
  digestCanonical CONSTITUTION_DIGEST_DOMAIN constitution.core.toValue

def sealed (constitution : ConstitutionStoreV1) : ConstitutionStoreV1 :=
  { constitution with constitutionDigest := constitution.computeDigest }

end ConstitutionStoreV1

end M1nd.Control

namespace M1nd.Control

open M1nd.Library.Checks
open Autonomy

-- The records the contract tests start from.

def hash (character : Char) : String :=
  String.ofList (List.replicate 64 character)

private theorem hexDigits_ascii : ("0123456789abcdef".toList.all fun c =>
    String.utf8EncodeChar c == [c.toUInt8] && isHexByte c.toUInt8) = true := by
  decide

private theorem hexDigit_ascii (c : Char) (hc : c ∈ "0123456789abcdef".toList) :
    String.utf8EncodeChar c = [c.toUInt8] ∧ isHexByte c.toUInt8 = true := by
  simpa using List.all_eq_true.mp hexDigits_ascii c hc

theorem isDigest_hash (c : Char) (hc : c ∈ "0123456789abcdef".toList) :
    isDigest (hash c) = true :=
  isDigest_replicate (hexDigit_ascii c hc).1 (hexDigit_ascii c hc).2

def kernelFixtureCore : SafetyKernelCoreV1 where
  kernelId := "kernel-1"
  verifierBinaryDigest := hash 'a'
  canonicalizationVersion := CANONICALIZATION_VERSION
  pinnedExternalRootKey := "offline-root-key-1"
  verifiedBootPolicyDigest := hash 'b'
  immutableInvariantsDigest := hash 'c'
  minimumVerifierSeats := IMMUTABLE_VERIFIER_SEATS
  minimumQuorumThreshold := IMMUTABLE_QUORUM_THRESHOLD
  minimumFailureDomains := IMMUTABLE_FAILURE_DOMAINS
  proposerExecutorNonvoting := true
  sentinelRequiredAndNonvoting := true
  sentinelRedAbsoluteVeto := true
  sentinelOutboxAntirollbackRequired := true
  sentinelIdentityKeyBinaryPolicyDigest := hash 'd'
  safetyActuatorIdentityKeyBinaryPolicyDigest := hash 'e'
  requiredSentinelUnavailableFailClosed := true
  auditWalTamperDetectionRequired := true
  epochFreezeAndRollbackRequired := true
  oldRuntimeApprovalRequired := true
  allowedNegativeEffects := SafetyKernelV1.canonicalNegativeEffects

def independenceFixtureCore : IndependenceSpecCoreV1 where
  constitutionEpoch := 0
  votingVerifiers := [
    { principalId := "verifier-1", keyId := "verifier-key-1",
      failureDomain := "provider-a/model-a/runtime-a", parentSessionContextDigest := hash '1' },
    { principalId := "verifier-2", keyId := "verifier-key-2",
      failureDomain := "provider-b/model-b/runtime-b", parentSessionContextDigest := hash '2' },
    { principalId := "verifier-3", keyId := "verifier-key-3",
      failureDomain := "provider-c/model-c/runtime-c", parentSessionContextDigest := hash '3' },
    { principalId := "verifier-4", keyId := "verifier-key-4",
      failureDomain := "provider-c/model-c/runtime-c", parentSessionContextDigest := hash '4' }]
  quorumThreshold := IMMUTABLE_QUORUM_THRESHOLD
  minimumFailureDomains := IMMUTABLE_FAILURE_DOMAINS
  blindIsolationPolicyDigest := hash '5'
  nonvotingSentinelId := "sentinel-1"
  proposerExecutorNonvoting := true
  sentinelNonvoting := true

def everyMode : BTreeSet ActiveMode :=
  .ofList [ActiveMode.HumanGated, .PolicyAutonomous, .FullAutonomy]

def constitutionFixtureCore (independenceSpecDigest : String) : ConstitutionCoreV1 where
  constitutionEpoch := 0
  previousConstitutionDigest := none
  effectiveAt := 1000
  expiresAt := 100000
  allowedAutonomyModes := everyMode
  objectives := .ofList ["correctness"]
  nonGoals := .ofList ["unbounded-authority"]
  resourceScopeDigest := hash '6'
  riskBudgetActionPolicyDigest := hash '7'
  independenceSpecDigest := independenceSpecDigest
  metricSpecsDigest := hash '8'
  canaryRequirementsDigest := hash '9'
  rollbackRequirementsDigest := hash 'a'
  amendmentRulesDigest := hash 'b'
  previousGovernanceRuntimeDigest := hash 'c'
  adoptingGovernanceRuntimeDigest := hash 'd'
  oldRuntimeApprovalDigest := none
  issuerSubjectId := "external-bootstrap-root"

variable [Sha256]

def kernelFixture : SafetyKernelV1 :=
  SafetyKernelV1.sealed {
    schema := SAFETY_KERNEL_SCHEMA
    core := kernelFixtureCore
    kernelDigest := ""
    externalRootSignature := ⟨"opaque-external-root"⟩ }

theorem kernelFixture_core : kernelFixture.core = kernelFixtureCore := rfl

theorem kernelFixture_validate :
    kernelFixture.validate = .ok (.sealedAs kernelFixture.kernelDigest) := by
  have hdigest : isDigest kernelFixture.kernelDigest = true := isDigest_digestCanonical ..
  simp only [SafetyKernelV1.validate, bind_eq_ok, exists_unit, rejectIf_eq_ok,
    requireSchema_eq_ok, requireNonEmpty_eq_ok, forM_eq_ok, requireDigest_eq_ok,
    requireDigestEquality_eq_ok, requireSignature_eq_ok, pure_eq_ok, not_not,
    List.forall_mem_cons, List.not_mem_nil, false_imp_iff, implies_true, and_true,
    kernelFixture_core]
  refine ⟨rfl, by decide, by decide, rfl, by decide, ?_, rfl, rfl, rfl, by decide, rfl, hdigest,
    ⟨hdigest, rfl⟩, rfl, rfl⟩
  refine ⟨?_, ?_, ?_, ?_, ?_⟩ <;> exact isDigest_hash _ (by decide)

def independenceFixture : IndependenceSpecV1 :=
  IndependenceSpecV1.sealed {
    schema := INDEPENDENCE_SPEC_SCHEMA
    core := independenceFixtureCore
    independenceSpecDigest := "" }

theorem independenceFixture_core : independenceFixture.core = independenceFixtureCore := rfl

theorem isDigest_independenceFixture :
    isDigest independenceFixture.independenceSpecDigest = true :=
  isDigest_digestCanonical ..

omit [Sha256] in
private theorem seen_independenceFixture :
    ∃ seen, independenceFixtureCore.votingVerifiers.foldlM IndependenceSpecV1.SeenSeats.see
        IndependenceSpecV1.SeenSeats.none = .ok seen ∧
      ¬ seen.domains.size < 3 ∧ "sentinel-1" ∉ seen.principals :=
  ⟨_, rfl, by decide, by decide⟩

theorem independenceFixture_validate :
    independenceFixture.validateAgainstKernel kernelFixture = .ok () := by
  obtain ⟨seen, hseen, hdomains, hsentinel⟩ := seen_independenceFixture
  simp only [IndependenceSpecV1.validateAgainstKernel, bind_eq_ok, exists_unit, rejectIf_eq_ok,
    requireSchema_eq_ok, requireNonEmpty_eq_ok, requireDigest_eq_ok, requireDigestEquality_eq_ok]
  rw [kernelFixture_core, independenceFixture_core]
  have hdigest := isDigest_independenceFixture
  exact ⟨_, kernelFixture_validate, rfl, by decide, by decide, by decide, by decide,
    by decide, isDigest_hash _ (by decide), seen, hseen, hdomains, hsentinel, hdigest, hdigest, rfl⟩

def constitutionFixture : ConstitutionStoreV1 :=
  ConstitutionStoreV1.sealed {
    schema := CONSTITUTION_SCHEMA
    core := constitutionFixtureCore independenceFixture.independenceSpecDigest
    constitutionDigest := ""
    signature := ⟨"opaque-constitution"⟩ }

end M1nd.Control
