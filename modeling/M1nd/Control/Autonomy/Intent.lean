import M1nd.Control.Autonomy.Constitution

namespace M1nd.Control

open M1nd.Library.Json
open M1nd.Library.Checks

def SOVEREIGN_ACTION_INTENT_SCHEMA : String := "m1nd-sovereign-action-intent-v1"

@[ext]
structure IntentCoreRefV1 where
  intentDigest : String
  canonicalizationVersion : String
  contentAddress : String
deriving DecidableEq

@[ext]
structure SovereignIntentCoreV1 where
  actionClass : String
  semanticActionId : String
  actionPayloadDigest : String
  issuerSubjectId : String
  decisionSubjectId : String
  callerSubjectId : String
  audience : String
  proposerSubjectId : String
  executorSubjectId : Option String
  promotionTargetSubjectId : Option String
  ratificationTargetSubjectId : Option String
  delegationGrantDigest : Option String
  requiredAuthorityVariant : AuthorityVariant
  actionPolicyRegistryDigest : String
  classifierDecisionDigest : String
  applicableGrantId : Option String
  applicableGrantDigest : Option String
  organismId : String
  repoId : String
  brainId : String
  missionId : Option String
  missionHeadId : Option String
  blockId : Option String
  candidateDigest : Option String
  promotionSubjectId : Option String
  activeMode : ActiveMode
  effectiveTier : AutonomyTier
  riskClass : RiskClass
  riskScopeDigest : String
  resourceEnvironmentScopeDigest : String
  requestedBudget : Nat
  constitutionDigest : String
  constitutionEpoch : Nat
  autonomyEpoch : Nat
  expectedStoreEpoch : Nat
  expectedStoreVersion : Nat
  expectedBoundaryVersion : Nat
  expectedContractVersion : Nat
  metricSpecDigest : String
  evidenceDigest : String
  rolloutPlanDigest : String
  rollbackPlanDigest : String
  nonce : String
  issuedAt : Nat
  expiresAt : Nat

@[ext]
structure SovereignActionIntentV1 where
  schema : String
  core : SovereignIntentCoreV1
  intentDigest : String
  intentCoreRef : IntentCoreRefV1

open Autonomy

namespace IntentCoreRefV1

def contentAddressOf (safety : Bool) (intentDigest : String) : String :=
  (if safety then "intent:safety:sha256:" else "intent:sha256:") ++ intentDigest

def forSovereignDigest (intentDigest : String) : IntentCoreRefV1 where
  intentDigest := intentDigest
  canonicalizationVersion := CANONICALIZATION_VERSION
  contentAddress := contentAddressOf false intentDigest

end IntentCoreRefV1

namespace SovereignActionIntentV1

-- A proposal of the human owner, as the contract tests start from.
def fixtureCore (actionClass semanticActionId constitutionDigest : String) :
    SovereignIntentCoreV1 where
  actionClass := actionClass
  semanticActionId := semanticActionId
  actionPayloadDigest := hash '1'
  issuerSubjectId := "owner-human"
  decisionSubjectId := "owner-human"
  callerSubjectId := "owner-human"
  audience := "m1nd-owner"
  proposerSubjectId := "action-proposer"
  executorSubjectId := some "action-executor"
  promotionTargetSubjectId := none
  ratificationTargetSubjectId := none
  delegationGrantDigest := none
  requiredAuthorityVariant := .Human
  actionPolicyRegistryDigest := hash '2'
  classifierDecisionDigest := hash '3'
  applicableGrantId := none
  applicableGrantDigest := none
  organismId := "organism-1"
  repoId := "repo-1"
  brainId := "brain-1"
  missionId := some "mission-1"
  missionHeadId := some "head-1"
  blockId := some "block-1"
  candidateDigest := none
  promotionSubjectId := none
  activeMode := .HumanGated
  effectiveTier := .A1Propose
  riskClass := .Low
  riskScopeDigest := hash '4'
  resourceEnvironmentScopeDigest := hash '5'
  requestedBudget := 1
  constitutionDigest := constitutionDigest
  constitutionEpoch := 0
  autonomyEpoch := 0
  expectedStoreEpoch := 11
  expectedStoreVersion := 12
  expectedBoundaryVersion := 13
  expectedContractVersion := 14
  metricSpecDigest := hash '6'
  evidenceDigest := hash '7'
  rolloutPlanDigest := hash '8'
  rollbackPlanDigest := hash '9'
  nonce := "nonce-1"
  issuedAt := 9000
  expiresAt := 20000

end SovereignActionIntentV1

end M1nd.Control
