import M1nd.Control.Policy
import M1nd.Library.Checks

namespace M1nd.Control

open M1nd.Library.Json
open M1nd.Library.Checks

def ACTION_POLICY_REGISTRY_SCHEMA : String := "m1nd-action-policy-registry-v1"
def ACTION_POLICY_DIGEST_DOMAIN : String := "m1nd-action-policy-registry-v1"

inductive Ingress
  | Mcp
  | Rest
  | Cli
  | Hook
  | BackgroundJob
  | Recovery
  | Migration
deriving DecidableEq

def Ingress.name : Ingress → String
  | .Mcp => "MCP"
  | .Rest => "REST"
  | .Cli => "CLI"
  | .Hook => "HOOK"
  | .BackgroundJob => "BACKGROUND_JOB"
  | .Recovery => "RECOVERY"
  | .Migration => "MIGRATION"

instance : Ord Ingress := ⟨compareOn Ingress.ctorIdx⟩

instance : Std.TransOrd Ingress := inferInstanceAs (Std.TransCmp (compareOn Ingress.ctorIdx))

instance : Std.LawfulEqOrd Ingress where
  eq_of_compare {a b} h := by
    cases a <;> cases b <;> first | rfl | cases h

instance : Ord AuthorityVariant := ⟨compareOn AuthorityVariant.ctorIdx⟩

instance : Std.TransOrd AuthorityVariant :=
  inferInstanceAs (Std.TransCmp (compareOn AuthorityVariant.ctorIdx))

instance : Std.LawfulEqOrd AuthorityVariant where
  eq_of_compare {a b} h := by
    cases a <;> cases b <;> first | rfl | cases h

instance : Ord AutonomyTier := ⟨compareOn AutonomyTier.ctorIdx⟩

instance : Std.TransOrd AutonomyTier :=
  inferInstanceAs (Std.TransCmp (compareOn AutonomyTier.ctorIdx))

instance : Std.LawfulEqOrd AutonomyTier where
  eq_of_compare {a b} h := by
    cases a <;> cases b <;> first | rfl | cases h

-- One exact lookup key that can reach the policy middleware of the owner.
structure ReachablePolicyTupleV1 where
  ingress : Ingress
  action : String
  activeMode : ActiveMode
  subjectId : String
  authorityVariant : AuthorityVariant
  applicableGrantId : Option String
  applicableTier : Option AutonomyTier
  riskClass : RiskClass
deriving DecidableEq

section Order

attribute [local instance] lexOrd

abbrev ReachablePolicyTupleV1.Key : Type :=
  Ingress × String × ActiveMode × String × AuthorityVariant × Option String ×
    Option AutonomyTier × RiskClass

-- Tuples are ordered field by field, in the order of their fields.
def ReachablePolicyTupleV1.key (tuple : ReachablePolicyTupleV1) : Key :=
  (tuple.ingress, tuple.action, tuple.activeMode, tuple.subjectId, tuple.authorityVariant,
    tuple.applicableGrantId, tuple.applicableTier, tuple.riskClass)

theorem ReachablePolicyTupleV1.key_inj {a b : ReachablePolicyTupleV1} (h : a.key = b.key) :
    a = b := by
  cases a
  cases b
  simpa [key] using h

instance : Ord ReachablePolicyTupleV1 := ⟨compareOn ReachablePolicyTupleV1.key⟩

instance : Std.TransOrd ReachablePolicyTupleV1 :=
  inferInstanceAs (Std.TransCmp (compareOn ReachablePolicyTupleV1.key))

instance : Std.LawfulEqOrd ReachablePolicyTupleV1 where
  eq_of_compare h := ReachablePolicyTupleV1.key_inj <|
    Std.LawfulEqOrd.eq_of_compare (α := ReachablePolicyTupleV1.Key) h

end Order

structure ActionPolicyRuleV1 where
  tuple : ReachablePolicyTupleV1
  effects : BTreeSet Effect

-- The least effects of an action, whatever its ingress and its risk.
structure ActionEffectFloorV1 where
  action : String
  requiredEffects : BTreeSet Effect

structure ActionPolicyRegistryV1 where
  schema : String
  policyVersion : String
  reachableTuples : List ReachablePolicyTupleV1
  rules : List ActionPolicyRuleV1
  actionEffectFloors : List ActionEffectFloorV1
  policyDigest : String

structure PolicyValidation where
  reachableTupleCount : Nat
  ruleCount : Nat
  actionCount : Nat
  computedPolicyDigest : String
deriving DecidableEq

inductive PolicyError
  | Schema (actual : String)
  | EmptyRequired (field : String)
  | NoReachableTuples
  | NoRules
  | NoEffectFloors
  | DuplicateReachableTuple (tuple : ReachablePolicyTupleV1)
  | DuplicateRule (tuple : ReachablePolicyTupleV1)
  | DuplicateEffectFloor (action : String)
  | EmptyRuleEffects (action : String)
  | EmptyEffectFloor (action : String)
  | MissingRule (tuple : ReachablePolicyTupleV1)
  | UnreachableRule (tuple : ReachablePolicyTupleV1)
  | MissingEffectFloor (action : String)
  | UnreachableEffectFloor (action : String)
  | MissingRequiredEffect (action : String) (effect : Effect)
  | HumanGrantOrTierForbidden
  | AutonomousGrantAndTierRequired
  | SafetyGrantOrTierForbidden
  | IncompleteGrantTier
  | AuthorityModeMismatch (activeMode : ActiveMode) (authorityVariant : AuthorityVariant)
  | NonSafetyEffectInSafetyRule (action : String) (effect : Effect)
  | SafetyEffectOutsideSafetyRule (action : String) (effect : Effect)
  | SovereignEffectInOrdinaryRule (action : String)
  | MissingSovereignEffect (action : String)
  | PolicyDigestMismatch (expected observed : String)
deriving DecidableEq

def effectsValue (effects : BTreeSet Effect) : Value :=
  .array (effects.toList.map fun effect => .string effect.name)

def ReachablePolicyTupleV1.toValue (tuple : ReachablePolicyTupleV1) : Value :=
  .object [
    ("ingress", .string tuple.ingress.name),
    ("action", .string tuple.action),
    ("active_mode", .string tuple.activeMode.name),
    ("subject_id", .string tuple.subjectId),
    ("authority_variant", .string tuple.authorityVariant.name),
    ("applicable_grant_id", optionalString tuple.applicableGrantId),
    ("applicable_tier", optionalString (tuple.applicableTier.map AutonomyTier.name)),
    ("risk_class", .string tuple.riskClass.name)]

def ActionPolicyRuleV1.toValue (rule : ActionPolicyRuleV1) : Value :=
  .object [
    ("tuple", rule.tuple.toValue),
    ("effects", effectsValue rule.effects)]

def ActionEffectFloorV1.toValue (floor : ActionEffectFloorV1) : Value :=
  .object [
    ("action", .string floor.action),
    ("required_effects", effectsValue floor.requiredEffects)]

-- The registry without the digest it carries of itself.
def ActionPolicyRegistryV1.toUnsealedValue (registry : ActionPolicyRegistryV1) : Value :=
  .object [
    ("schema", .string registry.schema),
    ("policy_version", .string registry.policyVersion),
    ("reachable_tuples", .array (registry.reachableTuples.map ReachablePolicyTupleV1.toValue)),
    ("rules", .array (registry.rules.map ActionPolicyRuleV1.toValue)),
    ("action_effect_floors", .array (registry.actionEffectFloors.map ActionEffectFloorV1.toValue))]

namespace ActionPolicy

def requireNonEmpty (field value : String) : Except PolicyError Unit :=
  rejectIf (isBlank value) (.EmptyRequired field)

def validateOptionalNonEmpty (field : String) (value : Option String) : Except PolicyError Unit :=
  rejectIf (value.any isBlank) (.EmptyRequired field)

-- The grant and the tier go with the variant.
def validateGrantTier (tuple : ReachablePolicyTupleV1) : Except PolicyError Unit :=
  match tuple.authorityVariant with
  | .Human =>
      rejectIf (tuple.applicableGrantId.isSome ∨ tuple.applicableTier.isSome)
        .HumanGrantOrTierForbidden
  | .Policy | .AgentQuorum =>
      rejectIf (tuple.applicableGrantId.isNone ∨ tuple.applicableTier.isNone)
        .AutonomousGrantAndTierRequired
  | .SafetyKernel =>
      rejectIf (tuple.applicableGrantId.isSome ∨ tuple.applicableTier.isSome)
        .SafetyGrantOrTierForbidden
  | .Ordinary =>
      rejectIf (tuple.applicableGrantId.isSome ≠ tuple.applicableTier.isSome) .IncompleteGrantTier

def modeMatches : ActiveMode → AuthorityVariant → Bool
  | .HumanGated, .Ordinary | .HumanGated, .Human | .HumanGated, .SafetyKernel => true
  | .PolicyAutonomous, .Ordinary | .PolicyAutonomous, .Human | .PolicyAutonomous, .Policy
  | .PolicyAutonomous, .SafetyKernel => true
  | .FullAutonomy, .Ordinary | .FullAutonomy, .AgentQuorum | .FullAutonomy, .SafetyKernel => true
  | _, _ => false

def validateTuple (tuple : ReachablePolicyTupleV1) : Except PolicyError Unit := do
  requireNonEmpty "reachable_tuples[].action" tuple.action
  requireNonEmpty "reachable_tuples[].subject_id" tuple.subjectId
  validateOptionalNonEmpty "reachable_tuples[].applicable_grant_id" tuple.applicableGrantId
  validateGrantTier tuple
  rejectIf (¬ modeMatches tuple.activeMode tuple.authorityVariant)
    (.AuthorityModeMismatch tuple.activeMode tuple.authorityVariant)

def validateEffectPath (rule : ActionPolicyRuleV1) : Except PolicyError Unit :=
  let action := rule.tuple.action
  match rule.tuple.authorityVariant with
  | .SafetyKernel =>
      forM rule.effects.toList fun effect =>
        rejectIf (¬ effect.isNegativeSafety) (.NonSafetyEffectInSafetyRule action effect)
  | variant => do
      forM rule.effects.toList fun effect =>
        rejectIf effect.isNegativeSafety (.SafetyEffectOutsideSafetyRule action effect)
      rejectIf (variant = .Ordinary ∧ .SovereignMutation ∈ rule.effects)
        (.SovereignEffectInOrdinaryRule action)
      rejectIf (variant.isPositiveSovereign ∧ .SovereignMutation ∉ rule.effects)
        (.MissingSovereignEffect action)

-- What the loop over the reachable tuples has collected.
structure Reach where
  reachable : BTreeSet ReachablePolicyTupleV1
  actions : BTreeSet String

def Reach.none : Reach where
  reachable := ∅
  actions := ∅

def Reach.add (reach : Reach) (tuple : ReachablePolicyTupleV1) : Except PolicyError Reach := do
  validateTuple tuple
  rejectIf (tuple ∈ reach.reachable) (.DuplicateReachableTuple tuple)
  return {
    reachable := reach.reachable.insert tuple
    actions := reach.actions.insert tuple.action }

abbrev Floors : Type := BTreeMap (BTreeSet Effect)

def Floors.add (floors : Floors) (floor : ActionEffectFloorV1) : Except PolicyError Floors := do
  requireNonEmpty "action_effect_floors[].action" floor.action
  rejectIf floor.requiredEffects.isEmpty (.EmptyEffectFloor floor.action)
  rejectIf (floor.action ∈ floors) (.DuplicateEffectFloor floor.action)
  return floors.insert floor.action floor.requiredEffects

-- The default stands where the source expects a floor: a rule comes to it only with an action
-- whose floor the pass before found.
def Floors.required (floors : Floors) (action : String) : BTreeSet Effect :=
  floors[action]?.getD ∅

def cover (reachable : BTreeSet ReachablePolicyTupleV1) (floors : Floors)
    (covered : BTreeSet ReachablePolicyTupleV1) (rule : ActionPolicyRuleV1) :
    Except PolicyError (BTreeSet ReachablePolicyTupleV1) := do
  validateTuple rule.tuple
  rejectIf rule.effects.isEmpty (.EmptyRuleEffects rule.tuple.action)
  rejectIf (rule.tuple ∈ covered) (.DuplicateRule rule.tuple)
  rejectIf (rule.tuple ∉ reachable) (.UnreachableRule rule.tuple)
  validateEffectPath rule
  forM (floors.required rule.tuple.action).toList fun effect =>
    rejectIf (effect ∉ rule.effects) (.MissingRequiredEffect rule.tuple.action effect)
  return covered.insert rule.tuple

end ActionPolicy

namespace ActionPolicyRegistryV1

open ActionPolicy

variable [Sha256]

def computePolicyDigest (registry : ActionPolicyRegistryV1) : String :=
  digestCanonical ACTION_POLICY_DIGEST_DOMAIN registry.toUnsealedValue

def «seal» (registry : ActionPolicyRegistryV1) : ActionPolicyRegistryV1 :=
  { registry with policyDigest := registry.computePolicyDigest }

def validate (registry : ActionPolicyRegistryV1) : Except PolicyError PolicyValidation := do
  rejectIf (registry.schema ≠ ACTION_POLICY_REGISTRY_SCHEMA) (.Schema registry.schema)
  requireNonEmpty "policy_version" registry.policyVersion
  requireNonEmpty "policy_digest" registry.policyDigest
  rejectIf (registry.reachableTuples = []) .NoReachableTuples
  rejectIf registry.rules.isEmpty .NoRules
  rejectIf registry.actionEffectFloors.isEmpty .NoEffectFloors
  let reach ← registry.reachableTuples.foldlM Reach.add .none
  let floors ← registry.actionEffectFloors.foldlM Floors.add ∅
  forM reach.actions.toList fun action =>
    rejectIf (action ∉ floors) (.MissingEffectFloor action)
  forM floors.keys fun action =>
    rejectIf (action ∉ reach.actions) (.UnreachableEffectFloor action)
  let covered ← registry.rules.foldlM (cover reach.reachable floors) ∅
  forM reach.reachable.toList fun tuple =>
    rejectIf (tuple ∉ covered) (.MissingRule tuple)
  rejectIf (registry.policyDigest ≠ registry.computePolicyDigest)
    (.PolicyDigestMismatch registry.computePolicyDigest registry.policyDigest)
  return {
    reachableTupleCount := reach.reachable.size
    ruleCount := covered.size
    actionCount := reach.actions.size
    computedPolicyDigest := registry.computePolicyDigest }

end ActionPolicyRegistryV1

end M1nd.Control
