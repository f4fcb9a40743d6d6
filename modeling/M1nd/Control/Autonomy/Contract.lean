import M1nd.Control.Policy
import M1nd.Library.Checks
import Mathlib.Algebra.GroupWithZero.Nat

namespace M1nd.Control

open M1nd.Library.Json
open M1nd.Library.Checks

inductive AutonomyIntegrityDisposition
  | OpaqueSignaturePresentUnverified
deriving DecidableEq

structure AutonomyStructuralValidation where
  computedDigest : String
  integrity : AutonomyIntegrityDisposition
deriving DecidableEq

def AutonomyStructuralValidation.sealedAs (computedDigest : String) :
    AutonomyStructuralValidation where
  computedDigest := computedDigest
  integrity := .OpaqueSignaturePresentUnverified

inductive AutonomyContractError
  | Schema (contract actual : String)
  | EmptyRequired (field : String)
  | EmptyCollection (field : String)
  | InvalidDigest (field : String)
  | EmptySignature (field : String)
  | InvalidTimeOrder (record : String) (issuedAt expiresAt : Nat)
  | Expired (record : String) (expiresAt nowMs : Nat)
  | IssuedInFuture (record : String) (issuedAt nowMs : Nat)
  | DigestMismatch (field expected observed : String)
  | BindingMismatch (field : String)
  | EpochMismatch (field : String) (expected observed : Nat)
  | ModeMismatch (field : String) (expected observed : ActiveMode)
  | AuthorityMismatch (expected observed : AuthorityVariant)
  | KernelFloor (rule : String)
  | ConstitutionInvariant (rule : String)
  | Invariant (rule : String)
  | SelfAuthorization (subjectId : String)
  | NonIndependentQuorum
  | InsufficientQuorum (approvals required : Nat)
  | QuorumNotUnanimouslyResolvable
  | ActionOutsideGrant (actionClass : String)
  | RiskOutsideGrant (riskClass : RiskClass)
  | ScopeOutsideGrant
  | BudgetExceeded (requested remaining : Nat)
  | PositiveEffectInSafety (effect : Effect)
  | SafetyAllowListMismatch
  | InvalidActivationTransition (previous target : ActiveMode)
deriving DecidableEq

inductive SafetyState
  | Healthy
  | Frozen
  | PendingRed
  | Recovering
deriving DecidableEq

-- The JSON forms of the collections.

def stringSet (set : BTreeSet String) : Value :=
  .array (set.toList.map .string)

def nameSet {α : Type} [Ord α] [Std.TransOrd α] (name : α → String) (set : BTreeSet α) : Value :=
  .array (set.toList.map fun a => .string (name a))

def listValue {α : Type} (encode : α → Value) (items : List α) : Value :=
  .array (items.map encode)

namespace Autonomy

def requireSchema (contract actual expected : String) : Except AutonomyContractError Unit :=
  rejectIf (actual ≠ expected) (.Schema contract actual)

def requireNonEmpty (field value : String) : Except AutonomyContractError Unit :=
  rejectIf (isBlank value) (.EmptyRequired field)

def requireDigest (field value : String) : Except AutonomyContractError Unit :=
  rejectIf (¬ isDigest value) (.InvalidDigest field)

def requireDigestEquality (field expected observed : String) :
    Except AutonomyContractError Unit := do
  requireDigest field expected
  requireDigest field observed
  rejectIf (expected ≠ observed) (.DigestMismatch field expected observed)

def requireSignature (field : String) (signature : OpaqueSignature) :
    Except AutonomyContractError Unit :=
  rejectIf signature.isEmpty (.EmptySignature field)

def requireBinding (field : String) (equal : Prop) [Decidable equal] :
    Except AutonomyContractError Unit :=
  rejectIf (¬ equal) (.BindingMismatch field)

end Autonomy

end M1nd.Control

namespace M1nd.Control.Autonomy

open M1nd.Library.Checks

variable {record field actual expected observed value : String} {issuedAt expiresAt nowMs : Nat}

-- When each check accepts.

@[simp]
theorem requireSchema_eq_ok :
    requireSchema record actual expected = .ok () ↔ actual = expected := by
  simp [requireSchema]

@[simp]
theorem requireNonEmpty_eq_ok :
    requireNonEmpty field value = .ok () ↔ isBlank value = false := by
  simp [requireNonEmpty]

@[simp]
theorem requireDigest_eq_ok : requireDigest field value = .ok () ↔ isDigest value = true := by
  simp [requireDigest]

@[simp]
theorem requireDigestEquality_eq_ok :
    requireDigestEquality field expected observed = .ok () ↔
      isDigest expected = true ∧ expected = observed := by
  simp only [requireDigestEquality, bind_eq_ok, exists_unit, requireDigest_eq_ok, rejectIf_eq_ok,
    not_not]
  constructor
  · rintro ⟨hexpected, -, rfl⟩
    exact ⟨hexpected, rfl⟩
  · rintro ⟨hexpected, rfl⟩
    exact ⟨hexpected, hexpected, rfl⟩

@[simp]
theorem requireSignature_eq_ok {signature : OpaqueSignature} :
    requireSignature field signature = .ok () ↔ signature.isEmpty = false := by
  simp [requireSignature]

@[simp]
theorem requireBinding_eq_ok {equal : Prop} [Decidable equal] :
    requireBinding field equal = .ok () ↔ equal := by
  simp [requireBinding]

end M1nd.Control.Autonomy
