import M1nd.Control.Policy
import M1nd.Library.Checks

namespace M1nd.Control

open M1nd.Library.Json
open M1nd.Library.Checks

def MISSION_TRANSITION_INTENT_SCHEMA : String := "m1nd-mission-transition-intent-v1"

def MISSION_TRANSITION_INTENT_DIGEST_DOMAIN : String := "m1nd-mission-transition-intent-v1"
def MISSION_TRANSITION_PAYLOAD_DIGEST_DOMAIN : String := "m1nd-mission-transition-payload-v1"

def DEFAULT_MISSION_CLOCK_SKEW_MS : Nat := 30000

inductive MissionState
  | Judging
  | Revising
  | Dispatching
  | Executing
  | Gate
  | Review
  | MergeWait
  | Landed
  | Failed
  | Archived
deriving DecidableEq

def MissionState.name : MissionState → String
  | .Judging => "judging"
  | .Revising => "revising"
  | .Dispatching => "dispatching"
  | .Executing => "executing"
  | .Gate => "gate"
  | .Review => "review"
  | .MergeWait => "merge_wait"
  | .Landed => "landed"
  | .Failed => "failed"
  | .Archived => "archived"

def MissionState.isTerminal (state : MissionState) : Bool :=
  state = .Landed || state = .Failed || state = .Archived

inductive Role
  | MissionService
  | Author
  | Reviewer
  | Runner
deriving DecidableEq

def Role.name : Role → String
  | .MissionService => "mission_service"
  | .Author => "author"
  | .Reviewer => "reviewer"
  | .Runner => "runner"

inductive MissionTransitionSource
  | MissionServiceDecision
  | AuthorProposal
  | ReviewResult
  | ExecutionDispatchAck
  | ExecutionResult
deriving DecidableEq

def MissionTransitionSource.name : MissionTransitionSource → String
  | .MissionServiceDecision => "mission_service_decision"
  | .AuthorProposal => "author_proposal"
  | .ReviewResult => "review_result"
  | .ExecutionDispatchAck => "execution_dispatch_ack"
  | .ExecutionResult => "execution_result"

inductive IterationRule
  | Initialize
  | Preserve
  | Advance
deriving DecidableEq

structure MissionTransitionRule where
  fromState : Option MissionState
  toState : MissionState
  role : Role
  source : MissionTransitionSource
  iteration : IterationRule
deriving DecidableEq

-- The complete state machine. Absence from this table is refusal.
def MISSION_TRANSITION_RULES : List MissionTransitionRule := [
  ⟨none, .Judging, .MissionService, .MissionServiceDecision, .Initialize⟩,
  ⟨none, .Dispatching, .MissionService, .MissionServiceDecision, .Initialize⟩,
  ⟨some .Judging, .Dispatching, .Reviewer, .ReviewResult, .Preserve⟩,
  ⟨some .Judging, .Revising, .Reviewer, .ReviewResult, .Preserve⟩,
  ⟨some .Judging, .Failed, .Reviewer, .ReviewResult, .Preserve⟩,
  ⟨some .Revising, .Judging, .Author, .AuthorProposal, .Advance⟩,
  ⟨some .Revising, .Dispatching, .Author, .AuthorProposal, .Advance⟩,
  ⟨some .Dispatching, .Executing, .Runner, .ExecutionDispatchAck, .Preserve⟩,
  ⟨some .Dispatching, .Failed, .MissionService, .MissionServiceDecision, .Preserve⟩,
  ⟨some .Executing, .Gate, .Runner, .ExecutionResult, .Preserve⟩,
  ⟨some .Executing, .Failed, .Runner, .ExecutionResult, .Preserve⟩,
  ⟨some .Gate, .Review, .MissionService, .MissionServiceDecision, .Preserve⟩,
  ⟨some .Gate, .MergeWait, .MissionService, .MissionServiceDecision, .Preserve⟩,
  ⟨some .Gate, .Failed, .MissionService, .MissionServiceDecision, .Preserve⟩,
  ⟨some .Review, .Revising, .Reviewer, .ReviewResult, .Preserve⟩,
  ⟨some .Review, .MergeWait, .Reviewer, .ReviewResult, .Preserve⟩,
  ⟨some .Review, .Failed, .Reviewer, .ReviewResult, .Preserve⟩,
  ⟨some .MergeWait, .Landed, .MissionService, .MissionServiceDecision, .Preserve⟩,
  ⟨some .MergeWait, .Archived, .MissionService, .MissionServiceDecision, .Preserve⟩]

def missionTransitionRule (fromState : Option MissionState) (toState : MissionState) :
    Option MissionTransitionRule :=
  MISSION_TRANSITION_RULES.find? fun candidate =>
    candidate.fromState = fromState && candidate.toState = toState

inductive MissionIntegrityDisposition
  | OpaqueSignaturePresentUnverified
deriving DecidableEq

structure MissionTransitionValidation where
  rule : MissionTransitionRule
  intentDigest : String
  integrity : MissionIntegrityDisposition
deriving DecidableEq

structure MissionHeadSnapshot where
  headId : String
  state : MissionState
  iterationId : Nat
  packetDigest : String
deriving DecidableEq

structure MissionHeadContext where
  brainId : String
  missionId : String
  head : Option MissionHeadSnapshot
deriving DecidableEq

structure MissionTransitionIntentV1 where
  schema : String
  transitionId : String
  brainId : String
  missionId : String
  expectedHeadId : Option String
  fromState : Option MissionState
  toState : MissionState
  iterationId : Nat
  actorId : String
  role : Role
  source : MissionTransitionSource
  sourceDigest : String
  capabilityId : String
  packetDigest : String
  payloadDigest : String
  idempotencyKey : String
  causationId : Option String
  issuedAt : Nat
  expiresAt : Nat
  issuer : String
  keyId : String
  algorithm : String
  intentDigest : String
  signature : OpaqueSignature
deriving DecidableEq

inductive MissionContractError
  | Schema (contract actual : String)
  | EmptyRequired (field : String)
  | InvalidIteration
  | InvalidDigest (field : String)
  | EmptyOpaqueSignature
  | InvalidTimeOrder (record : String) (start end_ : Nat)
  | IssuedInFuture (record : String) (issuedAt latestAllowed : Nat)
  | Expired (record : String) (expiresAt nowMs : Nat)
  | DigestMismatch (field expected observed : String)
  | IllegalTransition (fromState : Option MissionState) (toState : MissionState)
  | WrongRole (expected observed : Role)
  | WrongSource (expected observed : MissionTransitionSource)
  | BrainMismatch (expected observed : String)
  | MissionMismatch (expected observed : String)
  | StaleHead (expected observed : Option String)
  | StateMismatch (expected observed : Option MissionState)
  | StaleIteration (expected observed : Nat)
  | IterationOverflow (current : Nat)
  | PacketDigestMismatch
  | PacketDigestNotAdvanced
deriving DecidableEq

def MissionTransitionIntentV1.toValue (intent : MissionTransitionIntentV1) : Value :=
  .object [
    ("schema", .string intent.schema),
    ("transition_id", .string intent.transitionId),
    ("brain_id", .string intent.brainId),
    ("mission_id", .string intent.missionId),
    ("expected_head_id", optionalString intent.expectedHeadId),
    ("from_state", .ofOption (fun state => .string state.name) intent.fromState),
    ("to_state", .string intent.toState.name),
    ("iteration_id", .ofNat intent.iterationId),
    ("actor_id", .string intent.actorId),
    ("role", .string intent.role.name),
    ("source", .string intent.source.name),
    ("source_digest", .string intent.sourceDigest),
    ("capability_id", .string intent.capabilityId),
    ("packet_digest", .string intent.packetDigest),
    ("payload_digest", .string intent.payloadDigest),
    ("idempotency_key", .string intent.idempotencyKey),
    ("causation_id", optionalString intent.causationId),
    ("issued_at", .ofNat intent.issuedAt),
    ("expires_at", .ofNat intent.expiresAt),
    ("issuer", .string intent.issuer),
    ("key_id", .string intent.keyId),
    ("algorithm", .string intent.algorithm),
    ("intent_digest", .string intent.intentDigest),
    ("signature", intent.signature.toValue)]

namespace Mission

def requireSchema (contract actual expected : String) : Except MissionContractError Unit :=
  rejectIf (actual ≠ expected) (.Schema contract actual)

def requireNonEmpty (field value : String) : Except MissionContractError Unit :=
  rejectIf (value = "") (.EmptyRequired field)

def requireOptionalNonEmpty (field : String) (value : Option String) :
    Except MissionContractError Unit :=
  rejectIf (value = some "") (.EmptyRequired field)

def requireIteration (iterationId : Nat) : Except MissionContractError Unit :=
  rejectIf (iterationId = 0) .InvalidIteration

def requireDigest (field value : String) : Except MissionContractError Unit :=
  rejectIf (¬ isDigest value) (.InvalidDigest field)

def validateSignatureBinding (issuer keyId algorithm : String) (signature : OpaqueSignature) :
    Except MissionContractError Unit := do
  requireNonEmpty "issuer" issuer
  requireNonEmpty "key_id" keyId
  requireNonEmpty "algorithm" algorithm
  rejectIf signature.isEmpty .EmptyOpaqueSignature

def validateIssuedAt (record : String) (issuedAt nowMs : Nat) : Except MissionContractError Unit :=
  let latestAllowed := min (nowMs + DEFAULT_MISSION_CLOCK_SKEW_MS) (2 ^ 64 - 1)
  rejectIf (issuedAt > latestAllowed) (.IssuedInFuture record issuedAt latestAllowed)

def validateExpiringRecord (record : String) (issuedAt expiresAt nowMs : Nat) :
    Except MissionContractError Unit := do
  rejectIf (expiresAt ≤ issuedAt) (.InvalidTimeOrder record issuedAt expiresAt)
  validateIssuedAt record issuedAt nowMs
  rejectIf (nowMs ≥ expiresAt) (.Expired record expiresAt nowMs)

def ensureDigest (field expected observed : String) : Except MissionContractError Unit :=
  rejectIf (expected ≠ observed) (.DigestMismatch field expected observed)

def ensureHead (expected observed : Option String) : Except MissionContractError Unit :=
  rejectIf (expected ≠ observed) (.StaleHead expected observed)

def digestContract [Sha256] (domain : String) (value : Value) (digestField : String) : String :=
  digestCanonical domain ((value.remove digestField).remove "signature")

end Mission

open Mission

namespace MissionTransitionIntentV1

variable [Sha256]

def payloadDigestFor (payload : Value) : String :=
  digestCanonical MISSION_TRANSITION_PAYLOAD_DIGEST_DOMAIN payload

def computeIntentDigest (intent : MissionTransitionIntentV1) : String :=
  digestContract MISSION_TRANSITION_INTENT_DIGEST_DOMAIN intent.toValue "intent_digest"

def sealed (intent : MissionTransitionIntentV1) : MissionTransitionIntentV1 :=
  { intent with intentDigest := intent.computeIntentDigest }

-- The checks that read the intent, its payload and the clock only.
def validateFields (intent : MissionTransitionIntentV1) (payload : Value) (nowMs : Nat) :
    Except MissionContractError Unit := do
  requireSchema "mission transition intent" intent.schema MISSION_TRANSITION_INTENT_SCHEMA
  requireNonEmpty "transition_id" intent.transitionId
  requireNonEmpty "brain_id" intent.brainId
  requireNonEmpty "mission_id" intent.missionId
  requireOptionalNonEmpty "expected_head_id" intent.expectedHeadId
  requireNonEmpty "actor_id" intent.actorId
  requireNonEmpty "capability_id" intent.capabilityId
  requireNonEmpty "idempotency_key" intent.idempotencyKey
  requireOptionalNonEmpty "causation_id" intent.causationId
  requireDigest "source_digest" intent.sourceDigest
  requireDigest "packet_digest" intent.packetDigest
  requireDigest "payload_digest" intent.payloadDigest
  requireDigest "intent_digest" intent.intentDigest
  requireIteration intent.iterationId
  validateSignatureBinding intent.issuer intent.keyId intent.algorithm intent.signature
  validateExpiringRecord "mission transition intent" intent.issuedAt intent.expiresAt nowMs
  ensureDigest "payload_digest" (payloadDigestFor payload) intent.payloadDigest
  ensureDigest "intent_digest" intent.computeIntentDigest intent.intentDigest

end MissionTransitionIntentV1

def legalTransition (fromState : Option MissionState) (toState : MissionState) :
    Except MissionContractError MissionTransitionRule :=
  match missionTransitionRule fromState toState with
  | some rule => .ok rule
  | none => .error (.IllegalTransition fromState toState)

-- The iteration that an edge asks for. `checked_add` refuses the last u64.
def expectedIteration (rule : IterationRule) (current : Nat) : Except MissionContractError Nat :=
  match rule with
  | .Initialize => .ok 1
  | .Preserve => .ok current
  | .Advance => if current + 1 < 2 ^ 64 then .ok (current + 1) else .error (.IterationOverflow current)

def validatePacketDigest (rule : IterationRule) (packetDigest headDigest : String) :
    Except MissionContractError Unit :=
  match rule with
  | .Advance => rejectIf (packetDigest = headDigest) .PacketDigestNotAdvanced
  | .Preserve => rejectIf (packetDigest ≠ headDigest) .PacketDigestMismatch
  | .Initialize => .ok ()

namespace MissionTransitionIntentV1

def validateHead (intent : MissionTransitionIntentV1) (rule : MissionTransitionRule) :
    Option MissionHeadSnapshot → Except MissionContractError Unit
  | none => do
      ensureHead none intent.expectedHeadId
      rejectIf intent.fromState.isSome (.StateMismatch none intent.fromState)
      rejectIf (intent.iterationId ≠ 1) (.StaleIteration 1 intent.iterationId)
  | some head => do
      requireNonEmpty "context.head_id" head.headId
      requireIteration head.iterationId
      requireDigest "context.packet_digest" head.packetDigest
      ensureHead (some head.headId) intent.expectedHeadId
      rejectIf (intent.fromState ≠ some head.state)
        (.StateMismatch (some head.state) intent.fromState)
      let expected ← expectedIteration rule.iteration head.iterationId
      rejectIf (intent.iterationId ≠ expected) (.StaleIteration expected intent.iterationId)
      validatePacketDigest rule.iteration intent.packetDigest head.packetDigest

def validate [Sha256] (intent : MissionTransitionIntentV1) (context : MissionHeadContext)
    (payload : Value) (nowMs : Nat) : Except MissionContractError MissionTransitionValidation := do
  intent.validateFields payload nowMs
  rejectIf (intent.brainId ≠ context.brainId) (.BrainMismatch context.brainId intent.brainId)
  rejectIf (intent.missionId ≠ context.missionId)
    (.MissionMismatch context.missionId intent.missionId)
  let rule ← legalTransition intent.fromState intent.toState
  rejectIf (intent.role ≠ rule.role) (.WrongRole rule.role intent.role)
  rejectIf (intent.source ≠ rule.source) (.WrongSource rule.source intent.source)
  intent.validateHead rule context.head
  return {
    rule
    intentDigest := intent.computeIntentDigest
    integrity := .OpaqueSignaturePresentUnverified }

end MissionTransitionIntentV1

end M1nd.Control
