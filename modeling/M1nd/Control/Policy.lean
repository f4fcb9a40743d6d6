import M1nd.Control.Canonical
import Std.Data.ExtTreeMap
import Std.Data.ExtTreeSet

namespace M1nd.Control

open M1nd.Library.Json

abbrev BTreeSet (α : Type) [Ord α] := Std.ExtTreeSet α
abbrev BTreeMap (β : Type) := Std.ExtTreeMap String β

structure OpaqueSignature where
  value : String
deriving DecidableEq

def OpaqueSignature.isEmpty (signature : OpaqueSignature) : Bool :=
  signature.value = ""

def OpaqueSignature.toValue (signature : OpaqueSignature) : Value :=
  .string signature.value

def optionalString : Option String → Value :=
  Value.ofOption .string

inductive ActiveMode
  | HumanGated
  | PolicyAutonomous
  | FullAutonomy
deriving DecidableEq

instance : Ord ActiveMode := ⟨compareOn ActiveMode.ctorIdx⟩

instance : Std.TransOrd ActiveMode := inferInstanceAs (Std.TransCmp (compareOn ActiveMode.ctorIdx))

instance : Std.LawfulEqOrd ActiveMode where
  eq_of_compare {a b} h := by
    cases a <;> cases b <;> first | rfl | cases h

def ActiveMode.name : ActiveMode → String
  | .HumanGated => "HUMAN_GATED"
  | .PolicyAutonomous => "POLICY_AUTONOMOUS"
  | .FullAutonomy => "FULL_AUTONOMY"

inductive AuthorityVariant
  | Ordinary
  | Human
  | Policy
  | AgentQuorum
  | SafetyKernel
deriving DecidableEq

def AuthorityVariant.name : AuthorityVariant → String
  | .Ordinary => "ORDINARY"
  | .Human => "HUMAN"
  | .Policy => "POLICY"
  | .AgentQuorum => "AGENT_QUORUM"
  | .SafetyKernel => "SAFETY_KERNEL"

def AuthorityVariant.isPositiveSovereign (variant : AuthorityVariant) : Bool :=
  variant = .Human || variant = .Policy || variant = .AgentQuorum

inductive RiskClass
  | Low
  | Medium
  | High
  | Critical
deriving DecidableEq

instance : Ord RiskClass := ⟨compareOn RiskClass.ctorIdx⟩

instance : Std.TransOrd RiskClass := inferInstanceAs (Std.TransCmp (compareOn RiskClass.ctorIdx))

instance : Std.LawfulEqOrd RiskClass where
  eq_of_compare {a b} h := by
    cases a <;> cases b <;> first | rfl | cases h

def RiskClass.name : RiskClass → String
  | .Low => "LOW"
  | .Medium => "MEDIUM"
  | .High => "HIGH"
  | .Critical => "CRITICAL"

inductive AutonomyTier
  | A0Observe
  | A1Propose
  | A2Execute
  | A3AutonomousLand
  | A4AutonomousGovern
  | A5FullAutonomy
deriving DecidableEq

instance : LT AutonomyTier := ⟨fun a b => a.ctorIdx < b.ctorIdx⟩

instance (a b : AutonomyTier) : Decidable (a < b) := inferInstanceAs (Decidable (_ < _))

def AutonomyTier.name : AutonomyTier → String
  | .A0Observe => "A0_OBSERVE"
  | .A1Propose => "A1_PROPOSE"
  | .A2Execute => "A2_EXECUTE"
  | .A3AutonomousLand => "A3_AUTONOMOUS_LAND"
  | .A4AutonomousGovern => "A4_AUTONOMOUS_GOVERN"
  | .A5FullAutonomy => "A5_FULL_AUTONOMY"

inductive Effect
  | Read
  | GraphMutation
  | RuntimeStoreWrite
  | SourceFilesystemWrite
  | HostFilesystemWrite
  | CoordinationRecord
  | MissionStateWrite
  | SovereignMutation
  | ProcessSpawn
  | ProcessSignal
  | ExecutableReplacement
  | NetworkAccess
  | NetworkExpose
  | FreezeIssuance
  | EpochFence
  | EpochBump
  | RevokeCapability
  | AbortPrepared
  | DemoteGrant
  | RollbackSignedCandidate
deriving DecidableEq

instance : Ord Effect := ⟨compareOn Effect.ctorIdx⟩

instance : Std.TransOrd Effect := inferInstanceAs (Std.TransCmp (compareOn Effect.ctorIdx))

theorem Effect.ctorIdx_inj {a b : Effect} (h : a.ctorIdx = b.ctorIdx) : a = b := by
  cases a <;> cases b <;> first | rfl | cases h

instance : Std.LawfulEqOrd Effect where
  eq_of_compare h := Effect.ctorIdx_inj (Std.LawfulEqOrd.eq_of_compare (α := Nat) h)

def Effect.name : Effect → String
  | .Read => "READ"
  | .GraphMutation => "GRAPH_MUTATION"
  | .RuntimeStoreWrite => "RUNTIME_STORE_WRITE"
  | .SourceFilesystemWrite => "SOURCE_FILESYSTEM_WRITE"
  | .HostFilesystemWrite => "HOST_FILESYSTEM_WRITE"
  | .CoordinationRecord => "COORDINATION_RECORD"
  | .MissionStateWrite => "MISSION_STATE_WRITE"
  | .SovereignMutation => "SOVEREIGN_MUTATION"
  | .ProcessSpawn => "PROCESS_SPAWN"
  | .ProcessSignal => "PROCESS_SIGNAL"
  | .ExecutableReplacement => "EXECUTABLE_REPLACEMENT"
  | .NetworkAccess => "NETWORK_ACCESS"
  | .NetworkExpose => "NETWORK_EXPOSE"
  | .FreezeIssuance => "FREEZE_ISSUANCE"
  | .EpochFence => "EPOCH_FENCE"
  | .EpochBump => "EPOCH_BUMP"
  | .RevokeCapability => "REVOKE_CAPABILITY"
  | .AbortPrepared => "ABORT_PREPARED"
  | .DemoteGrant => "DEMOTE_GRANT"
  | .RollbackSignedCandidate => "ROLLBACK_SIGNED_CANDIDATE"

def Effect.isNegativeSafety : Effect → Bool
  | .FreezeIssuance | .EpochFence | .EpochBump | .RevokeCapability | .AbortPrepared
  | .DemoteGrant | .RollbackSignedCandidate => true
  | _ => false

-- `str::trim` removes the characters with the Unicode property White_Space.
def isWhiteSpace (c : Char) : Bool :=
  let n := c.toNat
  (9 ≤ n && n ≤ 13) || n = 0x20 || n = 0x85 || n = 0xa0 || n = 0x1680 ||
    (0x2000 ≤ n && n ≤ 0x200a) || n = 0x2028 || n = 0x2029 || n = 0x202f || n = 0x205f ||
    n = 0x3000

def isBlank (value : String) : Bool :=
  value.toList.all isWhiteSpace

end M1nd.Control
