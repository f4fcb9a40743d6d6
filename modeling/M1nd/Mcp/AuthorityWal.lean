import M1nd.Control.AuthorityWal.Validation
import M1nd.Library.Framing
import M1nd.Library.Loops
import M1nd.Mcp.ProtectedJournalHead
import Std.Data.ExtHashMap
import Mathlib.Data.String.Basic

namespace M1nd.Mcp

open M1nd.Control
open M1nd.Library.Checks
open M1nd.Library.Durable
open M1nd.Library.Framing
open M1nd.Library.Json (Bytes utf8)

structure AuthorityWalRecoveryReport where
  recordCount : Nat
  recoveredTornTail : Bool
  truncatedTailBytes : Nat
deriving DecidableEq

@[ext]
structure AuthorityWalCommitWitnessV1 where
  transactionId : String
  phase : AuthorityWalPhase
  transactionDigest : String
  authorizationSnapshotDigest : String
  terminalRecordDigest : String
  committedAt : Nat
deriving DecidableEq

structure AuthorityWalTerminalOutcome where
  transactionId : String
  idempotencyKey : String
  phase : AuthorityWalPhase
  terminalOutcomeDigest : String
  terminalRecordDigest : String
  verifiedCommitWitness : Option AuthorityWalCommitWitnessV1
deriving DecidableEq

inductive AuthorityWalCryptoAssurance
  | UnavailableFailClosed
  | SoftwareTestOnlyNotProven
  | ProductionCryptographic
deriving DecidableEq

-- The owner key boundary. A signer may answer one message differently at different
-- times; the first argument of `sign` stands for what else its answer depends on.
structure AuthorityWalRecordCrypto where
  assurance : AuthorityWalCryptoAssurance
  issuer : String
  keyId : String
  algorithm : String
  sign : Nat → Bytes → Except String String
  verify : Bytes → String → Except String Unit

inductive AuthorityWalAppendOutcome
  | Appended (sequence : Nat) (phase : AuthorityWalPhase) (recordDigest : String)
      (verifiedCommitWitness : Option AuthorityWalCommitWitnessV1)
  | TerminalReplay (terminal : AuthorityWalTerminalOutcome)
deriving DecidableEq

-- What a refused frame of the journal is refused for.
inductive CorruptionDetail (ε : Type)
  | EmptyRecord
  | InvalidJson
  | Error (error : ε)

-- `Panic` stands for the message of an `expect` that does not hold.
inductive AuthorityWalError
  | Io
  | Contract (error : AuthorityWalContractError)
  | Crypto (operation detail : String)
  | Corruption (offset : Nat) (detail : CorruptionDetail AuthorityWalError)
  | SequenceMismatch (expected observed : Nat)
  | HashChainMismatch (sequence : Nat)
  | IllegalPhase (transactionId : String) (previous : Option AuthorityWalPhase)
      (attempted : AuthorityWalPhase)
  | DuplicateTransaction (transactionId : String)
  | DuplicateIdempotency (idempotencyKey : String)
  | IdempotencyConflict (idempotencyKey : String)
  | ProtectedHead (detail : ProtectedHeadError)
  | Poisoned
  | Panic (message : String)

structure IdempotencyScope where
  organismId : String
  brainId : String
  subjectId : String
  actionId : String
  idempotencyKey : String
deriving DecidableEq, Hashable

def IdempotencyScope.fromTransaction (transaction : AuthorityTransactionV1) :
    IdempotencyScope where
  organismId := transaction.binding.organismId
  brainId := transaction.binding.brainId
  subjectId := transaction.binding.subjectId
  actionId := transaction.binding.actionId
  idempotencyKey := transaction.binding.idempotencyKey

structure ReplayTransaction where
  transaction : AuthorityTransactionV1
  phase : AuthorityWalPhase
  terminal : Option AuthorityWalTerminalOutcome

structure ReplayIndex where
  recordCount : Nat
  lastRecordDigest : Option String
  transactions : Std.ExtHashMap String ReplayTransaction
  idempotency : Std.ExtHashMap IdempotencyScope String

namespace ReplayIndex

def default : ReplayIndex where
  recordCount := 0
  lastRecordDigest := none
  transactions := ∅
  idempotency := ∅

def update (index : ReplayIndex) (transactionId : String)
    (f : ReplayTransaction → ReplayTransaction) : ReplayIndex :=
  { index with transactions := index.transactions.modify transactionId f }

def phaseOf (index : ReplayIndex) (transactionId : String) : Option AuthorityWalPhase :=
  index.transactions[transactionId]?.map ReplayTransaction.phase

section Apply

variable [Sha256]

def prepare (index : ReplayIndex) (record : AuthorityWalRecordV1)
    (payload : AuthorityWalPrepareV1) : Except AuthorityWalError ReplayIndex := do
  let _ ← (record.validateAgainstTransaction payload.transaction).mapError .Contract
  rejectIf (record.transactionId ∈ index.transactions)
    (.DuplicateTransaction record.transactionId)
  let scope := IdempotencyScope.fromTransaction payload.transaction
  rejectIf (scope ∈ index.idempotency) (.DuplicateIdempotency record.idempotencyKey)
  return { index with
    idempotency := index.idempotency.insert scope record.transactionId
    transactions := index.transactions.insert record.transactionId
      { transaction := payload.transaction, phase := .Prepare, terminal := none } }

def advance (index : ReplayIndex) (record : AuthorityWalRecordV1)
    (requiredPrevious : AuthorityWalPhase) : Except AuthorityWalError ReplayIndex :=
  match index.transactions[record.transactionId]? with
  | none => .error (.IllegalPhase record.transactionId none record.phase)
  | some replay => do
      rejectIf (replay.phase ≠ requiredPrevious)
        (.IllegalPhase record.transactionId (some replay.phase) record.phase)
      let _ ← (record.validateAgainstTransaction replay.transaction).mapError .Contract
      return index.update record.transactionId fun replay => { replay with phase := record.phase }

def commitOutcome (record : AuthorityWalRecordV1) (payload : AuthorityWalCommitV1)
    (transaction : AuthorityTransactionV1) : AuthorityWalTerminalOutcome where
  transactionId := record.transactionId
  idempotencyKey := record.idempotencyKey
  phase := .Commit
  terminalOutcomeDigest := payload.terminalOutcomeDigest
  terminalRecordDigest := record.recordDigest
  verifiedCommitWitness := some {
    transactionId := record.transactionId
    phase := .Commit
    transactionDigest := transaction.transactionDigest
    authorizationSnapshotDigest := payload.authorizationSnapshotDigest
    terminalRecordDigest := record.recordDigest
    committedAt := payload.committedAt }

def commit (index : ReplayIndex) (record : AuthorityWalRecordV1)
    (payload : AuthorityWalCommitV1) : Except AuthorityWalError ReplayIndex := do
  let index ← index.advance record .Provisional
  return index.update record.transactionId fun replay =>
    { replay with terminal := some (commitOutcome record payload replay.transaction) }

def abortOutcome (record : AuthorityWalRecordV1) (payload : AuthorityWalAbortV1) :
    AuthorityWalTerminalOutcome where
  transactionId := record.transactionId
  idempotencyKey := record.idempotencyKey
  phase := .Abort
  terminalOutcomeDigest := payload.terminalOutcomeDigest
  terminalRecordDigest := record.recordDigest
  verifiedCommitWitness := none

def abort (index : ReplayIndex) (record : AuthorityWalRecordV1)
    (payload : AuthorityWalAbortV1) : Except AuthorityWalError ReplayIndex :=
  match index.transactions[record.transactionId]? with
  | none => .error (.IllegalPhase record.transactionId none .Abort)
  | some replay => do
      rejectIf (replay.phase ≠ .Prepare ∧ replay.phase ≠ .Provisional)
        (.IllegalPhase record.transactionId (some replay.phase) .Abort)
      let _ ← (record.validateAgainstTransaction replay.transaction).mapError .Contract
      return index.update record.transactionId fun replay =>
        { replay with phase := .Abort, terminal := some (abortOutcome record payload) }

def applyPayload (index : ReplayIndex) (record : AuthorityWalRecordV1) :
    Except AuthorityWalError ReplayIndex :=
  match record.payload with
  | .Prepare payload => index.prepare record payload
  | .Provisional _ => index.advance record .Prepare
  | .Commit payload => index.commit record payload
  | .Abort payload => index.abort record payload

def applyRecord (index : ReplayIndex) (record : AuthorityWalRecordV1) :
    Except AuthorityWalError ReplayIndex := do
  let index ← index.applyPayload record
  return { index with
    recordCount := record.sequence
    lastRecordDigest := some record.recordDigest }

end Apply

def terminalReplayForPrepare (index : ReplayIndex) (record : AuthorityWalRecordV1)
    (transaction : AuthorityTransactionV1) :
    Except AuthorityWalError (Option AuthorityWalTerminalOutcome) :=
  match index.idempotency[IdempotencyScope.fromTransaction transaction]? with
  | some existingId =>
      match index.transactions[existingId]? with
      | none => .error (.Panic "idempotency index references an existing transaction")
      | some existing =>
          match existing.terminal with
          | some terminal =>
              if existing.transaction.binding.intentDigest = transaction.binding.intentDigest then
                .ok (some terminal)
              else .error (.IdempotencyConflict record.idempotencyKey)
          | none => .error (.DuplicateIdempotency record.idempotencyKey)
  | none => do
      rejectIf (record.transactionId ∈ index.transactions)
        (.DuplicateTransaction record.transactionId)
      return none

-- The only visible transactions are the committed ones.
def committedTransaction (index : ReplayIndex) (transactionId : String) :
    Option AuthorityTransactionV1 :=
  (index.transactions[transactionId]?.filter fun replay => replay.phase = .Commit).map
    ReplayTransaction.transaction

def terminalOutcome (index : ReplayIndex) (transactionId : String) :
    Option AuthorityWalTerminalOutcome :=
  index.transactions[transactionId]?.bind ReplayTransaction.terminal

end ReplayIndex

def verifyRecordCrypto (record : AuthorityWalRecordV1) (crypto : AuthorityWalRecordCrypto) :
    Except AuthorityWalError Unit := do
  rejectIf (crypto.assurance = .UnavailableFailClosed)
    (.Crypto "verify" "no explicit AuthorityWAL verifier configured")
  rejectIf (record.issuer ≠ crypto.issuer ∨ record.keyId ≠ crypto.keyId ∨
      record.algorithm ≠ crypto.algorithm)
    (.Crypto "verify" "record signer metadata does not match the pinned WAL verifier")
  (crypto.verify record.canonicalSignatureMessage record.signature.value).mapError
    (.Crypto "verify")

-- The deterministic backend of the test batteries.
def softwareTestSignature [Sha256] (secret message : Bytes) : String :=
  hexLower (Sha256.finalize (utf8 "m1nd-wal-software-test-only-not-proven-v1\x00" ++
    toBeBytes secret.length ++ secret ++ toBeBytes message.length ++ message)).toList

def softwareTestAuthorityWalRecordCrypto [Sha256] (secret : Bytes) : AuthorityWalRecordCrypto where
  assurance := .SoftwareTestOnlyNotProven
  issuer := "software-test-owner-not-production"
  keyId := "software-test-wal-key-not-production"
  algorithm := "SOFTWARE_TEST_SHA256_NOT_CRYPTOGRAPHIC"
  sign _ message := .ok (softwareTestSignature secret message)
  verify message signature := rejectIf (softwareTestSignature secret message ≠ signature)
    "software-test WAL signature mismatch"

end M1nd.Mcp
