import M1nd.Control.Policy
import M1nd.Library.Durable
import M1nd.Library.Loops

namespace M1nd.Control

open M1nd.Library
open M1nd.Library.Checks
open M1nd.Library.Durable
open M1nd.Library.Json (Bytes Value utf8)

def REPLAY_CLAIM_SCHEMA : String := "m1nd-replay-claim-v1"
def REPLAY_LEDGER_RECORD_SCHEMA : String := "m1nd-replay-ledger-record-v1"
def REPLAY_CLAIM_DIGEST_DOMAIN : String := "m1nd-replay-claim-v1"
def REPLAY_SCOPE_DIGEST_DOMAIN : String := "m1nd-replay-scope-v1"
def REPLAY_LEDGER_RECORD_DIGEST_DOMAIN : String := "m1nd-replay-ledger-record-v1"

@[ext]
structure ReplayClaimV1 where
  schema : String
  namespace_ : String
  issuerSubjectId : String
  keyId : String
  subjectId : String
  nonce : String
  objectDigest : String
  issuedAt : Nat
  expiresAt : Nat
deriving DecidableEq

@[ext]
structure ReplayScopeV1 where
  namespace_ : String
  issuerSubjectId : String
  keyId : String
  nonce : String
deriving DecidableEq

inductive ReplayDurability
  | Volatile
  | SyncedFile
deriving DecidableEq

structure ReplayReceiptV1 where
  sequence : Nat
  claimDigest : String
  scopeDigest : String
  durability : ReplayDurability
deriving DecidableEq

inductive ReplayLedgerError
  | Schema (expected actual : String)
  | EmptyRequired (field : String)
  | InvalidTimeOrder (issuedAt expiresAt : Nat)
  | IssuedInFuture (issuedAt latestAllowed : Nat)
  | Expired (expiresAt nowMs : Nat)
  | Replay (scopeDigest : String)
  | SymlinkRefused
  | ConcurrentModification (expectedLen observedLen : Nat)
  | Poisoned
  | Corrupt (line : Nat) (reason : String)
  | Io (operation : String)
deriving DecidableEq

-- The texts of the errors of `validate_static`, the only ones that a reason quotes.
def ReplayLedgerError.text : ReplayLedgerError → String
  | .Schema expected actual =>
      "unsupported replay claim schema '" ++ actual ++ "', expected '" ++ expected ++ "'"
  | .EmptyRequired field => "required replay claim field '" ++ field ++ "' is empty"
  | .InvalidTimeOrder issuedAt expiresAt =>
      "replay claim expires_at (" ++ toString expiresAt ++ ") must be later than issued_at (" ++
        toString issuedAt ++ ")"
  | _ => ""

def ReplayClaimV1.toValue (claim : ReplayClaimV1) : Value :=
  .object [
    ("schema", .string claim.schema),
    ("namespace", .string claim.namespace_),
    ("issuer_subject_id", .string claim.issuerSubjectId),
    ("key_id", .string claim.keyId),
    ("subject_id", .string claim.subjectId),
    ("nonce", .string claim.nonce),
    ("object_digest", .string claim.objectDigest),
    ("issued_at", .ofNat claim.issuedAt),
    ("expires_at", .ofNat claim.expiresAt)]

def ReplayScopeV1.toValue (scope : ReplayScopeV1) : Value :=
  .object [
    ("namespace", .string scope.namespace_),
    ("issuer_subject_id", .string scope.issuerSubjectId),
    ("key_id", .string scope.keyId),
    ("nonce", .string scope.nonce)]

namespace ReplayClaimV1

def scope (claim : ReplayClaimV1) : ReplayScopeV1 where
  namespace_ := claim.namespace_
  issuerSubjectId := claim.issuerSubjectId
  keyId := claim.keyId
  nonce := claim.nonce

section

variable [Sha256]

def claimDigest (claim : ReplayClaimV1) : String :=
  digestCanonical REPLAY_CLAIM_DIGEST_DOMAIN claim.toValue

def scopeDigest (claim : ReplayClaimV1) : String :=
  digestCanonical REPLAY_SCOPE_DIGEST_DOMAIN claim.scope.toValue

end

def validateStatic (claim : ReplayClaimV1) : Except ReplayLedgerError Unit := do
  rejectIf (claim.schema ≠ REPLAY_CLAIM_SCHEMA) (.Schema REPLAY_CLAIM_SCHEMA claim.schema)
  forM [
    ("namespace", claim.namespace_),
    ("issuer_subject_id", claim.issuerSubjectId),
    ("key_id", claim.keyId),
    ("subject_id", claim.subjectId),
    ("nonce", claim.nonce),
    ("object_digest", claim.objectDigest)]
    fun (field, value) => rejectIf (isBlank value) (.EmptyRequired field)
  rejectIf (claim.expiresAt ≤ claim.issuedAt) (.InvalidTimeOrder claim.issuedAt claim.expiresAt)

def validateAt (claim : ReplayClaimV1) (nowMs maxFutureClockSkewMs : Nat) :
    Except ReplayLedgerError Unit := do
  claim.validateStatic
  let latestAllowed := min (nowMs + maxFutureClockSkewMs) (2 ^ 64 - 1)
  rejectIf (claim.issuedAt > latestAllowed) (.IssuedInFuture claim.issuedAt latestAllowed)
  rejectIf (nowMs ≥ claim.expiresAt) (.Expired claim.expiresAt nowMs)

end ReplayClaimV1

-- `saturating_add(1)` on the u64 sequence.
def nextLedgerSequence (sequence : Nat) : Nat :=
  min (sequence + 1) (2 ^ 64 - 1)

structure MemoryReplayLedger where
  consumedScopes : BTreeSet String
  nextSequence : Nat

def MemoryReplayLedger.new : MemoryReplayLedger where
  consumedScopes := ∅
  nextSequence := 1

-- A refused claim leaves the ledger as it is.
def MemoryReplayLedger.consume [Sha256] (claim : ReplayClaimV1) (nowMs maxFutureClockSkewMs : Nat)
    (ledger : MemoryReplayLedger) :
    Except ReplayLedgerError (ReplayReceiptV1 × MemoryReplayLedger) := do
  claim.validateAt nowMs maxFutureClockSkewMs
  rejectIf (claim.scopeDigest ∈ ledger.consumedScopes) (.Replay claim.scopeDigest)
  let receipt := {
    sequence := ledger.nextSequence
    claimDigest := claim.claimDigest
    scopeDigest := claim.scopeDigest
    durability := .Volatile }
  return (receipt, {
    consumedScopes := ledger.consumedScopes.insert claim.scopeDigest
    nextSequence := nextLedgerSequence ledger.nextSequence })

@[ext]
structure ReplayLedgerRecordV1 where
  schema : String
  sequence : Nat
  previousRecordDigest : Option String
  claim : ReplayClaimV1
  claimDigest : String
  scopeDigest : String
  recordDigest : String
deriving DecidableEq

namespace ReplayLedgerRecordV1

def toValue (record : ReplayLedgerRecordV1) : Value :=
  .object [
    ("schema", .string record.schema),
    ("sequence", .ofNat record.sequence),
    ("previous_record_digest", optionalString record.previousRecordDigest),
    ("claim", record.claim.toValue),
    ("claim_digest", .string record.claimDigest),
    ("scope_digest", .string record.scopeDigest),
    ("record_digest", .string record.recordDigest)]

-- The record without its own digest.
def material (record : ReplayLedgerRecordV1) : Value :=
  .object [
    ("schema", .string record.schema),
    ("sequence", .ofNat record.sequence),
    ("previous_record_digest", optionalString record.previousRecordDigest),
    ("claim", record.claim.toValue),
    ("claim_digest", .string record.claimDigest),
    ("scope_digest", .string record.scopeDigest)]

def toVec (record : ReplayLedgerRecordV1) : Bytes :=
  canonicalJson record.toValue

def computeRecordDigest [Sha256] (record : ReplayLedgerRecordV1) : String :=
  digestCanonical REPLAY_LEDGER_RECORD_DIGEST_DOMAIN record.material

end ReplayLedgerRecordV1

def lineFeed : UInt8 := '\n'.toUInt8

-- serde_json's reader of one line, with the text of its error.
abbrev ReplayRecordDecoder := Bytes → Except String ReplayLedgerRecordV1

structure ReplayedRecords where
  consumedScopes : BTreeSet String
  expectedSequence : Nat
  tailDigest : Option String

def ReplayedRecords.none : ReplayedRecords where
  consumedScopes := ∅
  expectedSequence := 1
  tailDigest := .none

section Replay

variable [Sha256]

-- What replay asks of the next record, whose line is written in canonical form.
def ReplayedRecords.accept (state : ReplayedRecords) (record : ReplayLedgerRecordV1) :
    Except String ReplayedRecords := do
  rejectIf (record.schema ≠ REPLAY_LEDGER_RECORD_SCHEMA)
    ("unsupported record schema '" ++ record.schema ++ "'")
  rejectIf (record.sequence ≠ state.expectedSequence)
    ("expected sequence " ++ toString state.expectedSequence ++ ", observed " ++
      toString record.sequence)
  rejectIf (record.previousRecordDigest ≠ state.tailDigest)
    "previous record digest does not match the durable tail"
  record.claim.validateStatic.mapError fun error => "invalid replay claim: " ++ error.text
  rejectIf (record.claimDigest ≠ record.claim.claimDigest) "claim digest mismatch"
  rejectIf (record.scopeDigest ≠ record.claim.scopeDigest) "scope digest mismatch"
  rejectIf (record.recordDigest ≠ record.computeRecordDigest) "record self-digest mismatch"
  rejectIf (record.scopeDigest ∈ state.consumedScopes) "duplicate replay scope in durable ledger"
  return {
    consumedScopes := state.consumedScopes.insert record.scopeDigest
    expectedSequence := nextLedgerSequence state.expectedSequence
    tailDigest := some record.recordDigest }

variable (fromSlice : ReplayRecordDecoder)

def replayLedgerRecord (state : ReplayedRecords) (line : Bytes) : Except String ReplayedRecords := do
  let record ← (fromSlice line).mapError fun error => "invalid JSON: " ++ error
  rejectIf (record.toVec ≠ line) "record is not canonical JSON"
  state.accept record

-- One line with its place; `count` is how many there are. Only the last one may be empty.
def replayLedgerLine (count : Nat) (state : ReplayedRecords) :
    Bytes × Nat → Except ReplayLedgerError ReplayedRecords
  | ([], index) => do
      rejectIf (index + 1 ≠ count) (.Corrupt (index + 1) "blank record in durable ledger")
      return state
  | (line, index) => (replayLedgerRecord fromSlice state line).mapError (.Corrupt (index + 1))

def replayRecords (bytes : Bytes) : Except ReplayLedgerError ReplayedRecords := do
  rejectIf (bytes ≠ [] ∧ bytes.getLast? ≠ some lineFeed)
    (.Corrupt (bytes.count lineFeed + 1) "unterminated or torn tail record")
  let lines := bytes.splitOn lineFeed
  Runs.replay (replayLedgerLine fromSlice lines.length) .none lines.zipIdx

end Replay

-- The path of the ledger. The length of a file is a u64, so sums of lengths do not saturate.
structure LedgerDisk where
  isSymlink : Bool
  file : Option Bytes

def LedgerDisk.bytes (disk : LedgerDisk) : Bytes :=
  disk.file.getD []

structure PersistentReplayLedger where
  consumedScopes : BTreeSet String
  nextSequence : Nat
  tailDigest : Option String
  knownLen : Nat
  poisoned : Bool

structure LedgerWorld where
  disk : LedgerDisk
  ledger : PersistentReplayLedger

def createFile : Durable.Effect LedgerDisk where
  whole disk := { disk with file := some disk.bytes }
  part reached disk := if reached = 0 then disk else { disk with file := some disk.bytes }

-- The bytes reach the file in order; a failed write leaves some of them, and so does a
-- failed sync.
def appendRecord (encoded : Bytes) : Durable.Effect LedgerWorld where
  whole world := { world with disk.file := some (world.disk.bytes ++ encoded) }
  part reached world := { world with disk.file := some (world.disk.bytes ++ encoded.take reached) }

def syncRecord : Durable.Effect LedgerWorld where
  whole world := world
  part reached world :=
    { world with disk.file := some (world.disk.bytes.take (world.ledger.knownLen + reached)) }

namespace PersistentReplayLedger

def modifyLedger (f : PersistentReplayLedger → PersistentReplayLedger) :
    Program LedgerWorld ReplayLedgerError Unit :=
  Program.modify fun world => { world with ledger := f world.ledger }

def poison (ledger : PersistentReplayLedger) : PersistentReplayLedger :=
  { ledger with poisoned := true }

def poisonOnError (program : Program LedgerWorld ReplayLedgerError Unit) :
    Program LedgerWorld ReplayLedgerError Unit :=
  program.orElse fun error => do
    modifyLedger poison
    Program.refuse error

-- Another writer shows in the length of the file.
def checkLength : Program LedgerWorld ReplayLedgerError Unit := do
  let { disk, ledger } ← Program.get
  if disk.bytes.length ≠ ledger.knownLen then do
    modifyLedger poison
    Program.refuse (.ConcurrentModification ledger.knownLen disk.bytes.length)

-- A new file is made durable before it is read.
def createLedger : Program LedgerDisk ReplayLedgerError Unit := do
  let disk ← Program.get
  Program.step createFile (.Io "open")
  if disk.file.isNone then do
    Program.step .untouched (.Io "sync_new_file")
    Program.step .untouched (.Io "sync_parent_directory")

variable [Sha256]

def openLedger (fromSlice : ReplayRecordDecoder) :
    Program LedgerDisk ReplayLedgerError PersistentReplayLedger := do
  let disk ← Program.get
  Program.check (rejectIf disk.isSymlink .SymlinkRefused)
  Program.step .untouched (.Io "create_parent_directory")
  createLedger
  Program.step .untouched (.Io "clone_for_replay")
  Program.step .untouched (.Io "read_replay_log")
  let disk ← Program.get
  let replayed ← Program.check (replayRecords fromSlice disk.bytes)
  return {
    consumedScopes := replayed.consumedScopes
    nextSequence := replayed.expectedSequence
    tailDigest := replayed.tailDigest
    knownLen := disk.bytes.length
    poisoned := false }

def nextRecord (claim : ReplayClaimV1) (ledger : PersistentReplayLedger) : ReplayLedgerRecordV1 :=
  let record : ReplayLedgerRecordV1 := {
    schema := REPLAY_LEDGER_RECORD_SCHEMA
    sequence := ledger.nextSequence
    previousRecordDigest := ledger.tailDigest
    claim := claim
    claimDigest := claim.claimDigest
    scopeDigest := claim.scopeDigest
    recordDigest := "" }
  { record with recordDigest := record.computeRecordDigest }

def install (record : ReplayLedgerRecordV1) (ledger : PersistentReplayLedger) :
    PersistentReplayLedger :=
  { ledger with
    knownLen := ledger.knownLen + (record.toVec ++ [lineFeed]).length
    nextSequence := nextLedgerSequence ledger.nextSequence
    tailDigest := some record.recordDigest
    consumedScopes := ledger.consumedScopes.insert record.scopeDigest }

def consume (claim : ReplayClaimV1) (nowMs maxFutureClockSkewMs : Nat) :
    Program LedgerWorld ReplayLedgerError ReplayReceiptV1 := do
  let { ledger, .. } ← Program.get
  Program.check (rejectIf ledger.poisoned .Poisoned)
  Program.check (claim.validateAt nowMs maxFutureClockSkewMs)
  Program.check (rejectIf (claim.scopeDigest ∈ ledger.consumedScopes) (.Replay claim.scopeDigest))
  Program.step .untouched (.Io "read_length_before_append")
  checkLength
  let record := ledger.nextRecord claim
  poisonOnError (Program.step (appendRecord (record.toVec ++ [lineFeed])) (.Io "append_record"))
  poisonOnError (Program.step syncRecord (.Io "sync_record"))
  modifyLedger (install record)
  return {
    sequence := record.sequence
    claimDigest := record.claimDigest
    scopeDigest := record.scopeDigest
    durability := .SyncedFile }

end PersistentReplayLedger

-- What happens to a ledger: it is opened again, which drops the handle there was, or it is
-- called, with what becomes of the durable steps.
inductive LedgerEvent
  | Open (fates : List Fate)
  | Consume (claim : ReplayClaimV1) (nowMs maxFutureClockSkewMs : Nat) (fates : List Fate)

structure LedgerHistory where
  disk : LedgerDisk
  ledger : Option PersistentReplayLedger
  answers : List (ReplayClaimV1 × Outcome ReplayLedgerError ReplayReceiptV1)

namespace LedgerHistory

def start : LedgerHistory where
  disk := ⟨false, none⟩
  ledger := none
  answers := []

def acknowledged (history : LedgerHistory) : List ReplayClaimV1 :=
  history.answers.filterMap fun
    | (claim, .returned _) => some claim
    | _ => none

variable [Sha256] (fromSlice : ReplayRecordDecoder)

-- A crash ends the process, and the handle with it.
def apply (history : LedgerHistory) : LedgerEvent → LedgerHistory
  | .Open fates =>
      match PersistentReplayLedger.openLedger fromSlice fates history.disk with
      | (.returned ledger, _, disk) => { history with disk, ledger := some ledger }
      | (_, _, disk) => { history with disk, ledger := none }
  | .Consume claim nowMs maxFutureClockSkewMs fates =>
      match history.ledger with
      | none => history
      | some ledger =>
          match PersistentReplayLedger.consume claim nowMs maxFutureClockSkewMs fates
            ⟨history.disk, ledger⟩ with
          | (.crashed, _, world) =>
              ⟨world.disk, none, history.answers ++ [(claim, .crashed)]⟩
          | (outcome, _, world) =>
              ⟨world.disk, some world.ledger, history.answers ++ [(claim, outcome)]⟩

def run (events : List LedgerEvent) : LedgerHistory :=
  events.foldl (apply fromSlice) start

end LedgerHistory

end M1nd.Control
