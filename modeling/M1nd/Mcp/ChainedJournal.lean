import M1nd.Library.Framing
import M1nd.Library.Json
import M1nd.Library.Loops
import M1nd.Mcp.ProtectedJournalHead

namespace M1nd.Mcp.ChainedJournal

open M1nd.Library.Checks
open M1nd.Library.Durable
open M1nd.Library.Framing
open M1nd.Library.Json (Bytes)

def lineEnd : UInt8 := '\n'.toUInt8

-- What the journals of the owner share: one file of newline-framed records, chained by
-- their digests, the protected head of that chain, and the one handle that writes.
-- A journal says how its records are written and read, what replay asks of the next
-- record, and which errors it answers with. `fileFirst` tells whether it looks at the
-- file before it looks at the protected head.
structure Format (ρ σ ε : Type) where
  headDomain : String
  fileFirst : Bool
  toVec : ρ → Bytes
  decode : σ → Bytes → Except ε ρ
  fresh : σ
  accept : σ → ρ → Except ε σ
  sequence : σ → Nat
  tailDigest : σ → Option String
  recordDigest : ρ → String
  emptyRecord : Nat → ε
  io : ε
  headError : ProtectedHeadError → ε
  headChanged : ε
  lengthChanged : ε
  isPoisoned : ε

-- What a crash leaves behind.
structure Disk where
  log : Bytes
  heads : ProtectedHeads

structure Handle (σ : Type) where
  state : σ
  knownLen : Nat
  poisoned : Bool
  protectedHead : Option ProtectedJournalHeadSnapshotV1

structure World (σ : Type) where
  disk : Disk
  handle : Handle σ

variable {ρ σ ε α : Type}

-- The bytes reach the file in order; a failed write or sync leaves some of them.
def appendLog (bytes : Bytes) : Effect Disk where
  whole disk := { disk with log := disk.log ++ bytes }
  part reached disk := { disk with log := disk.log ++ bytes.take reached }

def truncateLog (complete : Nat) : Effect Disk where
  whole disk := { disk with log := disk.log.take complete }
  part reached disk :=
    if reached = 0 then disk else { disk with log := disk.log.take complete }

def onDisk (program : Program Disk ε α) : Program (World σ) ε α :=
  program.zoom World.disk fun disk world => { world with disk }

def modifyHandle (f : Handle σ → Handle σ) : Program (World σ) ε Unit :=
  Program.modify fun world => { world with handle := f world.handle }

def poison (handle : Handle σ) : Handle σ :=
  { handle with poisoned := true }

def poisonOnError (program : Program (World σ) ε α) : Program (World σ) ε α :=
  program.orElse fun error => do
    modifyHandle poison
    Program.refuse error

namespace Format

variable (format : Format ρ σ ε)

def line (record : ρ) : Bytes :=
  format.toVec record ++ [lineEnd]

-- Replay, one newline-framed record after the other.

def replayFrame (state : σ) (frame : Bytes) : Except ε σ := do
  let text := frame.dropLast
  rejectIf (text = []) (format.emptyRecord (format.sequence state + 1))
  let record ← format.decode state text
  format.accept state record

def replayFile (bytes : Bytes) : Except ε (σ × Nat) := do
  let complete := completeLen lineEnd bytes
  let state ← Library.Runs.replay format.replayFrame format.fresh
    (splitInclusive lineEnd (bytes.take complete))
  return (state, complete)

def onHeads (program : HeadProgram α) : Program Disk ε α :=
  (program.zoom Disk.heads fun heads disk => { disk with heads }).orElse fun detail =>
    Program.refuse (format.headError detail)

def truncateTail (complete : Nat) : Program Disk ε Unit := do
  let disk ← Program.get
  if complete ≠ disk.log.length then
    Program.step (truncateLog complete) format.io

-- `backend` tells whether a protected-head backend is configured.
def findHead (backend : Bool) (state : σ) :
    Program Disk ε (Option ProtectedJournalHeadSnapshotV1) :=
  if backend then do
    let head ← format.onHeads (verifyOrInitializeProtectedHead format.headDomain
      (format.sequence state) (format.tailDigest state))
    pure (some head)
  else pure none

def opened (backend : Bool) (state : σ) (complete : Nat) : Program Disk ε (Handle σ) := do
  if format.fileFirst then
    format.truncateTail complete
  let protectedHead ← format.findHead backend state
  if ¬ format.fileFirst then
    format.truncateTail complete
  return { state, knownLen := complete, poisoned := false, protectedHead }

def openJournal (backend : Bool) : Program Disk ε (Handle σ) := do
  let disk ← Program.get
  let (state, complete) ← Program.check (format.replayFile disk.log)
  format.opened backend state complete

-- One append: what the handle knows is compared with the file and with the protected
-- head, the record goes to the file, and the head moves on by one record.

def verifyHead : Program (World σ) ε Unit := do
  let world ← Program.get
  match world.handle.protectedHead with
  | none => pure ()
  | some expected => do
      let observed ← onDisk (format.onHeads (verifyOrInitializeProtectedHead format.headDomain
        (format.sequence world.handle.state) (format.tailDigest world.handle.state)))
      if observed ≠ expected then do
        modifyHandle poison
        Program.refuse format.headChanged

def checkLength : Program (World σ) ε Unit := do
  let world ← Program.get
  if world.disk.log.length ≠ world.handle.knownLen then do
    modifyHandle poison
    Program.refuse format.lengthChanged

def checkUnchanged : Program (World σ) ε Unit :=
  if format.fileFirst then do
    format.checkLength
    format.verifyHead
  else do
    format.verifyHead
    format.checkLength

def writeLine (record : ρ) : Program (World σ) ε Unit :=
  poisonOnError (onDisk (Program.step (appendLog (format.line record)) format.io))

def advanceHead (record : ρ) : Program (World σ) ε Unit := do
  let world ← Program.get
  match world.handle.protectedHead with
  | none => pure ()
  | some expected => do
      let next ← poisonOnError (onDisk (format.onHeads (advanceProtectedHead format.headDomain
        expected (format.sequence world.handle.state + 1) (format.recordDigest record))))
      modifyHandle fun handle => { handle with protectedHead := some next }

def install (record : ρ) (next : σ) (handle : Handle σ) : Handle σ :=
  { handle with
    state := next
    knownLen := handle.knownLen + (format.line record).length }

-- `make` seals the next record for the state of the handle, and gives the state that the
-- handle keeps once the record is durable.
def append (make : σ → Except ε (ρ × σ)) : Program (World σ) ε ρ := do
  let { handle, .. } ← Program.get
  Program.check (rejectIf handle.poisoned format.isPoisoned)
  format.checkUnchanged
  let (record, next) ← Program.check (make handle.state)
  format.writeLine record
  format.advanceHead record
  modifyHandle (format.install record next)
  return record

end Format

-- A journal between two calls: its file, and the handle of the process that has it open.
structure Store (σ : Type) where
  disk : Disk
  handle : Option (Handle σ)

def Store.empty : Store σ where
  disk := ⟨[], ∅⟩
  handle := none

-- Opening again drops the handle there was: the process that held it has ended.
def Store.reopen (opening : Program Disk ε (Handle σ)) (fates : List Fate) (store : Store σ) :
    Store σ :=
  match opening fates store.disk with
  | (.returned handle, _, disk) => ⟨disk, some handle⟩
  | (_, _, disk) => ⟨disk, none⟩

-- A call on the open handle. A crash ends the process, and the handle with it.
def Store.call (program : Program (World σ) ε α) (fates : List Fate) (store : Store σ) :
    Option (Outcome ε α) × Store σ :=
  match store.handle with
  | none => (none, store)
  | some handle =>
      match program fates ⟨store.disk, handle⟩ with
      | (.crashed, _, world) => (some .crashed, ⟨world.disk, none⟩)
      | (outcome, _, world) => (some outcome, ⟨world.disk, some world.handle⟩)

end M1nd.Mcp.ChainedJournal
