import M1nd.Mcp.AuthorityWal

namespace M1nd.Mcp

open M1nd.Control
open M1nd.Library.Checks
open M1nd.Library.Durable
open M1nd.Library.Framing
open M1nd.Library.Json (Bytes)

def newline : UInt8 := '\n'.toUInt8

-- `serde_json::to_vec`, which does not sort the keys.
def toVec (record : AuthorityWalRecordV1) : Bytes :=
  record.toValue.write

-- What the decoder of serde_json answers on the bytes of one line.
abbrev RecordDecoder := Bytes → Option AuthorityWalRecordV1

section Replay

variable [Sha256] (fromSlice : RecordDecoder) (crypto : AuthorityWalRecordCrypto)

-- What replay asks of the next record of the journal.
def admitRecord (index : ReplayIndex) (record : AuthorityWalRecordV1) :
    Except AuthorityWalError ReplayIndex := do
  rejectIf (record.sequence ≠ index.recordCount + 1)
    (.SequenceMismatch (index.recordCount + 1) record.sequence)
  rejectIf (record.previousRecordDigest ≠ index.lastRecordDigest)
    (.HashChainMismatch record.sequence)
  let _ ← record.validate.mapError .Contract
  verifyRecordCrypto record crypto
  index.applyRecord record

-- One newline-framed record at the given offset.
def replayFrame (progress : Nat × ReplayIndex) (frame : Bytes) :
    Except AuthorityWalError (Nat × ReplayIndex) := do
  let (offset, index) := progress
  let line := frame.dropLast
  rejectIf (line = []) (.Corruption offset .EmptyRecord)
  match fromSlice line with
  | none => .error (.Corruption offset .InvalidJson)
  | some record => do
      let index ← (admitRecord crypto index record).mapError fun error =>
        .Corruption offset (.Error error)
      return (offset + frame.length, index)

def replayFile (bytes : Bytes) :
    Except AuthorityWalError (ReplayIndex × AuthorityWalRecoveryReport × Nat) := do
  let complete := completeLen newline bytes
  let truncatedTailBytes := bytes.length - complete
  let (_, index) ← Library.Runs.replay (replayFrame fromSlice crypto) (0, ReplayIndex.default)
    (splitInclusive newline (bytes.take complete))
  let report : AuthorityWalRecoveryReport := {
    recordCount := (bytes.take complete).count newline
    recoveredTornTail := truncatedTailBytes ≠ 0
    truncatedTailBytes }
  return (index, report, complete)

end Replay

-- The two stores a crash leaves behind: the journal file and the protected heads.
structure WalDisk where
  log : Bytes
  heads : ProtectedHeads

structure AuthorityWal where
  replay : ReplayIndex
  recovery : AuthorityWalRecoveryReport
  poisoned : Bool
  recordCrypto : AuthorityWalRecordCrypto
  protectedHead : Option ProtectedJournalHeadSnapshotV1

structure WalWorld where
  disk : WalDisk
  wal : AuthorityWal

abbrev DiskProgram := Program WalDisk AuthorityWalError
abbrev WalProgram := Program WalWorld AuthorityWalError

-- The bytes reach the file in order; a failed write or sync leaves some of them.
def appendLog (bytes : Bytes) : Effect WalDisk where
  whole disk := { disk with log := disk.log ++ bytes }
  part reached disk := { disk with log := disk.log ++ bytes.take reached }

def truncateLog (complete : Nat) : Effect WalDisk where
  whole disk := { disk with log := disk.log.take complete }
  part reached disk :=
    if reached = 0 then disk else { disk with log := disk.log.take complete }

def onHeads {α : Type} (program : HeadProgram α) : DiskProgram α :=
  (program.zoom WalDisk.heads fun heads disk => { disk with heads }).orElse fun detail =>
    Program.refuse (.ProtectedHead detail)

def onDisk {α : Type} (program : DiskProgram α) : WalProgram α :=
  program.zoom WalWorld.disk fun disk world => { world with disk }

def modifyWal (f : AuthorityWal → AuthorityWal) : WalProgram Unit :=
  Program.modify fun world => { world with wal := f world.wal }

def poison : AuthorityWal → AuthorityWal :=
  fun wal => { wal with poisoned := true }

namespace AuthorityWal

variable [Sha256]

section Open

variable (fromSlice : RecordDecoder) (crypto : AuthorityWalRecordCrypto)

-- `backend` tells whether a protected-head backend is configured.
def openInternal (backend : Bool) : DiskProgram AuthorityWal := do
  let disk ← Program.get
  let (replay, recovery, complete) ← Program.check (replayFile fromSlice crypto disk.log)
  let protectedHead ←
    if backend then do
      let head ← onHeads (verifyOrInitializeProtectedHead AUTHORITY_WAL_HEAD_DOMAIN
        replay.recordCount replay.lastRecordDigest)
      pure (some head)
    else pure none
  if recovery.truncatedTailBytes ≠ 0 then
    Program.step (truncateLog complete) .Io
  return { replay, recovery, poisoned := false, recordCrypto := crypto, protectedHead }

end Open

def nextSequence (wal : AuthorityWal) : Nat :=
  wal.replay.recordCount + 1

-- The record as it is signed: chained, sealed, with the writer's own metadata.
def chained (wal : AuthorityWal) (draft : AuthorityWalRecordV1) : AuthorityWalRecordV1 :=
  { draft with
    issuer := wal.recordCrypto.issuer
    keyId := wal.recordCrypto.keyId
    algorithm := wal.recordCrypto.algorithm
    signature := ⟨"pending-owner-signature"⟩ }.assignChainAndSeal wal.nextSequence
      wal.replay.lastRecordDigest

def signed (wal : AuthorityWal) (entropy : Nat) (draft : AuthorityWalRecordV1) :
    Except AuthorityWalError AuthorityWalRecordV1 := do
  rejectIf (wal.recordCrypto.assurance = .UnavailableFailClosed)
    (.Crypto "sign" "no explicit AuthorityWAL signer configured")
  let record := wal.chained draft
  let signature ← (wal.recordCrypto.sign entropy record.canonicalSignatureMessage).mapError
    (.Crypto "sign")
  let record := { record with signature := ⟨signature⟩ }
  verifyRecordCrypto record wal.recordCrypto
  let _ ← record.validate.mapError .Contract
  return record

def terminalReplay (wal : AuthorityWal) (record : AuthorityWalRecordV1) :
    Except AuthorityWalError (Option AuthorityWalTerminalOutcome) :=
  match record.payload with
  | .Prepare payload => do
      let _ ← (record.validateAgainstTransaction payload.transaction).mapError .Contract
      wal.replay.terminalReplayForPrepare record payload.transaction
  | _ => .ok none

def verifyHead : WalProgram Unit := do
  let world ← Program.get
  match world.wal.protectedHead with
  | none => pure ()
  | some expected => do
      let observed ← onDisk (onHeads (verifyOrInitializeProtectedHead AUTHORITY_WAL_HEAD_DOMAIN
        world.wal.replay.recordCount world.wal.replay.lastRecordDigest))
      if observed ≠ expected then do
        modifyWal poison
        Program.refuse (.ProtectedHead .ChangedOutsideOwnerSerial)

def poisonOnError {α : Type} (program : WalProgram α) : WalProgram α :=
  program.orElse fun error => do
    modifyWal poison
    Program.refuse error

def writeRecord (record : AuthorityWalRecordV1) : WalProgram Unit :=
  poisonOnError (onDisk (Program.step (appendLog (toVec record ++ [newline])) .Io))

def advanceHead (record : AuthorityWalRecordV1) : WalProgram Unit := do
  let world ← Program.get
  match world.wal.protectedHead with
  | none => pure ()
  | some expected => do
      let next ← poisonOnError (onDisk (onHeads (advanceProtectedHead AUTHORITY_WAL_HEAD_DOMAIN
        expected record.sequence record.recordDigest)))
      modifyWal fun wal => { wal with protectedHead := some next }

def install (next : ReplayIndex) (wal : AuthorityWal) : AuthorityWal :=
  { wal with
    replay := next
    recovery := { wal.recovery with recordCount := next.recordCount } }

def append (entropy : Nat) (draft : AuthorityWalRecordV1) :
    WalProgram AuthorityWalAppendOutcome := do
  let { wal, .. } ← Program.get
  Program.check (rejectIf wal.poisoned AuthorityWalError.Poisoned)
  verifyHead
  let record ← Program.check (wal.signed entropy draft)
  match ← Program.check (wal.terminalReplay record) with
  | some terminal => return .TerminalReplay terminal
  | none => do
      let next ← Program.check (wal.replay.applyRecord record)
      writeRecord record
      advanceHead record
      modifyWal (install next)
      return .Appended record.sequence record.phase record.recordDigest
        ((next.terminalOutcome record.transactionId).bind
          AuthorityWalTerminalOutcome.verifiedCommitWitness)

end AuthorityWal

end M1nd.Mcp

namespace M1nd.Mcp

open M1nd.Control
open M1nd.Library.Checks
open M1nd.Library.Durable
open M1nd.Library.Json (Bytes)

abbrev WalOutcome := Outcome AuthorityWalError

-- The heads around a verification and around an advance; without a backend they stay.

def HeadsTouched (wal : AuthorityWal) (heads after : ProtectedHeads) : Prop :=
  match wal.protectedHead with
  | none => after = heads
  | some _ => Anchors AUTHORITY_WAL_HEAD_DOMAIN wal.replay.recordCount
      wal.replay.lastRecordDigest heads after

def HeadsVerified (wal : AuthorityWal) (heads after : ProtectedHeads) : Prop :=
  match wal.protectedHead with
  | none => after = heads
  | some expected =>
      Anchors AUTHORITY_WAL_HEAD_DOMAIN wal.replay.recordCount wal.replay.lastRecordDigest
        heads after ∧
      expected = ⟨AUTHORITY_WAL_HEAD_DOMAIN, wal.replay.recordCount,
        wal.replay.lastRecordDigest⟩ ∧
      after[AUTHORITY_WAL_HEAD_DOMAIN]? = some expected

def HeadsAdvanced (wal : AuthorityWal) (record : AuthorityWalRecordV1)
    (heads after : ProtectedHeads) : Prop :=
  match wal.protectedHead with
  | none => after = heads
  | some expected => Advances AUTHORITY_WAL_HEAD_DOMAIN expected record.sequence
      record.recordDigest heads after

def advancedHead (wal : AuthorityWal) (record : AuthorityWalRecordV1) :
    Option ProtectedJournalHeadSnapshotV1 :=
  wal.protectedHead.map fun _ =>
    ⟨AUTHORITY_WAL_HEAD_DOMAIN, record.sequence, some record.recordDigest⟩

namespace AuthorityWal

variable {world : WalWorld}

theorem onHeads_always {α : Type} {program : HeadProgram α} {disk : WalDisk}
    {post : Outcome AuthorityWalError α → WalDisk → Prop}
    (h : Always program disk.heads fun o heads =>
      match o with
      | .returned value => post (.returned value) { disk with heads }
      | .refused detail => post (.refused (.ProtectedHead detail)) { disk with heads }
      | .crashed => post .crashed { disk with heads }) :
    Always (onHeads program) disk post := by
  refine .orElse (.zoom (h.mono ?_))
  rintro (value | detail | _) heads hpost
  · exact hpost
  · exact .refuse hpost
  · exact hpost

theorem poisonOnError_always {α : Type} {program : WalProgram α}
    {post : Outcome AuthorityWalError α → WalWorld → Prop}
    (h : Always program world fun o after =>
      match o with
      | .returned value => post (.returned value) after
      | .refused error => post (.refused error) { after with wal := poison after.wal }
      | .crashed => post .crashed after) :
    Always (poisonOnError program) world post := by
  refine .orElse (h.mono ?_)
  rintro (value | error | _) after hpost
  · exact hpost
  · exact .bind (.modify (.refuse hpost))
  · exact hpost

-- Verifying the head leaves the log alone, and a handle it refuses is at most poisoned.
theorem verifyHead_always :
    Always verifyHead world fun o after =>
      (o = .returned () → after.wal = world.wal ∧
        HeadsVerified world.wal world.disk.heads after.disk.heads) ∧
      after.disk.log = world.disk.log ∧
      HeadsTouched world.wal world.disk.heads after.disk.heads ∧
      (after.wal = world.wal ∨ after.wal = poison world.wal) := by
  refine .bind (.get ?_)
  dsimp only
  cases hhead : world.wal.protectedHead with
  | none =>
      simp only [HeadsTouched, HeadsVerified, hhead]
      exact .pure ⟨fun _ => ⟨rfl, rfl⟩, rfl, rfl, .inl rfl⟩
  | some expected =>
      simp only [HeadsTouched, HeadsVerified, hhead]
      refine .bind (.zoom (onHeads_always (verifyOrInitialize_always.mono ?_)))
      rintro (head | detail | _) heads ⟨hreturned, hanchors⟩
      · obtain ⟨rfl, hstored⟩ := hreturned head rfl
        dsimp only
        split
        · exact .bind (.modify (.refuse ⟨by simp, rfl, hanchors, .inr rfl⟩))
        · rename_i hsame
          obtain rfl := not_not.mp hsame
          exact .pure ⟨fun _ => ⟨rfl, hanchors, rfl, hstored⟩, rfl, hanchors, .inl rfl⟩
      · exact ⟨by simp, rfl, hanchors, .inl rfl⟩
      · exact ⟨by simp, rfl, hanchors, .inl rfl⟩

theorem writeRecord_always [Sha256] {record : AuthorityWalRecordV1} :
    Always (writeRecord record) world fun o after =>
      (o = .returned () ∧ after = { world with disk.log := world.disk.log ++
        (toVec record ++ [newline]) }) ∨
      (o ≠ .returned () ∧ after.disk.heads = world.disk.heads ∧
        (∃ reached, after.disk.log = world.disk.log ++ (toVec record ++ [newline]).take reached) ∧
        (o = .crashed ∧ after.wal = world.wal ∨ after.wal = poison world.wal)) := by
  refine poisonOnError_always (.zoom (.step (.inl ⟨rfl, rfl⟩) ?_ ?_))
  · exact fun reached => .inr ⟨by simp, rfl, ⟨reached, rfl⟩, .inr rfl⟩
  · exact fun reached => .inr ⟨by simp, rfl, ⟨reached, rfl⟩, .inl ⟨rfl, rfl⟩⟩

theorem advanceHead_always {record : AuthorityWalRecordV1} :
    Always (advanceHead record) world fun o after =>
      (o = .returned () ∧ after.disk.log = world.disk.log ∧
        after.wal = { world.wal with protectedHead := advancedHead world.wal record } ∧
        HeadsAdvanced world.wal record world.disk.heads after.disk.heads) ∨
      (o ≠ .returned () ∧ after.disk.log = world.disk.log ∧
        (after.disk.heads = world.disk.heads ∨
          HeadsAdvanced world.wal record world.disk.heads after.disk.heads) ∧
        (o = .crashed ∧ after.wal = world.wal ∨ after.wal = poison world.wal)) := by
  refine .bind (.get ?_)
  dsimp only
  cases hhead : world.wal.protectedHead with
  | none =>
      simp only [HeadsAdvanced, advancedHead, hhead]
      refine .pure (.inl ⟨rfl, rfl, ?_, rfl⟩)
      rw [Option.map_none, ← hhead]
  | some expected =>
      simp only [HeadsAdvanced, advancedHead, hhead]
      refine .bind (poisonOnError_always (.zoom (onHeads_always
        (advanceProtectedHead_always.mono ?_))))
      rintro (head | detail | _) heads ⟨hreturned, hheads⟩
      · obtain ⟨rfl, hadvances⟩ := hreturned head rfl
        exact .modify (.inl ⟨rfl, rfl, rfl, hadvances⟩)
      · exact .inr ⟨by simp, rfl, hheads, .inr rfl⟩
      · exact .inr ⟨by simp, rfl, hheads, .inl ⟨rfl, rfl⟩⟩

variable [Sha256] {entropy : Nat} {draft record : AuthorityWalRecordV1}

theorem signed_eq_ok {wal : AuthorityWal} (h : wal.signed entropy draft = .ok record) :
    record.sequence = wal.nextSequence ∧
      record.previousRecordDigest = wal.replay.lastRecordDigest ∧
      (∃ validation, record.validate = .ok validation) ∧
      verifyRecordCrypto record wal.recordCrypto = .ok () := by
  simp only [signed, bind_eq_ok, exists_unit, mapError_eq_ok, pure_eq_ok] at h
  obtain ⟨-, signature, -, hcrypto, validation, hvalidate, rfl⟩ := h
  exact ⟨rfl, rfl, ⟨validation, hvalidate⟩, hcrypto⟩

theorem signed_admitted {wal : AuthorityWal} {next : ReplayIndex}
    (hsigned : wal.signed entropy draft = .ok record)
    (happly : wal.replay.applyRecord record = .ok next) :
    admitRecord wal.recordCrypto wal.replay record = .ok next := by
  obtain ⟨hsequence, hprevious, ⟨validation, hvalidate⟩, hcrypto⟩ := signed_eq_ok hsigned
  simp only [admitRecord, bind_eq_ok, exists_unit, mapError_eq_ok, rejectIf_eq_ok]
  exact ⟨fun h => h hsequence, fun h => h hprevious, validation, hvalidate, hcrypto, happly⟩

-- Everything one call of append can do, whatever becomes of its durable steps.
inductive AppendStep (world : WalWorld) :
    WalOutcome AuthorityWalAppendOutcome → WalWorld → Prop
  | Poisoned (hpoisoned : world.wal.poisoned = true) :
      AppendStep world (.refused .Poisoned) world
  | Idle (o after) (hlive : world.wal.poisoned = false)
      (hout : ∀ sequence phase digest witness,
        o ≠ .returned (.Appended sequence phase digest witness))
      (hlog : after.disk.log = world.disk.log)
      (hheads : HeadsTouched world.wal world.disk.heads after.disk.heads)
      (hwal : after.wal = world.wal ∨ after.wal = poison world.wal) :
      AppendStep world o after
  | Torn (o after record next reached) (hlive : world.wal.poisoned = false)
      (hadmitted : admitRecord world.wal.recordCrypto world.wal.replay record = .ok next)
      (hout : ∀ outcome, o ≠ .returned outcome)
      (hlog : after.disk.log =
        world.disk.log ++ (toVec record ++ [newline]).take reached)
      (hheads : HeadsVerified world.wal world.disk.heads after.disk.heads)
      (hwal : o = .crashed ∧ after.wal = world.wal ∨ after.wal = poison world.wal) :
      AppendStep world o after
  | Unconfirmed (o after record next heads) (hlive : world.wal.poisoned = false)
      (hadmitted : admitRecord world.wal.recordCrypto world.wal.replay record = .ok next)
      (hout : ∀ outcome, o ≠ .returned outcome)
      (hlog : after.disk.log = world.disk.log ++ (toVec record ++ [newline]))
      (hverified : HeadsVerified world.wal world.disk.heads heads)
      (hheads : after.disk.heads = heads ∨
        HeadsAdvanced world.wal record heads after.disk.heads)
      (hwal : o = .crashed ∧ after.wal = world.wal ∨ after.wal = poison world.wal) :
      AppendStep world o after
  | Acknowledged (after record next heads witness) (hlive : world.wal.poisoned = false)
      (hadmitted : admitRecord world.wal.recordCrypto world.wal.replay record = .ok next)
      (hlog : after.disk.log = world.disk.log ++ (toVec record ++ [newline]))
      (hverified : HeadsVerified world.wal world.disk.heads heads)
      (hadvanced : HeadsAdvanced world.wal record heads after.disk.heads)
      (hwal : after.wal =
        install next { world.wal with protectedHead := advancedHead world.wal record }) :
      AppendStep world
        (.returned (.Appended record.sequence record.phase record.recordDigest witness)) after

theorem append_step : Always (append entropy draft) world (AppendStep world) := by
  refine .bind (.get ?_)
  refine .bind (.check ?_ ?_)
  · intro _ hpoisoned
    have hlive : world.wal.poisoned = false := by
      simpa using rejectIf_eq_ok.mp hpoisoned
    refine .bind (verifyHead_always.mono ?_)
    rintro (_ | error | _) verified ⟨hverified, hlog, hheads, hwal⟩
    · obtain ⟨hsame, hverified⟩ := hverified rfl
      have hidle : ∀ o, (∀ sequence phase digest witness,
          o ≠ .returned (.Appended sequence phase digest witness)) →
          AppendStep world o verified :=
        fun o hout => .Idle o verified hlive hout hlog hheads hwal
      refine .bind (.check ?_ (fun error _ => hidle _ (by simp)))
      intro record hsigned
      refine .bind (.check ?_ (fun error _ => hidle _ (by simp)))
      rintro (_ | terminal) -
      · refine .bind (.check ?_ (fun error _ => hidle _ (by simp)))
        intro next happly
        have hadmitted := signed_admitted hsigned happly
        refine .bind (writeRecord_always.mono ?_)
        rintro o written hwritten
        obtain ⟨rfl, rfl⟩ | ⟨hout, hheads', ⟨reached, hlog'⟩, hwal'⟩ := hwritten
        · refine .bind (advanceHead_always.mono ?_)
          rintro o advanced hadvanced
          rw [hsame] at hadvanced
          obtain ⟨rfl, hlog', hwal', hheads'⟩ | ⟨hout, hlog', hheads', hwal'⟩ := hadvanced
          · refine .bind (.modify (.pure ?_))
            refine .Acknowledged _ record next verified.disk.heads _ hlive hadmitted ?_ hverified
              hheads' ?_
            · rw [← hlog]
              exact hlog'
            · rw [← hwal']
          · have hunconfirmed : ∀ o, (∀ outcome, o ≠ .returned outcome) →
                (o = .crashed ∧ advanced.wal = world.wal ∨ advanced.wal = poison world.wal) →
                AppendStep world o advanced :=
              fun o hout hwal => .Unconfirmed o advanced record next verified.disk.heads hlive
                hadmitted hout (by rw [← hlog]; exact hlog') hverified hheads' hwal
            obtain (value | error | _) := o
            · exact absurd rfl hout
            · exact hunconfirmed _ (by simp) (.inr (hwal'.resolve_left (by simp)))
            · exact hunconfirmed _ (by simp) (hwal'.imp_left fun h => ⟨rfl, h.2⟩)
        · rw [hsame] at hwal'
          have htorn : ∀ o, (∀ outcome, o ≠ .returned outcome) →
              (o = .crashed ∧ written.wal = world.wal ∨ written.wal = poison world.wal) →
              AppendStep world o written :=
            fun o hout hwal => .Torn o written record next reached hlive hadmitted hout
              (by rw [← hlog]; exact hlog') (by rw [hheads']; exact hverified) hwal
          obtain (value | error | _) := o
          · exact absurd rfl hout
          · exact htorn _ (by simp) (.inr (hwal'.resolve_left (by simp)))
          · exact htorn _ (by simp) (hwal'.imp_left fun h => ⟨rfl, h.2⟩)
      · exact .pure (hidle _ (by simp))
    · exact .Idle _ verified hlive (by simp) hlog hheads hwal
    · exact .Idle _ verified hlive (by simp) hlog hheads hwal
  · intro error herror
    obtain ⟨hpoisoned, rfl⟩ := rejectIf_eq_error.mp herror
    exact .Poisoned hpoisoned

end AuthorityWal

end M1nd.Mcp
