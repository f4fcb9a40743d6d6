import M1nd.Mcp.AuthorityWal.Append
import M1nd.Mcp.AuthorityWal.PhaseSafety

namespace M1nd.Mcp

open M1nd.Control
open M1nd.Library
open M1nd.Library.Checks
open M1nd.Library.Durable
open M1nd.Library.Framing
open M1nd.Library.Json (Bytes)

-- serde_json reads back every record it has written.
def ReadsBack (fromSlice : RecordDecoder) : Prop :=
  ∀ record, fromSlice (toVec record) = some record

-- The bytes of a log: one line for each record.
def logBytes (log : List AuthorityWalRecordV1) : Bytes :=
  frames newline (log.map toVec)

theorem newline_not_mem_toVec (record : AuthorityWalRecordV1) : newline ∉ toVec record :=
  Json.newline_not_mem_write _

theorem toVec_lines (log : List AuthorityWalRecordV1) : ∀ line ∈ log.map toVec, newline ∉ line := by
  simpa using fun record _ => newline_not_mem_toVec record

theorem logBytes_concat (log : List AuthorityWalRecordV1) (record : AuthorityWalRecordV1) :
    logBytes (log ++ [record]) = logBytes log ++ (toVec record ++ [newline]) := by
  simp [logBytes, frames_concat]

variable [Sha256] {fromSlice : RecordDecoder} {crypto : AuthorityWalRecordCrypto}
  {index next : ReplayIndex} {record : AuthorityWalRecordV1} {log : List AuthorityWalRecordV1}

theorem admitRecord_eq_ok :
    admitRecord crypto index record = .ok next ↔
      record.sequence = index.recordCount + 1 ∧
        record.previousRecordDigest = index.lastRecordDigest ∧
        (∃ validation, record.validate = .ok validation) ∧
        verifyRecordCrypto record crypto = .ok () ∧ index.applyRecord record = .ok next := by
  simp only [admitRecord, bind_eq_ok, exists_unit, mapError_eq_ok, rejectIf_eq_ok, ne_eq, not_not,
    exists_and_right]

theorem admitRecord_closes (h : admitRecord crypto index record = .ok next) :
    next.recordCount = index.recordCount + 1 ∧ next.lastRecordDigest = some record.recordDigest := by
  obtain ⟨hsequence, -, -, -, happly⟩ := admitRecord_eq_ok.mp h
  simp only [ReplayIndex.applyRecord, bind_eq_ok, pure_eq_ok] at happly
  obtain ⟨moved, -, rfl⟩ := happly
  exact ⟨hsequence, rfl⟩

-- A log the index admits record by record, from the empty journal on.
def Admitted (crypto : AuthorityWalRecordCrypto) (log : List AuthorityWalRecordV1)
    (index : ReplayIndex) : Prop :=
  Runs.replay (admitRecord crypto) ReplayIndex.default log = .ok index

theorem Admitted.concat (h : Admitted crypto log index)
    (hrecord : admitRecord crypto index record = .ok next) :
    Admitted crypto (log ++ [record]) next :=
  Runs.replay_concat_eq_ok.mpr ⟨index, h, hrecord⟩

theorem Admitted.unique (h : Admitted crypto log index) (h' : Admitted crypto log next) :
    index = next :=
  Except.ok.inj (h.symm.trans h')

theorem Admitted.recordCount (h : Admitted crypto log index) : index.recordCount = log.length :=
  Runs.replay_invariant (fun log index => index.recordCount = log.length) rfl
    (fun log record index next hinv hstep => by
      rw [(admitRecord_closes hstep).1, hinv, List.length_append, List.length_singleton]) h

theorem Admitted.take (h : Admitted crypto log index) (count : Nat) :
    ∃ earlier, Admitted crypto (log.take count) earlier :=
  Runs.replay_take h count

theorem replayFile_nil :
    replayFile fromSlice crypto [] = .ok (ReplayIndex.default, ⟨0, false, 0⟩, 0) :=
  rfl

theorem replayFrame_toVec (hdecode : ReadsBack fromSlice) (offset : Nat)
    (hrecord : admitRecord crypto index record = .ok next) :
    replayFrame fromSlice crypto (offset, index) (toVec record ++ [newline]) =
      .ok (offset + (toVec record ++ [newline]).length, next) := by
  have hline : (toVec record ++ [newline]).dropLast = toVec record := List.dropLast_concat
  have hne : toVec record ≠ [] := Json.write_ne_nil _
  unfold replayFrame
  simp [hline, hdecode record, hrecord, rejectIf, hne, bind, Except.bind, pure,
    Except.pure, Except.mapError]

theorem replay_frames (hdecode : ReadsBack fromSlice) (offset : Nat)
    (h : Runs.replay (admitRecord crypto) index log = .ok next) :
    Runs.replay (replayFrame fromSlice crypto) (offset, index)
      ((log.map toVec).map fun line => line ++ [newline]) =
      .ok (offset + (logBytes log).length, next) := by
  induction log generalizing offset index with
  | nil =>
      obtain rfl : index = next := Except.ok.inj h
      rfl
  | cons record log ih =>
      obtain ⟨middle, hrecord, hlog⟩ := bind_eq_ok.mp h
      rw [List.map_cons, List.map_cons, Runs.replay_cons, replayFrame_toVec hdecode offset hrecord]
      change Runs.replay _ (offset + _, middle) _ = _
      rw [ih _ hlog]
      simp only [logBytes, List.map_cons, frames_cons, List.length_append, List.length_cons,
        List.length_nil, Except.ok.injEq, Prod.mk.injEq, and_true]
      omega

-- Replaying complete records and a torn tail rebuilds the index of the records and
-- reports the tail.
theorem replayFile_logBytes (hdecode : ReadsBack fromSlice) (h : Admitted crypto log index)
    {tail : Bytes} (htail : newline ∉ tail) :
    replayFile fromSlice crypto (logBytes log ++ tail) =
      .ok (index, ⟨log.length, tail.length ≠ 0, tail.length⟩, (logBytes log).length) := by
  have hcomplete : completeLen newline (logBytes log ++ tail) = (logBytes log).length :=
    completeLen_frames_append htail
  have htake : (logBytes log ++ tail).take (logBytes log).length = logBytes log :=
    List.take_left
  have hsplit : splitInclusive newline (logBytes log) =
      (log.map toVec).map fun line => line ++ [newline] :=
    splitInclusive_frames (toVec_lines log)
  have hcount : (logBytes log).count newline = log.length := by
    rw [logBytes, count_frames (toVec_lines log), List.length_map]
  have hlength : (logBytes log ++ tail).length - (logBytes log).length = tail.length := by
    rw [List.length_append, Nat.add_sub_cancel_left]
  unfold replayFile
  simp only [hcomplete, htake, hsplit, hcount, hlength, replay_frames hdecode 0 h]
  rfl

-- A cut of such a file keeps a prefix of the records.
theorem replayFile_take (hdecode : ReadsBack fromSlice) (h : Admitted crypto log index)
    {tail : Bytes} (htail : newline ∉ tail) (count : Nat) :
    ∃ kept rest earlier, kept ≤ log.length ∧ newline ∉ rest ∧
      (logBytes log ++ tail).take count = logBytes (log.take kept) ++ rest ∧
      Admitted crypto (log.take kept) earlier ∧
      replayFile fromSlice crypto ((logBytes log ++ tail).take count) =
        .ok (earlier, ⟨kept, rest.length ≠ 0, rest.length⟩, (logBytes (log.take kept)).length) := by
  obtain ⟨kept, rest, htake, hkept, hrest⟩ := take_frames_append (toVec_lines log) htail count
  rw [List.length_map] at hkept
  obtain ⟨earlier, hearlier⟩ := h.take kept
  have hcut : (logBytes log ++ tail).take count = logBytes (log.take kept) ++ rest := by
    rw [logBytes, htake, ← List.map_take]
    rfl
  refine ⟨kept, rest, earlier, hkept, hrest, hcut, hearlier, ?_⟩
  rw [hcut, replayFile_logBytes hdecode hearlier hrest, List.length_take, Nat.min_eq_left hkept]

-- The handle a successful open returns.
def opened (crypto : AuthorityWalRecordCrypto) (backend : Bool) (index : ReplayIndex)
    (recovery : AuthorityWalRecoveryReport) : AuthorityWal where
  replay := index
  recovery := recovery
  poisoned := false
  recordCrypto := crypto
  protectedHead := if backend then
    some ⟨AUTHORITY_WAL_HEAD_DOMAIN, index.recordCount, index.lastRecordDigest⟩ else none

def HeadsOpened (backend : Bool) (index : ReplayIndex) (heads after : ProtectedHeads) : Prop :=
  if backend then
    Anchors AUTHORITY_WAL_HEAD_DOMAIN index.recordCount index.lastRecordDigest heads after ∧
      after[AUTHORITY_WAL_HEAD_DOMAIN]? =
        some ⟨AUTHORITY_WAL_HEAD_DOMAIN, index.recordCount, index.lastRecordDigest⟩
  else after = heads

variable {backend : Bool} {disk : WalDisk}

-- Everything one call of open can do. It truncates only after the head agreed.
inductive OpenStep (fromSlice : RecordDecoder) (crypto : AuthorityWalRecordCrypto)
    (backend : Bool) (disk : WalDisk) : WalOutcome AuthorityWal → WalDisk → Prop
  | Unreadable (error) (hreplay : replayFile fromSlice crypto disk.log = .error error) :
      OpenStep fromSlice crypto backend disk (.refused error) disk
  | HeadRefused (o after index report complete)
      (hreplay : replayFile fromSlice crypto disk.log = .ok (index, report, complete))
      (hout : ∀ wal, o ≠ .returned wal) (hlog : after.log = disk.log)
      (hheads : Anchors AUTHORITY_WAL_HEAD_DOMAIN index.recordCount index.lastRecordDigest
        disk.heads after.heads) :
      OpenStep fromSlice crypto backend disk o after
  | Untruncated (o after index report complete)
      (hreplay : replayFile fromSlice crypto disk.log = .ok (index, report, complete))
      (hout : ∀ wal, o ≠ .returned wal)
      (hlog : after.log = disk.log ∨ after.log = disk.log.take complete)
      (hheads : HeadsOpened backend index disk.heads after.heads) :
      OpenStep fromSlice crypto backend disk o after
  | Opened (after index report complete)
      (hreplay : replayFile fromSlice crypto disk.log = .ok (index, report, complete))
      (hlog : after.log = disk.log.take complete)
      (hheads : HeadsOpened backend index disk.heads after.heads) :
      OpenStep fromSlice crypto backend disk (.returned (opened crypto backend index report)) after

theorem replayFile_complete {report : AuthorityWalRecoveryReport} {complete : Nat} {bytes : Bytes}
    (h : replayFile fromSlice crypto bytes = .ok (index, report, complete)) :
    report.truncatedTailBytes = bytes.length - complete := by
  simp only [replayFile, bind_eq_ok, pure_eq_ok, Prod.mk.injEq] at h
  obtain ⟨_, -, -, rfl, rfl⟩ := h
  rfl

omit [Sha256] in
theorem truncateLog_part (complete reached : Nat) (disk : WalDisk) :
    (((truncateLog complete).part reached disk).log = disk.log ∨
      ((truncateLog complete).part reached disk).log = disk.log.take complete) ∧
      ((truncateLog complete).part reached disk).heads = disk.heads := by
  unfold truncateLog
  dsimp only
  split
  · exact ⟨.inl rfl, rfl⟩
  · exact ⟨.inr rfl, rfl⟩

-- The part of open that follows the verified head.
theorem openInternal_truncate {report : AuthorityWalRecoveryReport} {complete : Nat}
    {after : WalDisk} {head : Option ProtectedJournalHeadSnapshotV1}
    (hreplay : replayFile fromSlice crypto disk.log = .ok (index, report, complete))
    (hlog : after.log = disk.log) (hheads : HeadsOpened backend index disk.heads after.heads)
    (hhead : (opened crypto backend index report).protectedHead = head) :
    Always (do
      if report.truncatedTailBytes ≠ 0 then
        Program.step (truncateLog complete) .Io
      return { replay := index, recovery := report, poisoned := false, recordCrypto := crypto,
               protectedHead := head }) after (OpenStep fromSlice crypto backend disk) := by
  subst hhead
  have hpart : ∀ o reached, (∀ wal, o ≠ .returned wal) →
      OpenStep fromSlice crypto backend disk o ((truncateLog complete).part reached after) := by
    intro o reached hout
    obtain ⟨hlog', hheads'⟩ := truncateLog_part complete reached after
    rw [← hheads'] at hheads
    rw [hlog] at hlog'
    exact .Untruncated o _ index report complete hreplay hout hlog' hheads
  split
  · refine .bind (.step (.pure ?_) ?_ ?_)
    · exact .Opened _ index report complete hreplay (by rw [← hlog]; rfl) hheads
    · exact fun reached => hpart _ reached (by simp)
    · exact fun reached => hpart _ reached (by simp)
  · rename_i htail
    refine .pure (.Opened _ index report complete hreplay ?_ hheads)
    have hzero : disk.log.length - complete = 0 := by
      rw [← replayFile_complete hreplay]
      exact not_not.mp htail
    rw [hlog, List.take_of_length_le (by omega)]

theorem openInternal_step :
    Always (AuthorityWal.openInternal fromSlice crypto backend) disk
      (OpenStep fromSlice crypto backend disk) := by
  refine .bind (.get ?_)
  refine .bind (.check ?_ (fun error h => .Unreadable error h))
  rintro ⟨index, report, complete⟩ hreplay
  cases backend with
  | false => exact openInternal_truncate hreplay rfl rfl rfl
  | true =>
      refine .bind (AuthorityWal.onHeads_always (verifyOrInitialize_always.mono ?_))
      rintro (head | detail | _) heads ⟨hhead, hanchors⟩
      · obtain ⟨rfl, hstored⟩ := hhead head rfl
        exact openInternal_truncate hreplay rfl ⟨hanchors, hstored⟩ rfl
      · exact .HeadRefused _ _ index report complete hreplay (by simp) rfl hanchors
      · exact .HeadRefused _ _ index report complete hreplay (by simp) rfl hanchors

end M1nd.Mcp

namespace M1nd.Mcp

open M1nd.Control
open M1nd.Library.Checks
open M1nd.Library.Durable
open M1nd.Library.Json (Bytes)

variable [Sha256]

-- A signing backend that answers, and whose verifier accepts its answer.
structure Signs (crypto : AuthorityWalRecordCrypto) (entropy : Nat) : Prop where
  available : crypto.assurance ≠ .UnavailableFailClosed
  issuer : crypto.issuer ≠ ""
  keyId : crypto.keyId ≠ ""
  algorithm : crypto.algorithm ≠ ""
  sign : ∀ message, ∃ signature, crypto.sign entropy message = .ok signature ∧ signature ≠ "" ∧
    crypto.verify message signature = .ok ()

theorem softwareTest_signs (secret : Bytes) (entropy : Nat) :
    Signs (softwareTestAuthorityWalRecordCrypto secret) entropy where
  available := by simp [softwareTestAuthorityWalRecordCrypto]
  issuer := by simp [softwareTestAuthorityWalRecordCrypto]
  keyId := by simp [softwareTestAuthorityWalRecordCrypto]
  algorithm := by simp [softwareTestAuthorityWalRecordCrypto]
  sign message := by
    refine ⟨softwareTestSignature secret message, rfl, ?_, ?_⟩
    · intro hempty
      have hdigest : isDigest (softwareTestSignature secret message) = true :=
        isDigest_hexLower (by simp)
      rw [hempty] at hdigest
      exact absurd hdigest (by decide)
    · simp [softwareTestAuthorityWalRecordCrypto]

namespace AuthorityWal

variable {wal : AuthorityWal} {world : WalWorld} {entropy : Nat}
  {transaction : AuthorityTransactionV1} {payload : AuthorityWalPayloadV1} {recordedAt : Nat}

-- The draft of a valid transaction is signed as it will be stored.
theorem signed_draft {validation : AuthorityTransactionStructuralValidation}
    (hsigns : Signs wal.recordCrypto entropy)
    (htransaction : transaction.validate = .ok validation)
    (hshape : Control.AuthorityWal.validatePayloadShape payload recordedAt = .ok ())
    (hlast : ∀ digest, wal.replay.lastRecordDigest = some digest → isDigest digest = true)
    (issuer keyId algorithm : String) (signature : OpaqueSignature) :
    ∃ signed, signed ≠ "" ∧ wal.signed entropy (.draft transaction payload recordedAt issuer keyId
      algorithm signature) = .ok (storedRecord transaction payload recordedAt
        wal.recordCrypto.issuer wal.recordCrypto.keyId wal.recordCrypto.algorithm wal.nextSequence
        wal.replay.lastRecordDigest signed) := by
  obtain ⟨signed, hsign, hne, hverify⟩ := hsigns.sign
    (wal.chained (.draft transaction payload recordedAt issuer keyId algorithm
      signature)).canonicalSignatureMessage
  have hsequence : wal.nextSequence ≠ 0 := Nat.succ_ne_zero _
  obtain ⟨_, hvalidates⟩ := storedRecord_validates (transaction_validated htransaction) hshape
    hsequence hsigns.issuer hsigns.keyId hsigns.algorithm hne hlast
  refine ⟨signed, hne, ?_⟩
  simp only [AuthorityWal.signed, bind_eq_ok, exists_unit, mapError_eq_ok, rejectIf_eq_ok,
    pure_eq_ok]
  refine ⟨hsigns.available, signed, hsign, ?_, _, hvalidates, rfl⟩
  simp only [verifyRecordCrypto, bind_eq_ok, exists_unit, mapError_eq_ok, rejectIf_eq_ok]
  exact ⟨hsigns.available, fun h => by simp [chained, AuthorityWalRecordV1.assignChainAndSeal] at h,
    hverify⟩

variable {draft record : AuthorityWalRecordV1} {next : ReplayIndex}

-- The head of a usable handle is the one the backend holds.
def HeadCurrent (world : WalWorld) : Prop :=
  ∀ expected, world.wal.protectedHead = some expected →
    expected = ⟨AUTHORITY_WAL_HEAD_DOMAIN, world.wal.replay.recordCount,
      world.wal.replay.lastRecordDigest⟩ ∧
    world.disk.heads[AUTHORITY_WAL_HEAD_DOMAIN]? = some expected

omit [Sha256] in
theorem verifyHead_ends_none (hnone : world.wal.protectedHead = none) (fates : List Fate) :
    Ends verifyHead fates world (.returned ()) fates world := by
  refine .bind .get ?_
  rw [hnone]
  exact .pure

omit [Sha256] in
theorem verifyHead_ends (hcurrent : HeadCurrent world) :
    Ends verifyHead [] world (.returned ()) [] world := by
  cases hhead : world.wal.protectedHead with
  | none => exact verifyHead_ends_none hhead []
  | some expected =>
      obtain ⟨rfl, hstored⟩ := hcurrent expected hhead
      refine .bind .get ?_
      rw [hhead]
      refine .bind (.zoom (.orElse (.zoom (verifyOrInitialize_ends hstored)))) ?_
      rw [if_neg (fun h => h rfl)]
      exact .pure

omit [Sha256] in
theorem writeRecord_ends :
    Ends (writeRecord record) [] world (.returned ()) []
      { world with disk.log := world.disk.log ++ (toVec record ++ [newline]) } :=
  .orElse (.zoom .step)

omit [Sha256] in
theorem writeRecord_ends_failed (reached : Nat) (rest : List Fate) :
    Ends (writeRecord record) (.failed reached :: rest) world (.refused .Io) rest
      ⟨{ world.disk with log := world.disk.log ++ (toVec record ++ [newline]).take reached },
        poison world.wal⟩ :=
  .orElse_refused (.zoom .step_failed) (.bind .modify .refuse)

omit [Sha256] in
theorem advanceHead_ends (hcurrent : HeadCurrent world)
    (hsequence : record.sequence = saturatingSucc world.wal.replay.recordCount) :
    ∃ heads, Ends (advanceHead record) [] world (.returned ()) []
      ⟨{ world.disk with heads }, { world.wal with
        protectedHead := advancedHead world.wal record }⟩ := by
  obtain ⟨⟨log, heads⟩, ⟨replay, recovery, poisoned, crypto, head⟩⟩ := world
  cases head with
  | none => exact ⟨heads, .bind .get .pure⟩
  | some expected =>
      obtain ⟨hexpected, hstored⟩ := hcurrent expected rfl
      dsimp only at hexpected
      subst hexpected
      exact ⟨_, .bind .get (.bind (.orElse (.zoom (.orElse (.zoom
        (advanceProtectedHead_ends hstored hsequence))))) .modify)⟩

-- A record that the index takes and the signer signs is appended when nothing fails.
theorem append_ends (hlive : world.wal.poisoned = false) (hcurrent : HeadCurrent world)
    (hsequence : world.wal.nextSequence = saturatingSucc world.wal.replay.recordCount)
    (hsigned : world.wal.signed entropy draft = .ok record)
    (hterminal : world.wal.terminalReplay record = .ok none)
    (happly : world.wal.replay.applyRecord record = .ok next) :
    ∃ heads witness, Ends (append entropy draft) [] world
      (.returned (.Appended record.sequence record.phase record.recordDigest witness)) []
      ⟨{ log := world.disk.log ++ (toVec record ++ [newline]), heads },
        install next { world.wal with protectedHead := advancedHead world.wal record }⟩ := by
  have hwritten : HeadCurrent
      { world with disk.log := world.disk.log ++ (toVec record ++ [newline]) } := hcurrent
  have hnext : record.sequence = saturatingSucc world.wal.replay.recordCount := by
    rw [(signed_eq_ok hsigned).1, hsequence]
  obtain ⟨heads, hadvance⟩ := advanceHead_ends hwritten hnext
  exact ⟨heads, _, .bind .get (.bind (.check (by rw [hlive]; rfl)) (.bind (verifyHead_ends hcurrent)
    (.bind (.check hsigned) (.bind (.check hterminal) (.bind (.check happly)
      (.bind writeRecord_ends (.bind hadvance (.bind .modify .pure))))))))⟩

-- When the write fails the handle is poisoned and its index stays behind the file.
theorem append_ends_failed (hlive : world.wal.poisoned = false)
    (hnone : world.wal.protectedHead = none)
    (hsigned : world.wal.signed entropy draft = .ok record)
    (hterminal : world.wal.terminalReplay record = .ok none)
    (happly : world.wal.replay.applyRecord record = .ok next) (reached : Nat) :
    Ends (append entropy draft) [.failed reached] world (.refused .Io) []
      ⟨{ world.disk with log := world.disk.log ++ (toVec record ++ [newline]).take reached },
        poison world.wal⟩ :=
  .bind .get (.bind (.check (by rw [hlive]; rfl)) (.bind (verifyHead_ends_none hnone _)
    (.bind (.check hsigned) (.bind (.check hterminal) (.bind (.check happly)
      (.bind_refused (writeRecord_ends_failed reached [])))))))

-- The prepare record of a valid transaction is taken by an index that knows neither the
-- transaction nor its idempotency scope.
theorem prepare_admissible {validation : AuthorityTransactionStructuralValidation}
    (hsigns : Signs wal.recordCrypto entropy)
    (htransaction : transaction.validate = .ok validation) (hindex : wal.replay = ReplayIndex.default)
    (recordedAt : Nat) (issuer keyId algorithm : String) (signature : OpaqueSignature) :
    ∃ record next, wal.signed entropy (.draft transaction (.Prepare ⟨transaction⟩) recordedAt issuer
        keyId algorithm signature) = .ok record ∧
      wal.terminalReplay record = .ok none ∧ wal.replay.applyRecord record = .ok next := by
  have hshape : Control.AuthorityWal.validatePayloadShape (.Prepare ⟨transaction⟩) recordedAt =
      .ok () := by
    simp only [Control.AuthorityWal.validatePayloadShape, htransaction]
    rfl
  have hlast : ∀ digest, wal.replay.lastRecordDigest = some digest → isDigest digest = true := by
    simp [hindex, ReplayIndex.default]
  obtain ⟨signed, hne, hsigned⟩ := signed_draft hsigns htransaction hshape hlast issuer keyId
    algorithm signature
  obtain ⟨_, hvalid⟩ := storedRecord_validates_against htransaction hshape
    (Nat.succ_ne_zero wal.replay.recordCount) hsigns.issuer hsigns.keyId hsigns.algorithm hne hlast
    (by simp [Control.AuthorityWal.ensurePayloadBinds])
  have hfresh : transaction.binding.transactionId ∉ wal.replay.transactions := by
    simp [hindex, ReplayIndex.default]
  have hscope : IdempotencyScope.fromTransaction transaction ∉ wal.replay.idempotency := by
    simp [hindex, ReplayIndex.default]
  obtain ⟨next, hnext⟩ := ReplayIndex.applyRecord_opens rfl hvalid hfresh hscope
  refine ⟨_, next, hsigned, ?_, hnext⟩
  change (do
    let _ ← (AuthorityWalRecordV1.validateAgainstTransaction _ transaction).mapError
      AuthorityWalError.Contract
    wal.replay.terminalReplayForPrepare _ transaction) = .ok none
  simp only [bind_eq_ok, mapError_eq_ok]
  refine ⟨_, hvalid, ?_⟩
  simp only [ReplayIndex.terminalReplayForPrepare, hindex, ReplayIndex.default,
    Std.ExtHashMap.getElem?_empty, bind_eq_ok, exists_unit, rejectIf_eq_ok, pure_eq_ok, and_true]
  exact Std.ExtHashMap.not_mem_empty

-- Opening an empty journal gives a fresh handle.
theorem openInternal_ends {fromSlice : RecordDecoder} {crypto : AuthorityWalRecordCrypto}
    {heads : ProtectedHeads} :
    Ends (openInternal fromSlice crypto false) [] ⟨[], heads⟩
      (.returned (opened crypto false ReplayIndex.default ⟨0, false, 0⟩)) [] ⟨[], heads⟩ :=
  .bind .get (.bind (.check replayFile_nil) .pure)

theorem openInternal_ends_backend {fromSlice : RecordDecoder} {crypto : AuthorityWalRecordCrypto}
    {heads : ProtectedHeads} (h : heads[AUTHORITY_WAL_HEAD_DOMAIN]? = none) :
    Ends (openInternal fromSlice crypto true) [] ⟨[], heads⟩
      (.returned (opened crypto true ReplayIndex.default ⟨0, false, 0⟩)) []
      ⟨[], heads.insert AUTHORITY_WAL_HEAD_DOMAIN ⟨AUTHORITY_WAL_HEAD_DOMAIN, 0, none⟩⟩ :=
  .bind .get (.bind (.check replayFile_nil)
    (.bind (.orElse (.zoom (verifyOrInitialize_ends_empty h))) .pure))

end AuthorityWal

end M1nd.Mcp
