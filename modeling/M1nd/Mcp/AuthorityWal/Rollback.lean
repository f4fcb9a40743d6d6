import M1nd.Mcp.AuthorityWal.Recovery

namespace M1nd.Mcp

open M1nd.Control
open M1nd.Library
open M1nd.Library.Durable
open M1nd.Library.Framing
open M1nd.Library.Json (Bytes)

-- Where the history that the backend protects ends. Without a head it is empty.
def protectedEnd (heads : ProtectedHeads) : Nat × Option String :=
  match heads[AUTHORITY_WAL_HEAD_DOMAIN]? with
  | none => (0, none)
  | some head => (head.recordSequence, head.headDigest)

def ReplayIndex.endpoint (index : ReplayIndex) : Nat × Option String :=
  (index.recordCount, index.lastRecordDigest)

-- The two stores, and the handle of the process that holds the writer lock.
structure Journal where
  disk : WalDisk
  handle : Option AuthorityWal

inductive JournalEvent
  | Open (fates : List Fate)
  | Append (call : AppendCall)
  | Close
  | Replace (log : Bytes)

namespace Journal

variable [Sha256] (fromSlice : RecordDecoder) (crypto : AuthorityWalRecordCrypto)

def openWal (fates : List Fate) (journal : Journal) : Journal :=
  match journal.handle with
  | some _ => journal
  | none =>
      match AuthorityWal.openInternal fromSlice crypto true fates journal.disk with
      | (.returned wal, _, disk) => ⟨disk, some wal⟩
      | (_, _, disk) => ⟨disk, none⟩

-- The answer is `none` when there is no handle to call. A crash takes the handle away.
def append (call : AppendCall) (journal : Journal) :
    Option (WalOutcome AuthorityWalAppendOutcome) × Journal :=
  match journal.handle with
  | none => (none, journal)
  | some wal =>
      match AuthorityWal.append call.entropy call.draft call.fates ⟨journal.disk, wal⟩ with
      | (.crashed, _, after) => (some .crashed, ⟨after.disk, none⟩)
      | (o, _, after) => (some o, ⟨after.disk, some after.wal⟩)

def perform (journal : Journal) : JournalEvent → Journal
  | .Open fates => journal.openWal fromSlice crypto fates
  | .Append call => (journal.append call).2
  | .Close => { journal with handle := none }
  | .Replace log => { journal with disk.log := log }

def empty : Journal := ⟨⟨[], ∅⟩, none⟩

def run (events : List JournalEvent) : Journal :=
  events.foldl (perform fromSlice crypto) empty

end Journal

section Heads

variable {heads after : ProtectedHeads} {wal : AuthorityWal} {record : AuthorityWalRecordV1}

theorem protectedEnd_insert (sequence : Nat) (digest : Option String) :
    protectedEnd (heads.insert AUTHORITY_WAL_HEAD_DOMAIN
      ⟨AUTHORITY_WAL_HEAD_DOMAIN, sequence, digest⟩) = (sequence, digest) := by
  simp [protectedEnd]

theorem Anchors.protectedEnd_eq {sequence : Nat} {digest : Option String}
    (h : Anchors AUTHORITY_WAL_HEAD_DOMAIN sequence digest heads after) :
    protectedEnd after = protectedEnd heads := by
  obtain rfl | ⟨hnone, rfl, rfl, rfl⟩ := h
  · rfl
  · rw [protectedEnd_insert, protectedEnd, hnone]

theorem HeadsTouched.protectedEnd_eq (h : HeadsTouched wal heads after) :
    protectedEnd after = protectedEnd heads := by
  unfold HeadsTouched at h
  split at h
  · rw [h]
  · exact h.protectedEnd_eq

theorem HeadsVerified.touched (h : HeadsVerified wal heads after) :
    HeadsTouched wal heads after := by
  unfold HeadsVerified at h
  unfold HeadsTouched
  split at h
  · exact h
  · exact h.1

-- A verified head is the one the index ends at.
theorem HeadsVerified.endpoint (h : HeadsVerified wal heads after)
    (hbackend : wal.protectedHead ≠ none) : protectedEnd heads = wal.replay.endpoint := by
  rw [← h.touched.protectedEnd_eq]
  unfold HeadsVerified at h
  split at h
  · exact absurd ‹_› hbackend
  · obtain ⟨-, rfl, hstored⟩ := h
    rw [protectedEnd, hstored]
    rfl

theorem HeadsAdvanced.protectedEnd_eq (h : HeadsAdvanced wal record heads after)
    (hbackend : wal.protectedHead ≠ none) :
    protectedEnd after = (record.sequence, some record.recordDigest) := by
  unfold HeadsAdvanced at h
  split at h
  · exact absurd ‹_› hbackend
  · obtain ⟨-, -, rfl⟩ := h
    exact protectedEnd_insert _ _

end Heads

variable [Sha256] {fromSlice : RecordDecoder} {crypto : AuthorityWalRecordCrypto}

-- A handle is returned only for a file whose records end where the protected history ends.
theorem openInternal_endpoint {disk : WalDisk} {fates : List Fate} {wal : AuthorityWal}
    (hopen : (AuthorityWal.openInternal fromSlice crypto true).outcome fates disk =
      .returned wal) :
    ∃ report complete, replayFile fromSlice crypto disk.log = .ok (wal.replay, report, complete) ∧
      wal.replay.endpoint = protectedEnd disk.heads := by
  have halways : Always (AuthorityWal.openInternal fromSlice crypto true) disk
      (OpenStep fromSlice crypto true disk) := openInternal_step
  have hstep := halways fates
  rw [hopen] at hstep
  generalize (AuthorityWal.openInternal fromSlice crypto true).final fates disk = after at hstep
  cases hstep with
  | HeadRefused _ _ _ _ _ _ hout => exact absurd rfl (hout wal)
  | Untruncated _ _ _ _ _ _ hout => exact absurd rfl (hout wal)
  | Opened _ index report complete hreplay hlog hheads =>
      obtain ⟨hanchors, hstored⟩ := hheads
      refine ⟨report, complete, hreplay, ?_⟩
      rw [← hanchors.protectedEnd_eq, protectedEnd, hstored]
      rfl

namespace Journal

variable {journal : Journal}

theorem openWal_step (fromSlice : RecordDecoder) (crypto : AuthorityWalRecordCrypto)
    (hnone : journal.handle = none) (fates : List Fate) :
    ∃ o after, OpenStep fromSlice crypto true journal.disk o after ∧
      journal.openWal fromSlice crypto fates = ⟨after, match o with
        | .returned wal => some wal
        | _ => none⟩ := by
  have halways : Always (AuthorityWal.openInternal fromSlice crypto true) journal.disk
      (OpenStep fromSlice crypto true journal.disk) := openInternal_step
  have hstep := halways fates
  unfold Program.outcome Program.final at hstep
  unfold openWal
  rw [hnone]
  dsimp only
  generalize AuthorityWal.openInternal fromSlice crypto true fates journal.disk = run at hstep ⊢
  obtain ⟨o, rest, after⟩ := run
  refine ⟨o, after, hstep, ?_⟩
  cases o <;> rfl

-- The handle that a call leaves behind.
def remaining (o : WalOutcome AuthorityWalAppendOutcome) (wal : AuthorityWal) :
    Option AuthorityWal :=
  match o with
  | .crashed => none
  | _ => some wal

omit [Sha256] in
theorem remaining_eq_some {o : WalOutcome AuthorityWalAppendOutcome} {wal later : AuthorityWal}
    (h : remaining o wal = some later) : wal = later := by
  unfold remaining at h
  split at h
  · cases h
  · exact Option.some.inj h

theorem append_step {wal : AuthorityWal} (hsome : journal.handle = some wal) (call : AppendCall) :
    ∃ o after, AuthorityWal.AppendStep ⟨journal.disk, wal⟩ o after ∧
      journal.append call = (some o, ⟨after.disk, remaining o after.wal⟩) := by
  have halways : Always (AuthorityWal.append call.entropy call.draft) ⟨journal.disk, wal⟩
      (AuthorityWal.AppendStep ⟨journal.disk, wal⟩) := AuthorityWal.append_step
  have hstep := halways call.fates
  unfold Program.outcome Program.final at hstep
  unfold append
  rw [hsome]
  dsimp only
  generalize AuthorityWal.append call.entropy call.draft call.fates ⟨journal.disk, wal⟩ = run
    at hstep ⊢
  obtain ⟨o, rest, after⟩ := run
  refine ⟨o, after, hstep, ?_⟩
  cases o <;> rfl

-- Every handle of a run was opened with the backend.
def Backed (journal : Journal) : Prop :=
  ∀ wal, journal.handle = some wal → wal.protectedHead ≠ none

theorem openWal_head (hbacked : journal.Backed) (fates : List Fate) :
    (journal.openWal fromSlice crypto fates).Backed ∧
      protectedEnd (journal.openWal fromSlice crypto fates).disk.heads =
        protectedEnd journal.disk.heads := by
  cases hhandle : journal.handle with
  | some wal =>
      have hsame : journal.openWal fromSlice crypto fates = journal := by
        unfold openWal
        rw [hhandle]
      rw [hsame]
      exact ⟨hbacked, rfl⟩
  | none =>
      obtain ⟨o, after, hstep, hopen⟩ :=
        openWal_step fromSlice crypto hhandle fates
      rw [hopen]
      cases hstep with
      | Unreadable error hreplay => exact ⟨fun _ h => (by cases h), rfl⟩
      | HeadRefused _ _ index report complete hreplay hout hlog hheads =>
          refine ⟨fun wal h => ?_, hheads.protectedEnd_eq⟩
          cases o with
          | returned value => exact absurd rfl (hout value)
          | refused error => cases h
          | crashed => cases h
      | Untruncated _ _ index report complete hreplay hout hlog hheads =>
          refine ⟨fun wal h => ?_, hheads.1.protectedEnd_eq⟩
          cases o with
          | returned value => exact absurd rfl (hout value)
          | refused error => cases h
          | crashed => cases h
      | Opened _ index report complete hreplay hlog hheads =>
          refine ⟨?_, hheads.1.protectedEnd_eq⟩
          rintro _ ⟨⟩
          simp [opened]

-- What an append does to the protected end.
inductive Moves (journal : Journal) (o : WalOutcome AuthorityWalAppendOutcome)
    (after : Journal) : Prop
  | Stays (hout : ∀ sequence phase digest witness,
        o ≠ .returned (.Appended sequence phase digest witness))
      (hend : protectedEnd after.disk.heads = protectedEnd journal.disk.heads)
  | Unheard (digest) (hout : ∀ outcome, o ≠ .returned outcome)
      (hend : protectedEnd after.disk.heads =
        ((protectedEnd journal.disk.heads).1 + 1, some digest))
  | Acknowledged (sequence phase digest witness)
      (hout : o = .returned (.Appended sequence phase digest witness))
      (hsequence : sequence = (protectedEnd journal.disk.heads).1 + 1)
      (hend : protectedEnd after.disk.heads = (sequence, some digest))

theorem append_head {wal : AuthorityWal} (hbacked : journal.Backed)
    (hsome : journal.handle = some wal) (call : AppendCall) :
    ∃ o, (journal.append call).1 = some o ∧ (journal.append call).2.Backed ∧
      Moves journal o (journal.append call).2 := by
  obtain ⟨o, after, hstep, happend⟩ := append_step hsome call
  have hwal := hbacked wal hsome
  have hpoison : after.wal = wal ∨ after.wal = poison wal →
      Backed ⟨after.disk, remaining o after.wal⟩ := by
    intro hafter later hlater
    rw [← remaining_eq_some hlater]
    obtain hafter | hafter := hafter <;> rw [hafter] <;> exact hwal
  rw [happend]
  refine ⟨o, rfl, ?_⟩
  cases hstep with
  | Poisoned _ => exact ⟨hpoison (.inl rfl), .Stays (by simp) rfl⟩
  | Idle _ _ hlive hout hlog hheads hafter =>
      exact ⟨hpoison hafter, .Stays hout hheads.protectedEnd_eq⟩
  | Torn _ _ record next reached hlive hadmitted hout hlog hheads hafter =>
      exact ⟨hpoison (hafter.imp_left And.right),
        .Stays (fun _ _ _ _ => hout _) hheads.touched.protectedEnd_eq⟩
  | Unconfirmed _ _ record next heads hlive hadmitted hout hlog hverified hheads hafter =>
      refine ⟨hpoison (hafter.imp_left And.right), ?_⟩
      obtain hheads | hadvanced := hheads
      · exact .Stays (fun _ _ _ _ => hout _) (by rw [hheads, hverified.touched.protectedEnd_eq])
      · refine .Unheard record.recordDigest hout ?_
        rw [hadvanced.protectedEnd_eq hwal, hverified.endpoint hwal,
          (admitRecord_eq_ok.mp hadmitted).1]
        rfl
  | Acknowledged _ record next heads witness hlive hadmitted hlog hverified hadvanced hafter =>
      refine ⟨?_, .Acknowledged record.sequence record.phase record.recordDigest witness rfl ?_
        (hadvanced.protectedEnd_eq hwal)⟩
      · rintro later ⟨⟩
        rw [hafter]
        simpa [AuthorityWal.install, advancedHead] using hwal
      · rw [hverified.endpoint hwal, (admitRecord_eq_ok.mp hadmitted).1]
        rfl

theorem append_none (hnone : journal.handle = none) (call : AppendCall) :
    journal.append call = (none, journal) := by
  unfold append
  rw [hnone]

theorem perform_append (call : AppendCall) :
    journal.perform fromSlice crypto (.Append call) = (journal.append call).2 := rfl

theorem perform_backed (hbacked : journal.Backed) (event : JournalEvent) :
    (journal.perform fromSlice crypto event).Backed := by
  cases event with
  | Open fates => exact (openWal_head hbacked fates).1
  | Append call =>
      cases hhandle : journal.handle with
      | none =>
          rw [perform_append, append_none hhandle]
          exact hbacked
      | some wal =>
          obtain ⟨_, -, hafter, -⟩ := append_head hbacked hhandle call
          exact hafter
  | Close => exact fun _ h => nomatch h
  | Replace log => exact hbacked

theorem run_backed (events : List JournalEvent) : (run fromSlice crypto events).Backed :=
  Runs.foldl_invariant (fun _ journal => Backed journal) (fun _ h => by cases h)
    (fun _ event _ h => perform_backed h event) events

-- No event takes the protected end back, and only an append moves it, by one record.
theorem perform_head (hbacked : journal.Backed) (event : JournalEvent) :
    protectedEnd (journal.perform fromSlice crypto event).disk.heads =
        protectedEnd journal.disk.heads ∨
      ∃ call digest, event = .Append call ∧
        protectedEnd (journal.perform fromSlice crypto event).disk.heads =
          ((protectedEnd journal.disk.heads).1 + 1, some digest) := by
  cases event with
  | Open fates => exact .inl (openWal_head hbacked fates).2
  | Append call =>
      cases hhandle : journal.handle with
      | none =>
          rw [perform_append, append_none hhandle]
          exact .inl rfl
      | some wal =>
          obtain ⟨o, -, -, hmoves⟩ := append_head hbacked hhandle call
          cases hmoves with
          | Stays hout hend => exact .inl hend
          | Unheard digest hout hend => exact .inr ⟨call, digest, rfl, hend⟩
          | Acknowledged sequence phase digest witness hout hsequence hend =>
              subst hsequence
              exact .inr ⟨call, digest, rfl, hend⟩
  | Close => exact .inl rfl
  | Replace log => exact .inl rfl

-- As long as nobody rewrites the file, its records are those of the protected history and at
-- most one more, whose append was not acknowledged.
structure Traces (crypto : AuthorityWalRecordCrypto) (journal : Journal)
    (log : List AuthorityWalRecordV1) : Prop where
  admitted : ∃ index, Admitted crypto log index
  bytes : ∃ tail, journal.disk.log = logBytes log ++ tail ∧ newline ∉ tail
  protects : ∃ count index, count ≤ log.length ∧ log.length ≤ count + 1 ∧
    Admitted crypto (log.take count) index ∧
    index.endpoint = protectedEnd journal.disk.heads
  live : ∀ wal, journal.handle = some wal → wal.poisoned = false →
    wal.recordCrypto = crypto ∧ Admitted crypto log wal.replay ∧
      journal.disk.log = logBytes log ∧ wal.replay.endpoint = protectedEnd journal.disk.heads

variable {log : List AuthorityWalRecordV1} {record : AuthorityWalRecordV1} {next : ReplayIndex}
  {after : Journal}

theorem Traces.quiet (h : Traces crypto journal log)
    (hend : protectedEnd after.disk.heads = protectedEnd journal.disk.heads)
    (hbytes : ∃ tail, after.disk.log = logBytes log ++ tail ∧ newline ∉ tail)
    (hlive : ∀ wal, after.handle = some wal → wal.poisoned = false →
      wal.recordCrypto = crypto ∧ Admitted crypto log wal.replay ∧
        after.disk.log = logBytes log ∧ wal.replay.endpoint = protectedEnd after.disk.heads) :
    Traces crypto after log :=
  ⟨h.admitted, hbytes, by rw [hend]; exact h.protects, hlive⟩

theorem endpoint_next {index : ReplayIndex}
    (hadmitted : admitRecord crypto index record = .ok next) :
    next.endpoint = (record.sequence, some record.recordDigest) := by
  obtain ⟨hcount, hlast⟩ := admitRecord_closes hadmitted
  rw [ReplayIndex.endpoint, hcount, hlast, (admitRecord_eq_ok.mp hadmitted).1]

theorem Traces.grow {index : ReplayIndex} (hindex : Admitted crypto log index)
    (hadmitted : admitRecord crypto index record = .ok next)
    (hlog : after.disk.log = logBytes (log ++ [record]))
    (hend : index.endpoint = protectedEnd after.disk.heads ∨
      next.endpoint = protectedEnd after.disk.heads)
    (hlive : ∀ wal, after.handle = some wal → wal.poisoned = false →
      wal.recordCrypto = crypto ∧ Admitted crypto (log ++ [record]) wal.replay ∧
        after.disk.log = logBytes (log ++ [record]) ∧
        wal.replay.endpoint = protectedEnd after.disk.heads) :
    Traces crypto after (log ++ [record]) := by
  have hnext := hindex.concat hadmitted
  refine ⟨⟨next, hnext⟩, ⟨[], by rw [hlog, List.append_nil], by simp⟩, ?_, hlive⟩
  obtain hend | hend := hend
  · refine ⟨log.length, index, by simp, by simp, ?_, hend⟩
    rw [List.take_left]
    exact hindex
  · refine ⟨(log ++ [record]).length, next, Nat.le_refl _, Nat.le_succ _, ?_, hend⟩
    rw [List.take_length]
    exact hnext

theorem Traces.openWal (hdecode : ReadsBack fromSlice) (h : Traces crypto journal log)
    (fates : List Fate) : Traces crypto (journal.openWal fromSlice crypto fates) log := by
  cases hhandle : journal.handle with
  | some wal =>
      have hsame : journal.openWal fromSlice crypto fates = journal := by
        unfold Journal.openWal
        rw [hhandle]
      rw [hsame]
      exact h
  | none =>
      obtain ⟨o, after, hstep, hopen⟩ :=
        openWal_step fromSlice crypto hhandle fates
      obtain ⟨index, hindex⟩ := h.admitted
      obtain ⟨tail, hbytes, htail⟩ := h.bytes
      have hfile := replayFile_logBytes hdecode hindex htail
      rw [← hbytes] at hfile
      have hcut : journal.disk.log.take (logBytes log).length = logBytes log := by
        rw [hbytes, List.take_left]
      rw [hopen]
      cases hstep with
      | Unreadable error hreplay => exact h.quiet rfl h.bytes (fun _ hwal => by cases hwal)
      | HeadRefused _ _ found report complete hreplay hout hlog hheads =>
          refine h.quiet hheads.protectedEnd_eq ⟨tail, hlog.trans hbytes, htail⟩ ?_
          cases o with
          | returned value => exact absurd rfl (hout value)
          | refused error => exact fun _ hwal => by cases hwal
          | crashed => exact fun _ hwal => by cases hwal
      | Untruncated _ _ found report complete hreplay hout hlog hheads =>
          rw [hfile] at hreplay
          obtain ⟨rfl, rfl, rfl⟩ := hreplay
          refine h.quiet hheads.1.protectedEnd_eq ?_ ?_
          · obtain hlog | hlog := hlog
            · exact ⟨tail, hlog.trans hbytes, htail⟩
            · exact ⟨[], by rw [hlog, hcut, List.append_nil], by simp⟩
          · cases o with
            | returned value => exact absurd rfl (hout value)
            | refused error => exact fun _ hwal => by cases hwal
            | crashed => exact fun _ hwal => by cases hwal
      | Opened _ found report complete hreplay hlog hheads =>
          rw [hfile] at hreplay
          obtain ⟨rfl, rfl, rfl⟩ := hreplay
          rw [hcut] at hlog
          refine h.quiet hheads.1.protectedEnd_eq ⟨[], by rw [hlog, List.append_nil], by simp⟩ ?_
          rintro _ ⟨⟩ -
          refine ⟨rfl, hindex, hlog, ?_⟩
          rw [protectedEnd, hheads.2]
          rfl

theorem Traces.append {wal : AuthorityWal} (hbacked : journal.Backed)
    (h : Traces crypto journal log) (hsome : journal.handle = some wal) (call : AppendCall) :
    Traces crypto (journal.append call).2 log ∨
      ∃ record, Traces crypto (journal.append call).2 (log ++ [record]) := by
  obtain ⟨o, after, hstep, happend⟩ := append_step hsome call
  have hwal := hbacked wal hsome
  rw [happend]
  dsimp only
  have hidle : after.disk.log = journal.disk.log →
      protectedEnd after.disk.heads = protectedEnd journal.disk.heads →
      (after.wal = wal ∨ after.wal = poison wal) →
      Traces crypto ⟨after.disk, remaining o after.wal⟩ log := by
    intro hlog hend hafter
    refine h.quiet hend (by rw [hlog]; exact h.bytes) (fun later hlater hlive => ?_)
    obtain rfl := remaining_eq_some hlater
    obtain hafter | hafter := hafter
    · rw [hafter] at hlive ⊢
      rw [hlog, hend]
      exact h.live wal hsome hlive
    · rw [hafter] at hlive
      cases hlive
  have hgone : o = .crashed ∧ after.wal = wal ∨ after.wal = poison wal →
      ∀ later, remaining o after.wal = some later → later.poisoned = true := by
    rintro (⟨rfl, -⟩ | hafter) later hlater
    · cases hlater
    · rw [← remaining_eq_some hlater, hafter]
      rfl
  cases hstep with
  | Poisoned _ => exact .inl (hidle rfl rfl (.inl rfl))
  | Idle _ _ hlive hout hlog hheads hafter =>
      exact .inl (hidle hlog hheads.protectedEnd_eq hafter)
  | Torn _ _ record next reached hlive hadmitted hout hlog hheads hafter =>
      obtain ⟨rfl, hindex, hfile, hend⟩ := h.live wal hsome hlive
      have hsilent := hgone hafter
      have hkept := hheads.touched.protectedEnd_eq
      rw [hfile] at hlog
      obtain hwhole | hpart := take_frame (newline_not_mem_toVec record) reached
      · rw [hwhole, ← logBytes_concat] at hlog
        refine .inr ⟨record, .grow hindex hadmitted hlog (.inl (hend.trans hkept.symm)) ?_⟩
        intro later hlater hlive
        rw [hsilent later hlater] at hlive
        cases hlive
      · refine .inl (h.quiet hkept ⟨_, hlog, hpart⟩ fun later hlater hlive => ?_)
        rw [hsilent later hlater] at hlive
        cases hlive
  | Unconfirmed _ _ record next heads hlive hadmitted hout hlog hverified hheads hafter =>
      obtain ⟨rfl, hindex, hfile, hend⟩ := h.live wal hsome hlive
      have hsilent := hgone hafter
      rw [hfile, ← logBytes_concat] at hlog
      refine .inr ⟨record, .grow hindex hadmitted hlog ?_ fun later hlater hlive => ?_⟩
      · obtain hheads | hadvanced := hheads
        · exact .inl (by rw [hheads, hverified.touched.protectedEnd_eq]; exact hend)
        · exact .inr (by rw [hadvanced.protectedEnd_eq hwal, endpoint_next hadmitted])
      · rw [hsilent later hlater] at hlive
        cases hlive
  | Acknowledged _ record next heads witness hlive hadmitted hlog hverified hadvanced hafter =>
      obtain ⟨rfl, hindex, hfile, hend⟩ := h.live wal hsome hlive
      rw [hfile, ← logBytes_concat] at hlog
      have hends : next.endpoint = protectedEnd after.disk.heads := by
        rw [hadvanced.protectedEnd_eq hwal, endpoint_next hadmitted]
      refine .inr ⟨record, .grow hindex hadmitted hlog (.inr hends) ?_⟩
      rintro later ⟨⟩ -
      rw [hafter]
      exact ⟨rfl, hindex.concat hadmitted, hlog, hends⟩

theorem empty_traces : Traces crypto empty [] := by
  refine ⟨⟨_, rfl⟩, ⟨[], rfl, by simp⟩, ?_, (fun _ h => by cases h)⟩
  refine ⟨0, ReplayIndex.default, Nat.le_refl _, Nat.le_succ _, rfl, ?_⟩
  simp [empty, protectedEnd, ReplayIndex.endpoint, ReplayIndex.default]

theorem run_traces (hdecode : ReadsBack fromSlice) (events : List JournalEvent)
    (huntouched : ∀ event ∈ events, ∀ log, event ≠ .Replace log) :
    ∃ log, Traces crypto (run fromSlice crypto events) log := by
  refine (Runs.foldl_invariant (fun events journal => (∀ event ∈ events, ∀ log,
    event ≠ .Replace log) → journal.Backed ∧ ∃ log, Traces crypto journal log) ?_ ?_ events
    huntouched).2
  · exact fun _ => ⟨(fun _ h => by cases h), [], empty_traces⟩
  · intro events event journal ih huntouched
    obtain ⟨hbacked, log, htraces⟩ := ih fun event hevent =>
      huntouched event (List.mem_append_left _ hevent)
    refine ⟨perform_backed hbacked event, ?_⟩
    cases event with
    | Open fates => exact ⟨log, htraces.openWal hdecode fates⟩
    | Append call =>
        cases hhandle : journal.handle with
        | none =>
            rw [perform_append, append_none hhandle]
            exact ⟨log, htraces⟩
        | some wal =>
            obtain htraces | ⟨record, htraces⟩ := htraces.append hbacked hhandle call
            · exact ⟨log, htraces⟩
            · exact ⟨log ++ [record], htraces⟩
    | Close => exact ⟨log, htraces.quiet rfl htraces.bytes (fun _ h => by cases h)⟩
    | Replace bytes => exact absurd rfl (huntouched _ (by simp) bytes)

-- A cut of such a file that opens has kept every protected record.
theorem Traces.cut_keeps (hdecode : ReadsBack fromSlice) (h : Traces crypto journal log)
    {cut : Nat} {fates : List Fate} {wal : AuthorityWal}
    (hopen : (AuthorityWal.openInternal fromSlice crypto true).outcome fates
      { journal.disk with log := journal.disk.log.take cut } = .returned wal) :
    ∃ rest, journal.disk.log.take cut =
      logBytes (log.take (protectedEnd journal.disk.heads).1) ++ rest ∧ newline ∉ rest := by
  obtain ⟨index, hindex⟩ := h.admitted
  obtain ⟨tail, hbytes, htail⟩ := h.bytes
  obtain ⟨kept, rest, earlier, hkept, hrest, hcut, hearlier, hreplay⟩ :=
    replayFile_take hdecode hindex htail cut
  obtain ⟨report, complete, hfound, hend⟩ := openInternal_endpoint hopen
  rw [← hbytes] at hcut hreplay
  rw [hreplay] at hfound
  obtain rfl : earlier = wal.replay := congrArg Prod.fst (Except.ok.inj hfound)
  refine ⟨rest, ?_, hrest⟩
  rw [hcut, ← hend, ReplayIndex.endpoint, hearlier.recordCount, List.length_take,
    Nat.min_eq_left hkept]

end Journal

theorem journal_refuses_rollback (events : List JournalEvent) :
    let journal := Journal.run fromSlice crypto events
    let opens := fun fates log =>
      (AuthorityWal.openInternal fromSlice crypto true).outcome fates { journal.disk with log }
    (∀ fates log wal, opens fates log = .returned wal → ∃ report complete,
      replayFile fromSlice crypto log = .ok (wal.replay, report, complete) ∧
        wal.replay.endpoint = protectedEnd journal.disk.heads) ∧
    (∀ log index report complete,
      replayFile fromSlice crypto log = .ok (index, report, complete) →
      index.endpoint ≠ protectedEnd journal.disk.heads →
      ∀ fates wal, opens fates log ≠ .returned wal) ∧
    (∀ call sequence phase digest witness, (journal.append call).1 =
        some (.returned (.Appended sequence phase digest witness)) →
      sequence = (protectedEnd journal.disk.heads).1 + 1 ∧
        protectedEnd (journal.append call).2.disk.heads = (sequence, some digest)) ∧
    (∀ event, protectedEnd (journal.perform fromSlice crypto event).disk.heads =
        protectedEnd journal.disk.heads ∨
      ∃ call digest, event = .Append call ∧
        protectedEnd (journal.perform fromSlice crypto event).disk.heads =
          ((protectedEnd journal.disk.heads).1 + 1, some digest)) ∧
    (ReadsBack fromSlice → (∀ event ∈ events, ∀ log, event ≠ .Replace log) →
      ∃ log tail index, journal.disk.log = logBytes log ++ tail ∧ newline ∉ tail ∧
        (protectedEnd journal.disk.heads).1 ≤ log.length ∧
        log.length ≤ (protectedEnd journal.disk.heads).1 + 1 ∧
        Admitted crypto (log.take (protectedEnd journal.disk.heads).1) index ∧
        index.endpoint = protectedEnd journal.disk.heads ∧
        ∀ cut fates wal, opens fates (journal.disk.log.take cut) = .returned wal →
          ∃ rest, journal.disk.log.take cut =
            logBytes (log.take (protectedEnd journal.disk.heads).1) ++ rest ∧
            newline ∉ rest) := by
  intro journal opens
  have hbacked : journal.Backed := Journal.run_backed events
  refine ⟨fun fates log wal hopen => openInternal_endpoint hopen, ?_, ?_,
    fun event => Journal.perform_head hbacked event, ?_⟩
  · intro log index report complete hreplay hdiffers fates wal hopen
    obtain ⟨_, _, hfound, hend⟩ := openInternal_endpoint hopen
    rw [hreplay] at hfound
    obtain rfl : index = wal.replay := congrArg Prod.fst (Except.ok.inj hfound)
    exact hdiffers hend
  · intro call sequence phase digest witness hanswer
    cases hhandle : journal.handle with
    | none =>
        rw [Journal.append_none hhandle] at hanswer
        cases hanswer
    | some wal =>
        obtain ⟨o, ho, -, hmoves⟩ := Journal.append_head hbacked hhandle call
        obtain rfl : o = _ := Option.some.inj (ho.symm.trans hanswer)
        cases hmoves with
        | Stays hout hend => exact absurd rfl (hout _ _ _ _)
        | Unheard digest hout hend => exact absurd rfl (hout _)
        | Acknowledged _ _ _ _ hout hsequence hend =>
            obtain ⟨rfl, rfl, rfl, rfl⟩ := hout
            exact ⟨hsequence, hend⟩
  · intro hdecode huntouched
    obtain ⟨log, htraces⟩ := @Journal.run_traces _ _ crypto hdecode events huntouched
    obtain ⟨tail, hbytes, htail⟩ := htraces.bytes
    obtain ⟨count, index, hcount, hlength, hindex, hend⟩ := htraces.protects
    obtain rfl : count = (protectedEnd journal.disk.heads).1 := by
      rw [← hend, ReplayIndex.endpoint, hindex.recordCount, List.length_take,
        Nat.min_eq_left hcount]
    exact ⟨log, tail, index, hbytes, htail, hcount, hlength, hindex, hend,
      fun cut fates wal hopen => htraces.cut_keeps hdecode hopen⟩

theorem Appendable.journal_append {draft record : AuthorityWalRecordV1} {next : ReplayIndex}
    (h : Appendable crypto draft record next) (fromSlice : RecordDecoder) :
    ∃ witness, ((Journal.run fromSlice crypto [.Open []]).append ⟨draft, 0, []⟩).1 =
      some (.returned (.Appended record.sequence record.phase record.recordDigest witness)) := by
  let heads : ProtectedHeads := Std.ExtTreeMap.insert ∅ AUTHORITY_WAL_HEAD_DOMAIN
    ⟨AUTHORITY_WAL_HEAD_DOMAIN, 0, none⟩
  let wal := opened crypto true ReplayIndex.default ⟨0, false, 0⟩
  have hopen : Ends (AuthorityWal.openInternal fromSlice crypto true) [] ⟨[], ∅⟩ _ [] _ :=
    AuthorityWal.openInternal_ends_backend Std.ExtTreeMap.getElem?_empty
  have hjournal : Journal.run fromSlice crypto [.Open []] = ⟨⟨[], heads⟩, some wal⟩ := by
    change Journal.openWal fromSlice crypto [] Journal.empty = _
    unfold Journal.openWal Journal.empty
    dsimp only
    rw [hopen]
  have hcurrent : AuthorityWal.HeadCurrent ⟨⟨[], heads⟩, wal⟩ := by
    rintro _ ⟨⟩
    exact ⟨rfl, Std.ExtTreeMap.getElem?_insert_self⟩
  have hsigned : wal.signed 0 draft = .ok record := h.signed
  obtain ⟨_, witness, hrun⟩ := AuthorityWal.append_ends rfl hcurrent rfl hsigned h.terminal h.apply
  refine ⟨witness, ?_⟩
  rw [hjournal]
  unfold Journal.append
  dsimp only
  rw [hrun]

omit [Sha256] in
theorem landing_refuses_rollback :
    letI : Sha256 := standardSha256
    ∃ (crypto : AuthorityWalRecordCrypto) (call : AppendCall),
      let journal := Journal.run (Function.partialInv toVec) crypto [.Open [], .Append call]
      (protectedEnd journal.disk.heads).1 = 1 ∧
        (∃ log tail, journal.disk.log = logBytes log ++ tail ∧ 1 ≤ log.length) ∧
        ∀ fates wal, (AuthorityWal.openInternal (Function.partialInv toVec) crypto true).outcome
          fates { journal.disk with log := [] } ≠ .returned wal := by
  let : Sha256 := standardSha256
  have hsigns := softwareTest_signs [0]
  generalize softwareTestAuthorityWalRecordCrypto [0] = crypto at hsigns
  obtain ⟨draft, record, next, happendable⟩ := landing_appendable (hsigns 0)
  let fromSlice : RecordDecoder := Function.partialInv toVec
  obtain ⟨witness, hanswer⟩ := happendable.journal_append fromSlice
  obtain ⟨-, -, hadvances, -⟩ := @journal_refuses_rollback _ fromSlice crypto [.Open []]
  obtain ⟨hsequence, hend⟩ := hadvances _ _ _ _ _ hanswer
  obtain ⟨-, hrefuses, -, -, hfile⟩ :=
    @journal_refuses_rollback _ fromSlice crypto [.Open [], .Append ⟨draft, 0, []⟩]
  have hone : record.sequence = 1 := (AuthorityWal.signed_eq_ok happendable.signed).1
  change protectedEnd (Journal.run (Function.partialInv toVec) crypto
    [.Open [], .Append ⟨draft, 0, []⟩]).disk.heads = _ at hend
  rw [hone] at hend
  refine ⟨crypto, ⟨draft, 0, []⟩, by rw [hend], ?_, hrefuses [] _ _ _ replayFile_nil ?_⟩
  · obtain ⟨log, tail, _, hbytes, -, hlength, -⟩ := hfile partialInv_readsBack (by simp)
    rw [hend] at hlength
    exact ⟨log, tail, hbytes, hlength⟩
  · rw [hend]
    simp [ReplayIndex.endpoint, ReplayIndex.default]

end M1nd.Mcp
