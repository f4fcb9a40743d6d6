import M1nd.Mcp.AuthorityWal.Replay
import Mathlib.Logic.Function.Basic

namespace M1nd.Mcp

open M1nd.Control
open M1nd.Library
open M1nd.Library.Durable
open M1nd.Library.Framing
open M1nd.Library.Json (Bytes)

variable [Sha256]

-- One call of append: the record asked for, what the signer's answer depends on, and what
-- becomes of the durable steps.
structure AppendCall where
  draft : AuthorityWalRecordV1
  entropy : Nat
  fates : List Fate

-- A crash ends the handle: like a poisoned one, it takes no further call.
def performAppend (world : WalWorld) (call : AppendCall) : WalWorld :=
  match AuthorityWal.append call.entropy call.draft call.fates world with
  | (.crashed, _, after) => { after with wal := poison after.wal }
  | (_, _, after) => after

def appendAll (world : WalWorld) (calls : List AppendCall) : WalWorld :=
  calls.foldl performAppend world

-- What may follow the records of the index in the file: nothing as long as the handle is
-- usable, else a part of the one record whose fate is uncertain.
def InDoubt (world : WalWorld) (rest : Bytes) : Prop :=
  rest = [] ∨ (world.wal.poisoned = true ∧ ∃ record next reached,
    admitRecord world.wal.recordCrypto world.wal.replay record = .ok next ∧
    rest = (toVec record ++ [newline]).take reached)

structure Mirrors (crypto : AuthorityWalRecordCrypto) (world : WalWorld)
    (log : List AuthorityWalRecordV1) : Prop where
  verifier : world.wal.recordCrypto = crypto
  admitted : Admitted crypto log world.wal.replay
  bytes : ∃ rest, world.disk.log = logBytes log ++ rest ∧ InDoubt world rest

variable {crypto : AuthorityWalRecordCrypto} {world after : WalWorld}
  {log : List AuthorityWalRecordV1} {record : AuthorityWalRecordV1} {next : ReplayIndex}

theorem performAppend_step (world : WalWorld) (call : AppendCall) :
    ∃ o after, AuthorityWal.AppendStep world o after ∧
      ((o ≠ .crashed ∧ performAppend world call = after) ∨
        (o = .crashed ∧ performAppend world call = { after with wal := poison after.wal })) := by
  have halways : Always (AuthorityWal.append call.entropy call.draft) world
      (AuthorityWal.AppendStep world) := AuthorityWal.append_step
  have hstep := halways call.fates
  unfold Program.outcome Program.final at hstep
  unfold performAppend
  generalize AuthorityWal.append call.entropy call.draft call.fates world = run at hstep ⊢
  obtain ⟨o, rest, after⟩ := run
  refine ⟨o, after, hstep, ?_⟩
  cases o with
  | returned value => exact .inl ⟨by simp, rfl⟩
  | refused error => exact .inl ⟨by simp, rfl⟩
  | crashed => exact .inr ⟨rfl, rfl⟩

theorem Mirrors.rest_nil (h : Mirrors crypto world log) (hlive : world.wal.poisoned = false) :
    world.disk.log = logBytes log := by
  obtain ⟨rest, hbytes, rfl | ⟨hpoisoned, -⟩⟩ := h.bytes
  · rw [hbytes, List.append_nil]
  · rw [hlive] at hpoisoned
    cases hpoisoned

theorem Mirrors.idle (h : Mirrors crypto world log) (hlog : after.disk.log = world.disk.log)
    (hwal : after.wal = world.wal ∨ after.wal = poison world.wal) : Mirrors crypto after log := by
  obtain ⟨rest, hbytes, hrest⟩ := h.bytes
  have hreplay : after.wal.replay = world.wal.replay := by
    obtain hwal | hwal := hwal <;> simp [hwal, poison]
  have hcrypto : after.wal.recordCrypto = world.wal.recordCrypto := by
    obtain hwal | hwal := hwal <;> simp [hwal, poison]
  refine ⟨hcrypto.trans h.verifier, by rw [hreplay]; exact h.admitted, rest,
    hlog.trans hbytes, ?_⟩
  obtain rfl | ⟨hpoisoned, hdoubt⟩ := hrest
  · exact .inl rfl
  · refine .inr ⟨?_, by rw [hreplay, hcrypto]; exact hdoubt⟩
    obtain hwal | hwal := hwal
    · rw [hwal, hpoisoned]
    · rw [hwal]
      rfl

theorem Mirrors.inDoubt (h : Mirrors crypto world log) (hlive : world.wal.poisoned = false)
    {reached : Nat} (hadmitted : admitRecord world.wal.recordCrypto world.wal.replay record = .ok next)
    (hlog : after.disk.log = world.disk.log ++ (toVec record ++ [newline]).take reached)
    (hwal : after.wal = poison world.wal) : Mirrors crypto after log := by
  refine ⟨by rw [hwal]; exact h.verifier, by rw [hwal]; exact h.admitted,
    (toVec record ++ [newline]).take reached, by rw [hlog, h.rest_nil hlive], .inr ⟨?_, ?_⟩⟩
  · rw [hwal]
    rfl
  · rw [hwal]
    exact ⟨record, next, reached, hadmitted, rfl⟩

-- A call either adds one record to the file and to the index, or leaves the index alone
-- and at most poisons the handle.
theorem Mirrors.step (h : Mirrors crypto world log) (call : AppendCall) :
    (Mirrors crypto (performAppend world call) log ∧
      (performAppend world call).wal.replay = world.wal.replay) ∨
      ∃ record, Mirrors crypto (performAppend world call) (log ++ [record]) := by
  obtain ⟨o, after, hstep, hperform⟩ := performAppend_step world call
  have hcrashed : ∀ wal, (o = .crashed ∧ after.wal = wal ∨ after.wal = poison wal) →
      (performAppend world call).wal = poison wal := by
    rintro wal hwal
    obtain ⟨hlives, hperform⟩ | ⟨-, hperform⟩ := hperform
    · rw [hperform]
      exact hwal.resolve_left fun hcrash => hlives hcrash.1
    · rw [hperform]
      obtain ⟨-, hwal⟩ | hwal := hwal <;> simp [hwal, poison]
  have hdisk : (performAppend world call).disk = after.disk := by
    obtain ⟨-, hperform⟩ | ⟨-, hperform⟩ := hperform <;> rw [hperform]
  have hidle : (performAppend world call).disk.log = world.disk.log →
      (after.wal = world.wal ∨ after.wal = poison world.wal) →
      Mirrors crypto (performAppend world call) log ∧
        (performAppend world call).wal.replay = world.wal.replay := by
    intro hlog hwal
    have hwal' : (performAppend world call).wal = world.wal ∨
        (performAppend world call).wal = poison world.wal := by
      obtain ⟨-, hperform⟩ | ⟨-, hperform⟩ := hperform
      · rw [hperform]
        exact hwal
      · rw [hperform]
        obtain hwal | hwal := hwal <;> simp [hwal, poison]
    refine ⟨h.idle hlog hwal', ?_⟩
    obtain hwal' | hwal' := hwal' <;> simp [hwal', poison]
  cases hstep with
  | Poisoned hpoisoned => exact .inl (hidle (by rw [hdisk]) (.inl rfl))
  | Idle _ _ hlive hout hlog hheads hwal => exact .inl (hidle (by rw [hdisk, hlog]) hwal)
  | Torn _ _ record next reached hlive hadmitted hout hlog hheads hwal =>
      have hpoison := hcrashed _ hwal
      exact .inl ⟨h.inDoubt hlive hadmitted (by rw [hdisk, hlog]) hpoison, by rw [hpoison]; rfl⟩
  | Unconfirmed _ _ record next heads hlive hadmitted hout hlog hverified hheads hwal =>
      have hpoison := hcrashed _ hwal
      have hwhole : (performAppend world call).disk.log = world.disk.log ++
          (toVec record ++ [newline]).take (toVec record ++ [newline]).length := by
        rw [hdisk, hlog, List.take_length]
      exact .inl ⟨h.inDoubt hlive hadmitted hwhole hpoison, by rw [hpoison]; rfl⟩
  | Acknowledged _ record next heads witness hlive hadmitted hlog hverified hadvanced hwal =>
      obtain ⟨-, hperform⟩ | ⟨hcrash, -⟩ := hperform
      · refine .inr ⟨record, ?_⟩
        rw [hperform]
        refine ⟨by rw [hwal]; exact h.verifier, ?_, [], ?_, .inl rfl⟩
        · rw [hwal]
          rw [h.verifier] at hadmitted
          exact h.admitted.concat hadmitted
        · rw [hlog, h.rest_nil hlive, logBytes_concat, List.append_nil]
      · cases hcrash

-- The records a replay of the file finds: those of the index, and the record in doubt when
-- all of it is there.
theorem Mirrors.found (h : Mirrors crypto world log) :
    ∃ found tail index, world.disk.log = logBytes found ++ tail ∧ newline ∉ tail ∧
      Admitted crypto found index ∧
      (found = log ∨ (world.wal.poisoned = true ∧ ∃ record, found = log ++ [record] ∧
        admitRecord crypto world.wal.replay record = .ok index)) := by
  obtain ⟨rest, hbytes, rfl | ⟨hpoisoned, record, next, reached, hadmitted, rfl⟩⟩ := h.bytes
  · exact ⟨log, [], _, hbytes, by simp, h.admitted, .inl rfl⟩
  · obtain hwhole | hpart := take_frame (newline_not_mem_toVec record) reached
    · rw [hwhole] at hbytes
      rw [h.verifier] at hadmitted
      exact ⟨log ++ [record], [], next, by rw [hbytes, logBytes_concat, List.append_nil],
        by simp, h.admitted.concat hadmitted, .inr ⟨hpoisoned, record, rfl, hadmitted⟩⟩
    · exact ⟨log, _, _, hbytes, hpart, h.admitted, .inl rfl⟩

-- Every prefix of the recorded log is what the handle held after some of the calls.
theorem appendAll_mirrors (h : Mirrors crypto world []) (calls : List AppendCall) :
    ∃ log, Mirrors crypto (appendAll world calls) log ∧
      ∀ kept ≤ log.length, ∃ earlier ≤ calls.length,
        Admitted crypto (log.take kept) (appendAll world (calls.take earlier)).wal.replay := by
  refine (Runs.foldl_invariant (fun calls after => after = appendAll world calls ∧
    ∃ log, Mirrors crypto after log ∧ ∀ kept ≤ log.length, ∃ earlier ≤ calls.length,
      Admitted crypto (log.take kept) (appendAll world (calls.take earlier)).wal.replay)
    ⟨rfl, [], h, fun kept _ => ⟨0, Nat.le_refl _, by simpa [appendAll] using h.admitted⟩⟩
    ?_ calls).2
  rintro calls call after ⟨rfl, log, hmirrors, hhistory⟩
  have hperformed :
      performAppend (appendAll world calls) call = appendAll world (calls ++ [call]) := by
    simp [appendAll]
  have hpast : ∀ kept ≤ log.length, ∃ earlier ≤ (calls ++ [call]).length,
      Admitted crypto (log.take kept)
        (appendAll world ((calls ++ [call]).take earlier)).wal.replay := by
    intro kept hkept
    obtain ⟨earlier, hearlier, hadmitted⟩ := hhistory kept hkept
    refine ⟨earlier, by simp; omega, ?_⟩
    rw [List.take_append_of_le_length hearlier]
    exact hadmitted
  refine ⟨hperformed, ?_⟩
  obtain ⟨hsame, -⟩ | ⟨record, hmore⟩ := hmirrors.step call
  · exact ⟨log, hsame, hpast⟩
  · refine ⟨log ++ [record], hmore, fun kept hkept => ?_⟩
    rw [List.length_append, List.length_singleton] at hkept
    obtain hkept | rfl := Nat.le_succ_iff.mp hkept
    · rw [List.take_append_of_le_length hkept]
      exact hpast kept hkept
    · refine ⟨(calls ++ [call]).length, Nat.le_refl _, ?_⟩
      rw [List.take_length, List.take_of_length_le (by simp), ← hperformed]
      exact hmore.admitted

variable {fromSlice : RecordDecoder} {backend : Bool} {disk : WalDisk} {fates : List Fate}
  {wal : AuthorityWal}

theorem opened_mirrors (hempty : disk.log = [])
    (hopen : (AuthorityWal.openInternal fromSlice crypto backend).outcome fates disk =
      .returned wal) :
    Mirrors crypto
      ⟨(AuthorityWal.openInternal fromSlice crypto backend).final fates disk, wal⟩ [] := by
  have halways : Always (AuthorityWal.openInternal fromSlice crypto backend) disk
      (OpenStep fromSlice crypto backend disk) := openInternal_step
  have hstep := halways fates
  rw [hopen] at hstep
  generalize (AuthorityWal.openInternal fromSlice crypto backend).final fates disk = after at hstep ⊢
  cases hstep with
  | HeadRefused _ _ _ _ _ _ hout => exact absurd rfl (hout wal)
  | Untruncated _ _ _ _ _ _ hout => exact absurd rfl (hout wal)
  | Opened _ index report complete hreplay hlog hheads =>
      rw [hempty, replayFile_nil] at hreplay
      obtain ⟨rfl, rfl, rfl⟩ : ReplayIndex.default = index ∧ _ = report ∧ 0 = complete := by
        simpa using hreplay
      exact ⟨rfl, rfl, [], by simp [hlog, hempty, logBytes], .inl rfl⟩

section Landing

open AuthorityWal

-- A handle on an empty journal, and the record it makes of a draft it can append.
def fresh (crypto : AuthorityWalRecordCrypto) : AuthorityWal :=
  opened crypto false ReplayIndex.default ⟨0, false, 0⟩

structure Appendable (crypto : AuthorityWalRecordCrypto) (draft record : AuthorityWalRecordV1)
    (next : ReplayIndex) : Prop where
  signed : (fresh crypto).signed 0 draft = .ok record
  terminal : (fresh crypto).terminalReplay record = .ok none
  apply : (fresh crypto).replay.applyRecord record = .ok next

theorem landing_appendable (hsigns : Signs crypto 0) :
    ∃ draft record next, Appendable crypto draft record next := by
  obtain ⟨_, htransaction⟩ := landTransaction_validates
  have hfresh : (fresh crypto).replay = ReplayIndex.default := rfl
  obtain ⟨record, next, hsigned, hterminal, happly⟩ := prepare_admissible hsigns htransaction hfresh
    1600 "owner-1" "owner-key-1" "opaque-test-algorithm" ⟨"opaque-record-signature"⟩
  exact ⟨_, record, next, hsigned, hterminal, happly⟩

variable {draft : AuthorityWalRecordV1} {reached : Nat}

theorem Appendable.appendAll_done (h : Appendable crypto draft record next) :
    ∃ heads, appendAll ⟨⟨[], ∅⟩, fresh crypto⟩ [⟨draft, 0, []⟩] =
      ⟨⟨toVec record ++ [newline], heads⟩, install next (fresh crypto)⟩ := by
  have hcurrent : HeadCurrent ⟨⟨[], ∅⟩, fresh crypto⟩ := fun _ hhead => by cases hhead
  obtain ⟨heads, witness, hrun⟩ := append_ends rfl hcurrent rfl h.signed h.terminal h.apply
  refine ⟨heads, ?_⟩
  change performAppend _ _ = _
  unfold performAppend
  rw [hrun]
  rfl

theorem Appendable.appendAll_failed (h : Appendable crypto draft record next) :
    appendAll ⟨⟨[], ∅⟩, fresh crypto⟩ [⟨draft, 0, [.failed reached]⟩] =
      ⟨⟨(toVec record ++ [newline]).take reached, ∅⟩, poison (fresh crypto)⟩ := by
  let world : WalWorld := ⟨⟨[], ∅⟩, fresh crypto⟩
  have hlive : world.wal.poisoned = false := rfl
  have hnone : world.wal.protectedHead = none := rfl
  have hrun := append_ends_failed hlive hnone h.signed h.terminal h.apply reached
  change performAppend world _ = _
  unfold performAppend
  rw [hrun]
  rfl

theorem Appendable.replayFile_one (h : Appendable crypto draft record next)
    (hdecode : ReadsBack fromSlice) :
    replayFile fromSlice crypto (toVec record ++ [newline]) =
      .ok (next, ⟨1, false, 0⟩, (toVec record ++ [newline]).length) := by
  have hempty : Admitted crypto [] ReplayIndex.default := rfl
  have hadmitted : Admitted crypto [record] next :=
    hempty.concat (signed_admitted h.signed h.apply)
  have htail : newline ∉ ([] : Bytes) := by simp
  simpa [logBytes] using replayFile_logBytes hdecode hadmitted htail

omit [Sha256] in
theorem partialInv_readsBack : ReadsBack (Function.partialInv toVec) := by
  refine fun record => Function.partialInv_left ?_ record
  exact Json.write_injective.comp AuthorityWalRecordV1.toValue_injective

end Landing

-- Replaying the journal file refines the index of the handle that wrote it.
theorem append_run_recovers (hdecode : ReadsBack fromSlice) (hempty : disk.log = [])
    (hopen : (AuthorityWal.openInternal fromSlice crypto backend).outcome fates disk =
      .returned wal) (calls : List AppendCall) :
    let start : WalWorld :=
      ⟨(AuthorityWal.openInternal fromSlice crypto backend).final fates disk, wal⟩
    let world := appendAll start calls
    (world.wal.poisoned = false →
      replayFile fromSlice crypto world.disk.log =
        .ok (world.wal.replay, ⟨world.wal.replay.recordCount, false, 0⟩,
          world.disk.log.length)) ∧
    ∀ count ≤ world.disk.log.length, ∃ index torn,
      torn = count - completeLen newline (world.disk.log.take count) ∧
      replayFile fromSlice crypto (world.disk.log.take count) =
        .ok (index, ⟨index.recordCount, torn ≠ 0, torn⟩, count - torn) ∧
      ((∃ earlier ≤ calls.length, index = (appendAll start (calls.take earlier)).wal.replay) ∨
        (world.wal.poisoned = true ∧
          ∃ record, admitRecord crypto world.wal.replay record = .ok index)) := by
  intro start world
  obtain ⟨log, hmirrors, hhistory⟩ := appendAll_mirrors (opened_mirrors hempty hopen) calls
  constructor
  · intro hlive
    have hbytes := hmirrors.rest_nil hlive
    have htail : newline ∉ ([] : Bytes) := by simp
    have hreplay := replayFile_logBytes hdecode hmirrors.admitted htail
    rw [List.append_nil, ← hbytes, ← hmirrors.admitted.recordCount] at hreplay
    simpa using hreplay
  · intro count hcount
    obtain ⟨found, tail, last, hbytes, htail, hlast, hfound⟩ := hmirrors.found
    obtain ⟨kept, rest, index, hkept, hrest, hcut, hindex, hreplay⟩ :=
      replayFile_take hdecode hlast htail count
    rw [← hbytes] at hcut hreplay
    have hcomplete : completeLen newline (world.disk.log.take count) =
        (logBytes (found.take kept)).length := by
      rw [hcut]
      exact completeLen_frames_append hrest
    have hlength : (logBytes (found.take kept)).length + rest.length = count := by
      rw [← List.length_append, ← hcut, List.length_take, Nat.min_eq_left hcount]
    refine ⟨index, rest.length, by rw [hcomplete]; omega, ?_, ?_⟩
    · rw [hreplay, hindex.recordCount, List.length_take, Nat.min_eq_left hkept]
      congr 3
      omega
    · obtain rfl | ⟨hpoisoned, record, rfl, hadmitted⟩ := hfound
      · obtain ⟨earlier, hearlier, hadmitted⟩ := hhistory kept hkept
        exact .inl ⟨earlier, hearlier, hindex.unique hadmitted⟩
      · rw [List.length_append, List.length_singleton] at hkept
        obtain hkept | rfl := Nat.le_succ_iff.mp hkept
        · obtain ⟨earlier, hearlier, hadmitted⟩ := hhistory kept hkept
          rw [List.take_append_of_le_length hkept] at hindex
          exact .inl ⟨earlier, hearlier, hindex.unique hadmitted⟩
        · rw [List.take_of_length_le (by simp)] at hindex
          obtain rfl := hindex.unique hlast
          exact .inr ⟨hpoisoned, record, hadmitted⟩

omit [Sha256] in
theorem landing_recovers :
    letI : Sha256 := standardSha256
    ∃ (crypto : AuthorityWalRecordCrypto) (call : AppendCall),
      let world := appendAll ⟨⟨[], ∅⟩, fresh crypto⟩ [call]
      world.wal.replay.recordCount = 1 ∧
        replayFile (Function.partialInv toVec) crypto world.disk.log =
          .ok (world.wal.replay, ⟨world.wal.replay.recordCount, false, 0⟩,
            world.disk.log.length) := by
  let : Sha256 := standardSha256
  have hsigns := softwareTest_signs [0]
  generalize softwareTestAuthorityWalRecordCrypto [0] = crypto at hsigns
  obtain ⟨draft, record, next, happendable⟩ := landing_appendable (hsigns 0)
  have hopen : Ends (AuthorityWal.openInternal (Function.partialInv toVec) crypto false) [] ⟨[], ∅⟩
      (.returned (fresh crypto)) [] ⟨[], ∅⟩ := AuthorityWal.openInternal_ends
  obtain ⟨heads, hworld⟩ := happendable.appendAll_done
  obtain ⟨hrecovers, -⟩ := append_run_recovers partialInv_readsBack rfl hopen.outcome_eq
    [⟨draft, 0, []⟩]
  rw [hopen.final_eq] at hrecovers
  refine ⟨crypto, ⟨draft, 0, []⟩, ?_, hrecovers ?_⟩
  · rw [hworld]
    exact (admitRecord_closes (AuthorityWal.signed_admitted happendable.signed happendable.apply)).1
  · rw [hworld]
    rfl

-- When a write fails after all bytes were there, the file is one record ahead of the index.
omit [Sha256] in
theorem failed_append_diverges :
    letI : Sha256 := standardSha256
    ¬ ∀ (fromSlice : RecordDecoder) (crypto : AuthorityWalRecordCrypto) (wal : AuthorityWal)
      (calls : List AppendCall), ReadsBack fromSlice → (∀ entropy, Signs crypto entropy) →
      (AuthorityWal.openInternal fromSlice crypto false).outcome [] ⟨[], ∅⟩ = .returned wal →
      let start : WalWorld := ⟨(AuthorityWal.openInternal fromSlice crypto false).final [] ⟨[], ∅⟩, wal⟩
      let world := appendAll start calls
      ∃ report complete, replayFile fromSlice crypto world.disk.log =
        .ok (world.wal.replay, report, complete) := by
  let : Sha256 := standardSha256
  intro hclaim
  have hsigns := softwareTest_signs [0]
  generalize softwareTestAuthorityWalRecordCrypto [0] = crypto at hsigns
  obtain ⟨draft, record, next, happendable⟩ := landing_appendable (hsigns 0)
  have hopen : Ends (AuthorityWal.openInternal (Function.partialInv toVec) crypto false) [] ⟨[], ∅⟩
      (.returned (fresh crypto)) [] ⟨[], ∅⟩ := AuthorityWal.openInternal_ends
  obtain ⟨report, complete, hreplay⟩ := hclaim _ _ _
    [⟨draft, 0, [.failed (toVec record ++ [newline]).length]⟩] partialInv_readsBack hsigns
    hopen.outcome_eq
  rw [hopen.final_eq] at hreplay
  have hfile : replayFile (Function.partialInv toVec) crypto (toVec record ++ [newline]) =
      .ok (ReplayIndex.default, report, complete) := by
    have hworld : appendAll ⟨⟨[], ∅⟩, fresh crypto⟩
        [⟨draft, 0, [.failed (toVec record ++ [newline]).length]⟩] = _ :=
      happendable.appendAll_failed
    rw [List.take_length] at hworld
    rw [hworld] at hreplay
    exact hreplay
  rw [happendable.replayFile_one partialInv_readsBack] at hfile
  have hsame : next = ReplayIndex.default := congrArg Prod.fst (Except.ok.inj hfile)
  have hcount := (admitRecord_closes (AuthorityWal.signed_admitted happendable.signed happendable.apply)).1
  rw [hsame] at hcount
  exact absurd hcount (Nat.succ_ne_self 0).symm

end M1nd.Mcp
