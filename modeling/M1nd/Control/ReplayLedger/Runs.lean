import M1nd.Control.ReplayLedger.Theorems

namespace M1nd.Control

open M1nd.Library
open M1nd.Library.Checks
open M1nd.Library.Durable
open M1nd.Library.Framing
open M1nd.Library.Json (Bytes)
open PersistentReplayLedger

-- What a handle remembers of the file.
def PersistentReplayLedger.replayed (ledger : PersistentReplayLedger) : ReplayedRecords where
  consumedScopes := ledger.consumedScopes
  expectedSequence := ledger.nextSequence
  tailDigest := ledger.tailDigest

variable [Sha256]

-- The file holds the records of the log, and at most a part of one more.
structure FiledLog (disk : LedgerDisk) (log : List ReplayLedgerRecordV1) (state : ReplayedRecords) :
    Prop where
  plain : disk.isSymlink = false
  ledgered : Ledgered log state
  bytes : ∃ tail, disk.bytes = ledgerBytes log ++ tail ∧ lineFeed ∉ tail

-- A usable handle remembers exactly what the file holds.
structure LedgerInStep (world : LedgerWorld) (log : List ReplayLedgerRecordV1)
    (state : ReplayedRecords) : Prop where
  bytes : world.disk.bytes = ledgerBytes log
  replayed : world.ledger.replayed = state
  knownLen : world.ledger.knownLen = world.disk.bytes.length

structure HeldLedger (world : LedgerWorld) (log : List ReplayLedgerRecordV1)
    (state : ReplayedRecords) : Prop where
  filed : FiledLog world.disk log state
  inStep : world.ledger.poisoned = false → LedgerInStep world log state

variable {world : LedgerWorld} {disk : LedgerDisk} {log : List ReplayLedgerRecordV1}
  {state : ReplayedRecords} {record : ReplayLedgerRecordV1} {claim : ReplayClaimV1}
  {nowMs maxFutureClockSkewMs : Nat}

-- A part of the next line is the whole record or a torn tail.
theorem FiledLog.written (h : Ledgered log state) (hbytes : disk.bytes = ledgerBytes log)
    (hadmits : state.Admits record) (reached : Nat) {other : LedgerDisk}
    (hplain : other.isSymlink = false)
    (hother : other.bytes = disk.bytes ++ (record.toVec ++ [lineFeed]).take reached) :
    FiledLog other log state ∨ FiledLog other (log ++ [record]) (state.after record) := by
  rw [hbytes] at hother
  obtain hwhole | hpart := take_frame record.lineFeed_not_mem_toVec reached
  · refine .inr ⟨hplain, h.concat hadmits, [], ?_, by simp⟩
    rw [hother, ledgerBytes_concat, List.append_nil, hwhole]
  · exact .inl ⟨hplain, h, _, hother, hpart⟩

section Consume

omit [Sha256] in
theorem poisonLedgerOnError_always {program : Program LedgerWorld ReplayLedgerError Unit}
    {post : Outcome ReplayLedgerError Unit → LedgerWorld → Prop}
    (h : Always program world fun o after =>
      match o with
      | .returned value => post (.returned value) after
      | .refused error => post (.refused error) { after with ledger := poison after.ledger }
      | .crashed => post .crashed after) :
    Always (PersistentReplayLedger.poisonOnError program) world post := by
  refine .orElse (h.mono ?_)
  rintro (value | error | _) after hpost
  · exact hpost
  · exact .bind (.modify (.refuse hpost))
  · exact hpost

-- The record of a fresh claim is the one that replay asks for next.
theorem nextRecord_admits (ledger : PersistentReplayLedger) (hclaim : claim.validateStatic = .ok ())
    (hfresh : claim.scopeDigest ∉ ledger.consumedScopes) :
    ledger.replayed.Admits (ledger.nextRecord claim) where
  schema := rfl
  sequence := rfl
  previous := rfl
  claim := hclaim
  claimDigest := rfl
  scopeDigest := rfl
  recordDigest := rfl
  fresh := hfresh

omit [Sha256] in
theorem validateAt_static (hclaim : claim.validateAt nowMs maxFutureClockSkewMs = .ok ()) :
    claim.validateStatic = .ok () := by
  simp only [ReplayClaimV1.validateAt, bind_unit_eq_ok] at hclaim
  exact hclaim.1

-- What one call does to the ledger: nothing, or one more record. When the call returned, the
-- record is there and the handle is usable; when it was refused or crashed after it began to
-- write, the record may be there all the same, with a handle that takes no more.
structure Consumed (claim : ReplayClaimV1) (log : List ReplayLedgerRecordV1)
    (state : ReplayedRecords) (o : Outcome ReplayLedgerError ReplayReceiptV1) (after : LedgerWorld)
    (log' : List ReplayLedgerRecordV1) (state' : ReplayedRecords) : Prop where
  grown : log <+: log'
  filed : FiledLog after.disk log' state'
  held : o ≠ .crashed → HeldLedger after log' state'
  acknowledged : ∀ receipt, o = .returned receipt →
    claim.scopeDigest ∉ state.consumedScopes ∧ claim.scopeDigest ∈ state'.consumedScopes

theorem Consumed.idle (h : HeldLedger world log state)
    {o : Outcome ReplayLedgerError ReplayReceiptV1} (hout : ∀ receipt, o ≠ .returned receipt) :
    Consumed claim log state o world log state :=
  ⟨List.prefix_refl _, h.filed, fun _ => h, fun receipt hreturned => absurd hreturned (hout receipt)⟩

-- A fault while the record is written.
theorem Consumed.torn (h : FiledLog world.disk log state) (hstep : LedgerInStep world log state)
    (hadmits : state.Admits record) {after : LedgerWorld} {reached : Nat}
    {o : Outcome ReplayLedgerError ReplayReceiptV1} (hout : ∀ receipt, o ≠ .returned receipt)
    (hplain : after.disk.isSymlink = world.disk.isSymlink)
    (hbytes : after.disk.bytes = world.disk.bytes ++ (record.toVec ++ [lineFeed]).take reached)
    (hpoisoned : o ≠ .crashed → after.ledger.poisoned = true) :
    ∃ log' state', Consumed claim log state o after log' state' := by
  have hheld : ∀ {log' : List ReplayLedgerRecordV1} {state' : ReplayedRecords},
      FiledLog after.disk log' state' → o ≠ .crashed → HeldLedger after log' state' := by
    intro log' state' hfiled hlive
    refine ⟨hfiled, fun husable => ?_⟩
    rw [hpoisoned hlive] at husable
    cases husable
  have hack : ∀ receipt, o = .returned receipt → claim.scopeDigest ∉ state.consumedScopes ∧ False :=
    fun receipt hreturned => absurd hreturned (hout receipt)
  obtain hfiled | hfiled := FiledLog.written h.ledgered hstep.bytes hadmits reached
    (hplain.trans h.plain) hbytes
  · exact ⟨log, state, List.prefix_refl _, hfiled, hheld hfiled,
      fun receipt hreturned => (hack receipt hreturned).2.elim⟩
  · exact ⟨log ++ [record], state.after record, List.prefix_append _ _, hfiled, hheld hfiled,
      fun receipt hreturned => (hack receipt hreturned).2.elim⟩

theorem Consumed.appended (h : FiledLog world.disk log state) (hstep : LedgerInStep world log state)
    (hadmits : state.Admits record) (hscope : record.scopeDigest = claim.scopeDigest)
    (receipt : ReplayReceiptV1) :
    Consumed claim log state (.returned receipt)
      { world with
        disk.file := some (world.disk.bytes ++ (record.toVec ++ [lineFeed]))
        ledger := install record world.ledger }
      (log ++ [record]) (state.after record) := by
  have hbytes : world.disk.bytes ++ (record.toVec ++ [lineFeed]) = ledgerBytes (log ++ [record]) := by
    rw [hstep.bytes, ledgerBytes_concat]
  have hfiled : FiledLog
      { world.disk with file := some (world.disk.bytes ++ (record.toVec ++ [lineFeed])) }
      (log ++ [record]) (state.after record) :=
    ⟨h.plain, h.ledgered.concat hadmits, [], hbytes.trans (List.append_nil _).symm, List.not_mem_nil⟩
  have hlen : world.ledger.knownLen = world.disk.bytes.length := hstep.knownLen
  refine ⟨List.prefix_append _ _, hfiled, fun _ => ⟨hfiled, fun _ => ⟨hbytes, ?_, ?_⟩⟩,
    fun _ _ => ⟨hscope ▸ hadmits.fresh, ?_⟩⟩
  · rw [← hstep.replayed]
    rfl
  · change world.ledger.knownLen + (record.toVec ++ [lineFeed]).length =
      (world.disk.bytes ++ (record.toVec ++ [lineFeed])).length
    simp [hlen]
  · rw [← hscope]
    exact Std.ExtTreeSet.mem_insert_self

theorem consume_always (claim : ReplayClaimV1) (nowMs maxFutureClockSkewMs : Nat)
    (h : HeldLedger world log state) :
    Always (consume claim nowMs maxFutureClockSkewMs) world fun o after =>
      ∃ log' state', Consumed claim log state o after log' state' := by
  have hidle : ∀ {o : Outcome ReplayLedgerError ReplayReceiptV1} {after : LedgerWorld},
      (∀ receipt, o ≠ .returned receipt) → HeldLedger after log state →
      ∃ log' state', Consumed claim log state o after log' state' :=
    fun hout hafter => ⟨log, state, .idle hafter hout⟩
  refine .bind (.get (.bind (.check ?_ fun error _ => hidle (by simp) h)))
  rintro ⟨⟩ hlive
  have hlive : world.ledger.poisoned = false := by simpa using hlive
  have hstep := h.inStep hlive
  refine .bind (.check ?_ fun error _ => hidle (by simp) h)
  rintro ⟨⟩ hclaim
  refine .bind (.check ?_ fun error _ => hidle (by simp) h)
  rintro ⟨⟩ hfresh
  have hfresh : claim.scopeDigest ∉ world.ledger.consumedScopes := by simpa using hfresh
  refine .bind (.step ?_ (fun _ => hidle (by simp) h) fun _ => hidle (by simp) h)
  have hlength : Always checkLength world fun o after => .returned () = o ∧ world = after := by
    refine .bind (.get ?_)
    dsimp only
    rw [if_neg (by simp [hstep.knownLen])]
    exact .pure ⟨rfl, rfl⟩
  refine .bind (hlength.mono ?_)
  rintro _ _ ⟨rfl, rfl⟩
  have hadmits := nextRecord_admits world.ledger (validateAt_static hclaim) hfresh
  rw [hstep.replayed] at hadmits
  dsimp only
  generalize hrecord : nextRecord claim world.ledger = record at hadmits ⊢
  have hscope : record.scopeDigest = claim.scopeDigest := by rw [← hrecord]; rfl
  refine .bind (poisonLedgerOnError_always (.step ?_ (fun reached => ?_) fun reached => ?_))
  · have hlen : world.ledger.knownLen = world.disk.bytes.length := hstep.knownLen
    have hpart : ∀ reached, (syncRecord.part reached
        ((appendRecord (record.toVec ++ [lineFeed])).whole world)).disk.bytes =
        world.disk.bytes ++ (record.toVec ++ [lineFeed]).take reached := by
      intro reached
      simp [syncRecord, appendRecord, LedgerDisk.bytes, hlen, List.take_length_add_append]
    refine .bind (poisonLedgerOnError_always (.step ?_ (fun reached => ?_) fun reached => ?_))
    · refine .bind (.modify (.pure ⟨log ++ [record], state.after record, ?_⟩))
      exact .appended h.filed hstep hadmits hscope _
    · exact Consumed.torn h.filed hstep hadmits (by simp) rfl (hpart reached) fun _ => rfl
    · exact Consumed.torn h.filed hstep hadmits (by simp) rfl (hpart reached) fun h => absurd rfl h
  · exact Consumed.torn h.filed hstep hadmits (by simp) rfl rfl fun _ => rfl
  · exact Consumed.torn h.filed hstep hadmits (by simp) rfl rfl fun h => absurd rfl h

end Consume

section Open

variable {fromSlice : ReplayRecordDecoder}

omit [Sha256] in
theorem createLedger_always :
    Always createLedger disk fun _ after =>
      after.isSymlink = disk.isSymlink ∧ after.bytes = disk.bytes := by
  have hpart : ∀ reached, (createFile.part reached disk).isSymlink = disk.isSymlink ∧
      (createFile.part reached disk).bytes = disk.bytes := by
    intro reached
    simp only [createFile]
    split <;> exact ⟨rfl, rfl⟩
  refine .bind (.get (.bind (.step ?_ hpart hpart)))
  dsimp only
  split
  · have hsame : (createFile.whole disk).isSymlink = disk.isSymlink ∧
        (createFile.whole disk).bytes = disk.bytes := ⟨rfl, rfl⟩
    exact .bind (.step (.step hsame (fun _ => hsame) fun _ => hsame) (fun _ => hsame) fun _ => hsame)
  · exact .pure ⟨rfl, rfl⟩

theorem openLedger_always (fromSlice : ReplayRecordDecoder) (disk : LedgerDisk) :
    Always (openLedger fromSlice) disk fun o after =>
      (after.isSymlink = disk.isSymlink ∧ after.bytes = disk.bytes) ∧
      ∀ ledger, o = .returned ledger →
        replayRecords fromSlice disk.bytes = .ok ledger.replayed ∧
          ledger.knownLen = disk.bytes.length := by
  refine .bind (.get (.bind (.check ?_ fun _ _ => ⟨⟨rfl, rfl⟩, nofun⟩)))
  rintro ⟨⟩ -
  refine .bind (.step (.bind (createLedger_always.mono ?_)) (fun _ => ⟨⟨rfl, rfl⟩, nofun⟩)
    fun _ => ⟨⟨rfl, rfl⟩, nofun⟩)
  rintro (_ | _ | _) after hsame
  case refused | crashed => exact ⟨hsame, nofun⟩
  refine .bind (.step (.bind (.step ?_ (fun _ => ⟨hsame, nofun⟩) fun _ => ⟨hsame, nofun⟩))
    (fun _ => ⟨hsame, nofun⟩) fun _ => ⟨hsame, nofun⟩)
  refine .bind (.get (.bind (.check ?_ fun _ _ => ⟨hsame, nofun⟩)))
  intro replayed hreplayed
  refine .pure ⟨hsame, ?_⟩
  rintro _ ⟨rfl⟩
  exact ⟨hsame.2 ▸ hreplayed, congrArg List.length hsame.2⟩

omit [Sha256] in
theorem FiledLog.lines_eq {tail : Bytes} {log' : List ReplayLedgerRecordV1} (htail : lineFeed ∉ tail)
    (h : ledgerBytes log ++ tail = ledgerBytes log') : log = log' := by
  have hlines : log.map ReplayLedgerRecordV1.toVec ++ [tail] =
      log'.map ReplayLedgerRecordV1.toVec ++ [[]] := by
    rw [← splitOn_frames_append (lines_clean log) htail,
      ← splitOn_frames_append (lines_clean log') List.not_mem_nil, List.append_nil]
    exact congrArg _ h
  obtain ⟨hmap, -⟩ := List.append_inj' hlines rfl
  exact ReplayLedgerRecordV1.toVec_injective.list_map hmap

theorem FiledLog.eq_of_bytes (h : FiledLog disk log state) {log' : List ReplayLedgerRecordV1}
    (hbytes : disk.bytes = ledgerBytes log') : log = log' := by
  obtain ⟨tail, hparts, htail⟩ := h.bytes
  exact lines_eq htail (hparts.symm.trans hbytes)

-- A file is opened only when it holds whole records, and then to what they leave.
theorem FiledLog.reopened (h : FiledLog disk log state) {replayed : ReplayedRecords}
    (hreplayed : replayRecords fromSlice disk.bytes = .ok replayed) :
    disk.bytes = ledgerBytes log ∧ replayed = state := by
  obtain ⟨log', hlog', -, hledgered⟩ := replayRecords_eq_ok.mp hreplayed
  obtain rfl : log = log' := h.eq_of_bytes hlog'
  exact ⟨hlog', Except.ok.inj (hledgered.symm.trans h.ledgered)⟩

end Open

-- What holds of a ledger after any run: every acknowledged claim is one of its records, and
-- no two of them have one scope.
structure LedgerHolds (history : LedgerHistory) (log : List ReplayLedgerRecordV1)
    (state : ReplayedRecords) : Prop where
  filed : FiledLog history.disk log state
  held : ∀ ledger, history.ledger = some ledger → HeldLedger ⟨history.disk, ledger⟩ log state
  consumed : ∀ claim ∈ history.acknowledged, claim.scopeDigest ∈ state.consumedScopes
  once : (history.acknowledged.map ReplayClaimV1.scope).Nodup

namespace LedgerHistory

variable {fromSlice : ReplayRecordDecoder} {history : LedgerHistory}

theorem start_holds : LedgerHolds start [] .none where
  filed := ⟨rfl, .nil, [], rfl, List.not_mem_nil⟩
  held := nofun
  consumed := by simp [acknowledged, start]
  once := by simp [acknowledged, start]

theorem open_holds (h : LedgerHolds history log state) (fates : List Fate) :
    LedgerHolds (history.apply fromSlice (.Open fates)) log state := by
  have hopen := openLedger_always fromSlice history.disk fates
  simp only [Program.outcome, Program.final] at hopen
  simp only [apply]
  generalize openLedger fromSlice fates history.disk = run at hopen ⊢
  obtain ⟨outcome, rest, disk⟩ := run
  obtain ⟨⟨hplain, hbytes⟩, hreturned⟩ := hopen
  have hfiled : FiledLog disk log state :=
    ⟨hplain.trans h.filed.plain, h.filed.ledgered, by rw [hbytes]; exact h.filed.bytes⟩
  cases outcome with
  | returned ledger =>
      obtain ⟨hreplayed, hlen⟩ := hreturned ledger rfl
      obtain ⟨hwhole, hstate⟩ := h.filed.reopened hreplayed
      refine ⟨hfiled, ?_, h.consumed, h.once⟩
      rintro _ ⟨rfl⟩
      exact ⟨hfiled, fun _ => ⟨hbytes.trans hwhole, hstate, hlen.trans (congrArg _ hbytes.symm)⟩⟩
  | refused error => exact ⟨hfiled, (by simp), h.consumed, h.once⟩
  | crashed => exact ⟨hfiled, (by simp), h.consumed, h.once⟩

omit [Sha256] in
theorem acknowledged_returned {receipt : ReplayReceiptV1} (ledger : Option PersistentReplayLedger) :
    acknowledged ⟨disk, ledger, history.answers ++ [(claim, .returned receipt)]⟩ =
      history.acknowledged ++ [claim] := by
  simp [acknowledged]

omit [Sha256] in
theorem acknowledged_other {outcome : Outcome ReplayLedgerError ReplayReceiptV1}
    (hout : ∀ receipt, outcome ≠ .returned receipt) (ledger : Option PersistentReplayLedger) :
    acknowledged ⟨disk, ledger, history.answers ++ [(claim, outcome)]⟩ = history.acknowledged := by
  cases outcome with
  | returned receipt => exact absurd rfl (hout receipt)
  | refused | crashed => simp [acknowledged]

-- The answer to a call joins the others: a claim that is acknowledged has a scope that no
-- record had.
theorem answered_holds (h : LedgerHolds history log state)
    {outcome : Outcome ReplayLedgerError ReplayReceiptV1} {after : LedgerWorld}
    {log' : List ReplayLedgerRecordV1} {state' : ReplayedRecords}
    (hconsumed : Consumed claim log state outcome after log' state')
    {ledger : Option PersistentReplayLedger}
    (hledger : ledger = some after.ledger ∧ outcome ≠ .crashed ∨ ledger = none) :
    LedgerHolds ⟨after.disk, ledger, history.answers ++ [(claim, outcome)]⟩ log' state' := by
  have hmore : ∀ scopeDigest ∈ state.consumedScopes, scopeDigest ∈ state'.consumedScopes := by
    intro scopeDigest hmem
    obtain ⟨record, hrecord, hscope⟩ := (h.filed.ledgered.mem_consumedScopes scopeDigest).mp hmem
    exact (hconsumed.filed.ledgered.mem_consumedScopes scopeDigest).mpr
      ⟨record, hconsumed.grown.subset hrecord, hscope⟩
  have hheld : ∀ held, ledger = some held → HeldLedger ⟨after.disk, held⟩ log' state' := by
    rintro held rfl
    obtain ⟨hsome, hlive⟩ | hnone := hledger
    · obtain rfl := Option.some.inj hsome
      exact hconsumed.held hlive
    · cases hnone
  have hold : ∀ old ∈ history.acknowledged, old.scopeDigest ∈ state'.consumedScopes :=
    fun old hmem => hmore _ (h.consumed old hmem)
  by_cases hout : ∃ receipt, outcome = .returned receipt
  · obtain ⟨receipt, rfl⟩ := hout
    obtain ⟨hfresh, hnow⟩ := hconsumed.acknowledged receipt rfl
    refine ⟨hconsumed.filed, hheld, ?_, ?_⟩ <;> rw [acknowledged_returned]
    · exact List.forall_mem_append.mpr ⟨hold, List.forall_mem_singleton.mpr hnow⟩
    · rw [List.map_append, List.map_singleton]
      refine List.nodup_append.mpr ⟨h.once, List.nodup_singleton _, ?_⟩
      rintro scope hscope _ hlast rfl
      obtain ⟨old, hmem, hsame⟩ := List.mem_map.mp hscope
      refine hfresh ?_
      have hdigest : claim.scopeDigest = old.scopeDigest := by
        rw [ReplayClaimV1.scopeDigest, ReplayClaimV1.scopeDigest, hsame, List.mem_singleton.mp hlast]
      exact hdigest ▸ h.consumed old hmem
  · have hout : ∀ receipt, outcome ≠ .returned receipt := fun receipt hreturned =>
      hout ⟨receipt, hreturned⟩
    refine ⟨hconsumed.filed, hheld, ?_, ?_⟩ <;> rw [acknowledged_other hout]
    · exact hold
    · exact h.once

theorem apply_holds (h : LedgerHolds history log state) (event : LedgerEvent) :
    ∃ log' state', LedgerHolds (history.apply fromSlice event) log' state' := by
  cases event with
  | Open fates => exact ⟨log, state, open_holds h fates⟩
  | Consume claim nowMs maxFutureClockSkewMs fates =>
      simp only [apply]
      cases hledger : history.ledger with
      | none => exact ⟨log, state, h⟩
      | some ledger =>
          have hconsume := consume_always claim nowMs maxFutureClockSkewMs (h.held ledger hledger) fates
          simp only [Program.outcome, Program.final] at hconsume
          dsimp only
          generalize PersistentReplayLedger.consume claim nowMs maxFutureClockSkewMs fates
            ⟨history.disk, ledger⟩ = run at hconsume ⊢
          obtain ⟨outcome, rest, after⟩ := run
          obtain ⟨log', state', hconsumed⟩ := hconsume
          refine ⟨log', state', ?_⟩
          cases outcome with
          | returned receipt => exact answered_holds h hconsumed (.inl ⟨rfl, (by simp)⟩)
          | refused error => exact answered_holds h hconsumed (.inl ⟨rfl, (by simp)⟩)
          | crashed => exact answered_holds h hconsumed (.inr rfl)

theorem run_holds (fromSlice : ReplayRecordDecoder) (events : List LedgerEvent) :
    ∃ log state, LedgerHolds (run fromSlice events) log state := by
  refine Runs.foldl_invariant (fun _ history => ∃ log state, LedgerHolds history log state) ?_ ?_ events
  · exact ⟨[], .none, start_holds⟩
  · rintro _ event history ⟨log, state, h⟩
    exact apply_holds h event

end LedgerHistory

end M1nd.Control
