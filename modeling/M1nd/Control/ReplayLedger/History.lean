import M1nd.Control.ReplayLedger.Runs

namespace M1nd.Control

open M1nd.Library
open M1nd.Library.Checks
open M1nd.Library.Durable
open PersistentReplayLedger

-- The memory ledger that a persistent one stands for.
def PersistentReplayLedger.memory (ledger : PersistentReplayLedger) : MemoryReplayLedger where
  consumedScopes := ledger.consumedScopes
  nextSequence := ledger.nextSequence

-- The ledgers give one answer: the same error, or the same receipt up to its durability.
def SameAnswer : ReplayClaimV1 × Outcome ReplayLedgerError ReplayReceiptV1 →
    ReplayClaimV1 × Except ReplayLedgerError ReplayReceiptV1 → Prop
  | (claim, .returned receipt), (claim', .ok receipt') =>
      claim = claim' ∧ receipt = { receipt' with durability := .SyncedFile }
  | (claim, .refused error), (claim', .error error') => claim = claim' ∧ error = error'
  | _, _ => False

-- A memory ledger that gets the same calls. There is nothing to open again.
structure MemoryHistory where
  ledger : Option MemoryReplayLedger
  answers : List (ReplayClaimV1 × Except ReplayLedgerError ReplayReceiptV1)

namespace MemoryHistory

def start : MemoryHistory where
  ledger := none
  answers := []

variable [Sha256]

def apply (history : MemoryHistory) : LedgerEvent → MemoryHistory
  | .Open _ => { history with ledger := some (history.ledger.getD .new) }
  | .Consume claim nowMs maxFutureClockSkewMs _ =>
      match history.ledger with
      | none => history
      | some ledger =>
          match ledger.consume claim nowMs maxFutureClockSkewMs with
          | .ok (receipt, ledger) => ⟨some ledger, history.answers ++ [(claim, .ok receipt)]⟩
          | .error error => ⟨some ledger, history.answers ++ [(claim, .error error)]⟩

def run (events : List LedgerEvent) : MemoryHistory :=
  events.foldl apply start

end MemoryHistory

-- Nothing fails and nothing crashes.
def LedgerEvent.Calm : LedgerEvent → Prop
  | .Open fates => fates = []
  | .Consume _ _ _ fates => fates = []

-- serde_json reads back the record that it wrote.
def LedgerReadsBack (fromSlice : ReplayRecordDecoder) : Prop :=
  ∀ record : ReplayLedgerRecordV1, fromSlice record.toVec = .ok record

variable [Sha256] {fromSlice : ReplayRecordDecoder} {world : LedgerWorld} {disk : LedgerDisk}
  {log : List ReplayLedgerRecordV1} {state replayed : ReplayedRecords} {claim : ReplayClaimV1}
  {nowMs maxFutureClockSkewMs : Nat}

theorem replayRecords_ledgerBytes (hdecode : LedgerReadsBack fromSlice) (h : Ledgered log state) :
    replayRecords fromSlice (ledgerBytes log) = .ok state :=
  replayRecords_eq_ok.mpr ⟨log, rfl, fun record _ => hdecode record, h⟩

theorem MemoryReplayLedger.consume_invalid {ledger : MemoryReplayLedger} {error : ReplayLedgerError}
    (hclaim : claim.validateAt nowMs maxFutureClockSkewMs = .error error) :
    ledger.consume claim nowMs maxFutureClockSkewMs = .error error := by
  rw [consume, hclaim]
  rfl

theorem MemoryReplayLedger.consume_replayed {ledger : MemoryReplayLedger}
    (hclaim : claim.validateAt nowMs maxFutureClockSkewMs = .ok ())
    (hmem : claim.scopeDigest ∈ ledger.consumedScopes) :
    ledger.consume claim nowMs maxFutureClockSkewMs = .error (.Replay claim.scopeDigest) := by
  rw [consume, hclaim, rejectIf, if_pos hmem]
  rfl

theorem MemoryReplayLedger.consume_fresh {ledger : MemoryReplayLedger}
    (hclaim : claim.validateAt nowMs maxFutureClockSkewMs = .ok ())
    (hfresh : claim.scopeDigest ∉ ledger.consumedScopes) :
    ledger.consume claim nowMs maxFutureClockSkewMs = .ok
      (⟨ledger.nextSequence, claim.claimDigest, claim.scopeDigest, .Volatile⟩,
        ⟨ledger.consumedScopes.insert claim.scopeDigest, nextLedgerSequence ledger.nextSequence⟩) := by
  rw [consume, hclaim, rejectIf, if_neg hfresh]
  rfl

-- A usable handle appends the record of a fresh claim.
theorem consume_ends (hlive : world.ledger.poisoned = false)
    (hlen : world.disk.bytes.length = world.ledger.knownLen)
    (hclaim : claim.validateAt nowMs maxFutureClockSkewMs = .ok ())
    (hfresh : claim.scopeDigest ∉ world.ledger.consumedScopes) :
    Ends (consume claim nowMs maxFutureClockSkewMs) [] world
      (.returned ⟨world.ledger.nextSequence, claim.claimDigest, claim.scopeDigest, .SyncedFile⟩) []
      { world with
        disk.file := some (world.disk.bytes ++ ((world.ledger.nextRecord claim).toVec ++ [lineFeed]))
        ledger := install (world.ledger.nextRecord claim) world.ledger } := by
  have hlength : Ends checkLength [] world (.returned ()) [] world := by
    refine .bind .get ?_
    dsimp only
    rw [if_neg (by simp [hlen])]
    exact .pure
  refine .bind .get (.bind (.check_passed (by simp [hlive])) (.bind (.check hclaim) ?_))
  refine .bind (.check_passed hfresh) (.bind .step (.bind hlength ?_))
  exact .bind (.orElse .step) (.bind (.orElse .step) (.bind .modify .pure))

-- One call that meets no fault is the call of the memory ledger.
theorem consume_calm (claim : ReplayClaimV1) (nowMs maxFutureClockSkewMs : Nat)
    (h : HeldLedger world log state) (hlive : world.ledger.poisoned = false) :
    Calm (consume claim nowMs maxFutureClockSkewMs) world fun o after =>
      after.ledger.poisoned = false ∧
      match world.ledger.memory.consume claim nowMs maxFutureClockSkewMs with
      | .ok (receipt, memory) =>
          SameAnswer (claim, o) (claim, .ok receipt) ∧ after.ledger.memory = memory
      | .error error =>
          SameAnswer (claim, o) (claim, .error error) ∧ after.ledger.memory = world.ledger.memory := by
  have hstep := h.inStep hlive
  have husable : ¬world.ledger.poisoned = true := by simp [hlive]
  cases hclaim : claim.validateAt nowMs maxFutureClockSkewMs with
  | error error =>
      rw [MemoryReplayLedger.consume_invalid hclaim]
      refine .ends (.bind .get (.bind (.check_passed husable) (.bind_refused (.check_error hclaim)))) ?_
      exact ⟨hlive, ⟨rfl, rfl⟩, rfl⟩
  | ok valid =>
      by_cases hmem : claim.scopeDigest ∈ world.ledger.consumedScopes
      · rw [MemoryReplayLedger.consume_replayed hclaim hmem]
        refine .ends (.bind .get (.bind (.check_passed husable) (.bind (.check hclaim)
          (.bind_refused (.check_rejected hmem))))) ?_
        exact ⟨hlive, ⟨rfl, rfl⟩, rfl⟩
      · rw [MemoryReplayLedger.consume_fresh hclaim hmem]
        refine .ends (consume_ends hlive hstep.knownLen.symm hclaim hmem) ?_
        exact ⟨hlive, ⟨rfl, rfl⟩, rfl⟩

theorem openLedger_ends (hplain : disk.isSymlink = false)
    (hreplayed : replayRecords fromSlice disk.bytes = .ok replayed) :
    Ends (openLedger fromSlice) [] disk
      (.returned ⟨replayed.consumedScopes, replayed.expectedSequence, replayed.tailDigest,
        disk.bytes.length, false⟩) [] { disk with file := some disk.bytes } := by
  have hcreate : Ends createLedger [] disk (.returned ()) [] { disk with file := some disk.bytes } := by
    refine .bind .get (.bind .step ?_)
    split
    · exact .bind .step .step
    · exact .pure
  refine .bind .get (.bind (.check_passed (by simp [hplain])) (.bind .step ?_))
  exact .bind hcreate (.bind .step (.bind .step (.bind .get (.bind (.check hreplayed) .pure))))

theorem LedgerHistory.apply_open {history : LedgerHistory} {fates rest : List Fate}
    {ledger : PersistentReplayLedger}
    (hends : Ends (openLedger fromSlice) fates history.disk (.returned ledger) rest disk) :
    history.apply fromSlice (.Open fates) = { history with disk, ledger := some ledger } := by
  rw [apply, show openLedger fromSlice fates history.disk = _ from hends]

theorem LedgerHistory.apply_consume {history : LedgerHistory} {fates rest : List Fate}
    {ledger : PersistentReplayLedger} {outcome : Outcome ReplayLedgerError ReplayReceiptV1}
    (hledger : history.ledger = some ledger)
    (hends : Ends (consume claim nowMs maxFutureClockSkewMs) fates ⟨history.disk, ledger⟩ outcome rest
      world) (hlive : outcome ≠ .crashed) :
    history.apply fromSlice (.Consume claim nowMs maxFutureClockSkewMs fates) =
      ⟨world.disk, some world.ledger, history.answers ++ [(claim, outcome)]⟩ := by
  simp only [apply, hledger]
  rw [show PersistentReplayLedger.consume claim nowMs maxFutureClockSkewMs fates
    ⟨history.disk, ledger⟩ = _ from hends]
  cases outcome with
  | returned | refused => rfl
  | crashed => exact absurd rfl hlive

-- The handle and the memory ledger after the same calls, when none of them met a fault.
structure Matched (history : LedgerHistory) (memory : MemoryHistory) : Prop where
  ledgers : history.ledger = none ∧ memory.ledger = none ∧ history.disk.bytes = [] ∨
    ∃ ledger, history.ledger = some ledger ∧ ledger.poisoned = false ∧
      memory.ledger = some ledger.memory
  answers : List.Forall₂ SameAnswer history.answers memory.answers

section Run

variable {history : LedgerHistory} {memory : MemoryHistory}

theorem Matched.opened (hdecode : LedgerReadsBack fromSlice) (h : LedgerHolds history log state)
    (hmatched : Matched history memory) :
    Matched (history.apply fromSlice (.Open [])) (memory.apply (.Open [])) := by
  have hreplayed : ∃ replayed, replayRecords fromSlice history.disk.bytes = .ok replayed ∧
      memory.ledger.getD .new = ⟨replayed.consumedScopes, replayed.expectedSequence⟩ := by
    obtain ⟨-, hmemory, hempty⟩ | ⟨ledger, hledger, hlive, hmemory⟩ := hmatched.ledgers
    · refine ⟨.none, ?_, by rw [hmemory]; rfl⟩
      rw [hempty]
      exact replayRecords_ledgerBytes hdecode .nil
    · have hstep := (h.held ledger hledger).inStep hlive
      refine ⟨state, ?_, ?_⟩
      · rw [show history.disk.bytes = ledgerBytes log from hstep.bytes]
        exact replayRecords_ledgerBytes hdecode h.filed.ledgered
      · rw [hmemory, ← hstep.replayed]
        rfl
  obtain ⟨replayed, hreplayed, hmemory⟩ := hreplayed
  rw [LedgerHistory.apply_open (openLedger_ends h.filed.plain hreplayed)]
  exact ⟨.inr ⟨_, rfl, rfl, congrArg some hmemory⟩, hmatched.answers⟩

theorem Matched.consumed (fromSlice : ReplayRecordDecoder) (claim : ReplayClaimV1)
    (nowMs maxFutureClockSkewMs : Nat) (h : LedgerHolds history log state) (hmatched : Matched history memory) :
    Matched (history.apply fromSlice (.Consume claim nowMs maxFutureClockSkewMs []))
      (memory.apply (.Consume claim nowMs maxFutureClockSkewMs [])) := by
  obtain ⟨hledger, hmemory, hempty⟩ | ⟨ledger, hledger, hlive, hmemory⟩ := hmatched.ledgers
  · simp only [LedgerHistory.apply, MemoryHistory.apply, hledger, hmemory]
    exact hmatched
  · obtain ⟨outcome, after, hends, hafter, hanswer⟩ := consume_calm claim nowMs
      maxFutureClockSkewMs (h.held ledger hledger) hlive
    simp only [MemoryHistory.apply, hmemory]
    dsimp only at hanswer
    cases hconsume : ledger.memory.consume claim nowMs maxFutureClockSkewMs with
    | ok result =>
        rw [hconsume] at hanswer
        obtain ⟨hsame, hnext⟩ := hanswer
        rw [LedgerHistory.apply_consume hledger hends (by rintro rfl; exact hsame)]
        refine ⟨.inr ⟨_, rfl, hafter, congrArg some hnext.symm⟩, ?_⟩
        exact List.rel_append hmatched.answers (.cons hsame .nil)
    | error error =>
        rw [hconsume] at hanswer
        obtain ⟨hsame, hnext⟩ := hanswer
        rw [LedgerHistory.apply_consume hledger hends (by rintro rfl; exact hsame)]
        refine ⟨.inr ⟨_, rfl, hafter, congrArg some hnext.symm⟩, ?_⟩
        exact List.rel_append hmatched.answers (.cons hsame .nil)

-- Without faults the persistent ledger answers every call as the memory ledger does, however
-- often it is opened again.
theorem run_matched (hdecode : LedgerReadsBack fromSlice) (events : List LedgerEvent) :
    (∀ event ∈ events, event.Calm) →
      Matched (LedgerHistory.run fromSlice events) (MemoryHistory.run events) := by
  induction events using List.reverseRecOn with
  | nil => exact fun _ => ⟨.inl ⟨rfl, rfl, rfl⟩, .nil⟩
  | append_singleton events event ih =>
      intro hcalm
      rw [List.forall_mem_append, List.forall_mem_singleton] at hcalm
      obtain ⟨hbefore, hevent⟩ := hcalm
      obtain ⟨log, state, hholds⟩ := LedgerHistory.run_holds fromSlice events
      specialize ih hbefore
      rw [LedgerHistory.run, MemoryHistory.run, List.foldl_append, List.foldl_append]
      cases event with
      | Open fates =>
          obtain rfl : fates = [] := hevent
          exact ih.opened hdecode hholds
      | Consume claim nowMs maxFutureClockSkewMs fates =>
          obtain rfl : fates = [] := hevent
          exact ih.consumed fromSlice claim nowMs maxFutureClockSkewMs hholds

end Run

end M1nd.Control

namespace M1nd.Control

open M1nd.Library
open M1nd.Library.Checks
open M1nd.Library.Durable
open M1nd.Library.Json (Bytes)
open PersistentReplayLedger

section Opens

variable [Sha256] {fromSlice : ReplayRecordDecoder} {bytes : Bytes} {log : List ReplayLedgerRecordV1}

-- A file is refused when no way of opening it ends in a handle.
def LedgerOpens (fromSlice : ReplayRecordDecoder) (bytes : Bytes) : Prop :=
  ∃ fates ledger, (openLedger fromSlice).outcome fates ⟨false, some bytes⟩ = .returned ledger

theorem ledgerOpens_iff :
    LedgerOpens fromSlice bytes ↔ ∃ state, replayRecords fromSlice bytes = .ok state := by
  constructor
  · rintro ⟨fates, ledger, hreturned⟩
    exact ⟨_, ((openLedger_always fromSlice ⟨false, some bytes⟩ fates).2 ledger hreturned).1⟩
  · rintro ⟨state, hreplayed⟩
    have hplain : (⟨false, some bytes⟩ : LedgerDisk).isSymlink = false := rfl
    exact ⟨[], _, (openLedger_ends hplain hreplayed).outcome_eq⟩

-- What opening a file again finds out about changes that were made to it. The hash chain has
-- no key, so the records that are written in the place of the last one are found out only
-- when their own digests are wrong.
structure TamperEvident (fromSlice : ReplayRecordDecoder) (log : List ReplayLedgerRecordV1) : Prop where
  removed : ∀ before record after, log = before ++ record :: after → after ≠ [] →
    CollisionFree (ledgerMessages (ledgerBytes log)) →
    ¬LedgerOpens fromSlice (ledgerBytes (before ++ after))
  reordered : ∀ log', log'.Perm log → log' ≠ log → CollisionFree (ledgerMessages (ledgerBytes log)) →
    ¬LedgerOpens fromSlice (ledgerBytes log')
  edited : ∀ before record after edit, log = before ++ record :: after → edit ≠ record.toVec →
    CollisionFree (ledgerMessages (ledgerBytes log) ∪
      ledgerMessages (editedLedger before edit after)) →
    (LedgerOpens fromSlice (editedLedger before edit after) ↔
      after = [] ∧ ∃ rewritten, edit ++ [lineFeed] = ledgerBytes rewritten ∧
        ∃ state, Ledgered (before ++ rewritten) state)

theorem Ledgered.tamperEvident {state : ReplayedRecords} (hdecode : LedgerReadsBack fromSlice)
    (h : Ledgered log state) : TamperEvident fromSlice log where
  removed := by
    rintro before record after rfl hafter hfree hopens
    obtain ⟨state', hreplayed⟩ := ledgerOpens_iff.mp hopens
    exact removed_refused h hafter hfree hreplayed
  reordered := by
    intro log' hperm hne hfree hopens
    obtain ⟨state', hreplayed⟩ := ledgerOpens_iff.mp hopens
    exact reordered_refused h hperm hne hfree hreplayed
  edited := by
    rintro before record after edit rfl hedit hfree
    rw [ledgerOpens_iff]
    constructor
    · rintro ⟨state', hreplayed⟩
      obtain ⟨hlast, rewritten, hlines, hledgered⟩ := edited_accepted h hedit hfree hreplayed
      exact ⟨hlast, rewritten, hlines, state', hledgered⟩
    · rintro ⟨rfl, rewritten, hlines, state', hledgered⟩
      refine ⟨state', ?_⟩
      rw [editedLedger, hlines]
      have hbytes : ledgerBytes before ++ ledgerBytes rewritten ++ ledgerBytes [] =
          ledgerBytes (before ++ rewritten) := by
        simp [ledgerBytes, Framing.frames_append]
      rw [hbytes]
      exact replayRecords_ledgerBytes hdecode hledgered

end Opens

-- Whatever calls, faults, crashes and reopenings a run is made of: each scope is acknowledged
-- once, a run without faults answers as the memory ledger does, a usable handle is what its
-- file is opened to, and the file shows what was done to it.
theorem replayLedger_run [Sha256] {fromSlice : ReplayRecordDecoder}
    (hdecode : LedgerReadsBack fromSlice) (events : List LedgerEvent) :
    ((LedgerHistory.run fromSlice events).acknowledged.map ReplayClaimV1.scope).Nodup ∧
      ((∀ event ∈ events, event.Calm) → List.Forall₂ SameAnswer
        (LedgerHistory.run fromSlice events).answers (MemoryHistory.run events).answers) ∧
      (∀ ledger, (LedgerHistory.run fromSlice events).ledger = some ledger →
        ledger.poisoned = false →
        (openLedger fromSlice).outcome [] (LedgerHistory.run fromSlice events).disk =
          .returned ledger) ∧
      ∀ log, (LedgerHistory.run fromSlice events).disk.bytes = ledgerBytes log →
        TamperEvident fromSlice log := by
  obtain ⟨log, state, h⟩ := LedgerHistory.run_holds fromSlice events
  refine ⟨h.once, fun hcalm => (run_matched hdecode events hcalm).answers, ?_, ?_⟩
  · intro ledger hledger hlive
    have hstep := (h.held ledger hledger).inStep hlive
    have hreplayed : replayRecords fromSlice (LedgerHistory.run fromSlice events).disk.bytes =
        .ok state := by
      rw [show (LedgerHistory.run fromSlice events).disk.bytes = ledgerBytes log from hstep.bytes]
      exact replayRecords_ledgerBytes hdecode h.filed.ledgered
    rw [(openLedger_ends h.filed.plain hreplayed).outcome_eq, ← hstep.replayed,
      ← show ledger.knownLen = _ from hstep.knownLen, ← hlive]
    rfl
  · intro log' hbytes
    rw [← h.filed.eq_of_bytes hbytes]
    exact h.filed.ledgered.tamperEvident hdecode

section Landing

-- A reader of the lines that the ledger writes.
noncomputable def ledgerRecordFromSlice : ReplayRecordDecoder := fun bytes =>
  (Function.partialInv ReplayLedgerRecordV1.toVec bytes).elim (.error "unknown record") .ok

theorem ledgerRecordFromSlice_readsBack : LedgerReadsBack ledgerRecordFromSlice := by
  intro record
  have hinverse := Function.partialInv_left ReplayLedgerRecordV1.toVec_injective record
  rw [ledgerRecordFromSlice, hinverse]
  rfl

def landingClaim (nonce : String) : ReplayClaimV1 where
  schema := REPLAY_CLAIM_SCHEMA
  namespace_ := "landing"
  issuerSubjectId := "owner"
  keyId := "owner-key"
  subjectId := "agent"
  nonce := nonce
  objectDigest := "object"
  issuedAt := 10
  expiresAt := 20

-- A claim, the same claim after the ledger was opened again, and another one.
def landingEvents : List LedgerEvent :=
  [.Open [], .Consume (landingClaim "first") 15 0 [], .Open [],
    .Consume (landingClaim "first") 15 0 [], .Consume (landingClaim "second") 15 0 []]

theorem landingEvents_answered :
    letI := standardSha256
    List.Forall₂ SameAnswer (LedgerHistory.run ledgerRecordFromSlice landingEvents).answers
      (MemoryHistory.run landingEvents).answers :=
  letI := standardSha256
  (replayLedger_run ledgerRecordFromSlice_readsBack landingEvents).2.1
    (by simp [landingEvents, LedgerEvent.Calm])

theorem landingClaim_valid :
    (landingClaim "first").validateAt 15 0 = .ok () ∧ (landingClaim "second").validateStatic = .ok () := by
  decide

-- A ledger that has no records yet.
def emptyLedger : PersistentReplayLedger where
  consumedScopes := ∅
  nextSequence := 1
  tailDigest := none
  knownLen := 0
  poisoned := false

def failingEvents : List LedgerEvent :=
  [.Open [], .Consume (landingClaim "first") 15 0 [.failed 0]]

section

variable [Sha256]

def landingRecord (nonce : String) : ReplayLedgerRecordV1 :=
  emptyLedger.nextRecord (landingClaim nonce)

theorem landing_fresh (claim : ReplayClaimV1) : claim.scopeDigest ∉ emptyLedger.consumedScopes :=
  Std.ExtTreeSet.not_mem_empty

theorem landing_opened :
    LedgerHistory.apply ledgerRecordFromSlice LedgerHistory.start (.Open []) =
      ⟨⟨false, some []⟩, some emptyLedger, []⟩ :=
  LedgerHistory.apply_open (openLedger_ends rfl (show replayRecords ledgerRecordFromSlice
    LedgerHistory.start.disk.bytes = .ok .none from
      replayRecords_ledgerBytes ledgerRecordFromSlice_readsBack .nil))

theorem landing_written :
    (LedgerHistory.run ledgerRecordFromSlice
      [.Open [], .Consume (landingClaim "first") 15 0 []]).disk.bytes =
      ledgerBytes [landingRecord "first"] := by
  have hconsumed : Ends (consume (landingClaim "first") 15 0) [] ⟨⟨false, some []⟩, emptyLedger⟩ _ [] _ :=
    consume_ends rfl rfl landingClaim_valid.1 (landing_fresh _)
  rw [LedgerHistory.run, List.foldl_cons, landing_opened, List.foldl_cons, List.foldl_nil,
    LedgerHistory.apply_consume rfl hconsumed (by nofun)]
  simp [ledgerBytes, LedgerDisk.bytes, landingRecord]

theorem landingRecord_ne : (landingRecord "second").toVec ≠ (landingRecord "first").toVec := by
  intro hsame
  have hrecords := ReplayLedgerRecordV1.toVec_injective hsame
  have hclaims : landingClaim "second" = landingClaim "first" :=
    congrArg ReplayLedgerRecordV1.claim hrecords
  revert hclaims
  decide

theorem landing_rewritten :
    LedgerOpens ledgerRecordFromSlice (editedLedger [] (landingRecord "second").toVec []) := by
  have hadmits : ReplayedRecords.none.Admits (landingRecord "second") :=
    nextRecord_admits emptyLedger landingClaim_valid.2 (landing_fresh _)
  have hbytes : editedLedger [] (landingRecord "second").toVec [] =
      ledgerBytes [landingRecord "second"] := by
    simp [editedLedger, ledgerBytes]
  rw [hbytes, ledgerOpens_iff]
  exact ⟨_, replayRecords_ledgerBytes ledgerRecordFromSlice_readsBack (Ledgered.nil.concat hadmits)⟩

theorem failingEvents_differ :
    ¬List.Forall₂ SameAnswer (LedgerHistory.run ledgerRecordFromSlice failingEvents).answers
      (MemoryHistory.run failingEvents).answers := by
  have hvalid := landingClaim_valid.1
  have hrefused : Ends (consume (landingClaim "first") 15 0) [.failed 0]
      ⟨⟨false, some []⟩, emptyLedger⟩ (.refused (.Io "read_length_before_append")) []
      ⟨⟨false, some []⟩, emptyLedger⟩ :=
    .bind .get (.bind (.check_passed nofun) (.bind (.check hvalid)
      (.bind (.check_passed (landing_fresh _)) (.bind_refused .step_failed))))
  have haccepted := MemoryReplayLedger.consume_fresh hvalid (show
    (landingClaim "first").scopeDigest ∉ MemoryReplayLedger.new.consumedScopes from landing_fresh _)
  rw [LedgerHistory.run, failingEvents, List.foldl_cons, landing_opened, List.foldl_cons,
    List.foldl_nil, LedgerHistory.apply_consume rfl hrefused (by nofun)]
  simp only [MemoryHistory.run, MemoryHistory.apply, MemoryHistory.start, List.foldl_cons,
    List.foldl_nil, Option.getD_none, haccepted]
  rintro (_ | ⟨⟨⟩, -⟩)

end

-- The one record of a ledger is replaced by the record of another claim, with the digests
-- that belong to it, and the file is opened; and a call that could not read the length of the
-- file is refused where the memory ledger accepts it.
theorem rewritten_record_opens :
    letI := standardSha256
    (LedgerHistory.run ledgerRecordFromSlice
        [.Open [], .Consume (landingClaim "first") 15 0 []]).disk.bytes =
        ledgerBytes [landingRecord "first"] ∧
      (landingRecord "second").toVec ≠ (landingRecord "first").toVec ∧
      LedgerOpens ledgerRecordFromSlice (editedLedger [] (landingRecord "second").toVec []) ∧
      ¬List.Forall₂ SameAnswer (LedgerHistory.run ledgerRecordFromSlice failingEvents).answers
        (MemoryHistory.run failingEvents).answers :=
  letI := standardSha256
  ⟨landing_written, landingRecord_ne, landing_rewritten, failingEvents_differ⟩

end Landing

end M1nd.Control
