import M1nd.Library.Durable
import Std.Data.ExtTreeMap
import Mathlib.Algebra.GroupWithZero.Nat

namespace M1nd.Mcp

open M1nd.Library.Checks
open M1nd.Library.Durable

def AUTHORITY_WAL_HEAD_DOMAIN : String := "m1nd-authority-wal-head-v1"

structure ProtectedJournalHeadSnapshotV1 where
  domain : String
  recordSequence : Nat
  headDigest : Option String
deriving DecidableEq

inductive ProtectedHeadError
  | Unavailable
  | DomainMismatch
  | CompareAndSwapMismatch
  | InitialHeadNotEmptyAnchor
  | NotExactlyOneRecord
  | DiffersFromJournal (protectedHead observed : ProtectedJournalHeadSnapshotV1)
  | NonEmptyJournalWithoutHead
  | ChangedOutsideOwnerSerial
deriving DecidableEq

-- What the backend holds, one snapshot for each domain.
abbrev ProtectedHeads := Std.ExtTreeMap String ProtectedJournalHeadSnapshotV1

-- `saturating_add(1)` on u64.
def saturatingSucc (n : Nat) : Nat :=
  min (n + 1) (2 ^ 64 - 1)

abbrev HeadProgram := Program ProtectedHeads ProtectedHeadError

def readLatest (domain : String) : HeadProgram (Option ProtectedJournalHeadSnapshotV1) := do
  Program.step { whole := id, part := fun _ => id } .Unavailable
  let heads ← Program.get
  return heads[domain]?

def admitsAdvance (heads : ProtectedHeads) (domain : String)
    (expected : Option ProtectedJournalHeadSnapshotV1) (next : ProtectedJournalHeadSnapshotV1) :
    Except ProtectedHeadError Unit := do
  rejectIf (next.domain ≠ domain) .DomainMismatch
  rejectIf (heads[domain]? ≠ expected) .CompareAndSwapMismatch
  match expected with
  | none =>
      rejectIf (next.recordSequence ≠ 0 ∨ next.headDigest.isSome) .InitialHeadNotEmptyAnchor
  | some previous =>
      rejectIf (next.recordSequence ≠ saturatingSucc previous.recordSequence ∨
        next.headDigest.isNone) .NotExactlyOneRecord

-- The swap itself is one durable step: it takes effect as a whole or not at all, also
-- when its answer is lost.
def swapHead (domain : String) (next : ProtectedJournalHeadSnapshotV1) :
    Effect ProtectedHeads where
  whole heads := heads.insert domain next
  part reached heads := if reached = 0 then heads else heads.insert domain next

def compareAndAdvance (domain : String) (expected : Option ProtectedJournalHeadSnapshotV1)
    (next : ProtectedJournalHeadSnapshotV1) : HeadProgram Unit := do
  let heads ← Program.get
  Program.check (admitsAdvance heads domain expected next)
  Program.step (swapHead domain next) .Unavailable

def verifyOrInitializeProtectedHead (domain : String) (observedSequence : Nat)
    (observedHeadDigest : Option String) : HeadProgram ProtectedJournalHeadSnapshotV1 := do
  let observed : ProtectedJournalHeadSnapshotV1 :=
    { domain, recordSequence := observedSequence, headDigest := observedHeadDigest }
  match ← readLatest domain with
  | some protectedHead =>
      if protectedHead = observed then return protectedHead
      else Program.refuse (.DiffersFromJournal protectedHead observed)
  | none =>
      if observed.recordSequence = 0 ∧ observed.headDigest.isNone then do
        compareAndAdvance domain none observed
        return observed
      else Program.refuse .NonEmptyJournalWithoutHead

def advanceProtectedHead (domain : String) (expected : ProtectedJournalHeadSnapshotV1)
    (nextSequence : Nat) (nextHeadDigest : String) :
    HeadProgram ProtectedJournalHeadSnapshotV1 := do
  let next : ProtectedJournalHeadSnapshotV1 :=
    { domain, recordSequence := nextSequence, headDigest := some nextHeadDigest }
  let current ← readLatest domain
  Program.check (rejectIf (current ≠ some expected) ProtectedHeadError.ChangedOutsideOwnerSerial)
  compareAndAdvance domain (some expected) next
  return next

end M1nd.Mcp

namespace M1nd.Mcp

open M1nd.Library.Checks
open M1nd.Library.Durable

variable {heads : ProtectedHeads} {domain : String}
  {expected : Option ProtectedJournalHeadSnapshotV1} {next : ProtectedJournalHeadSnapshotV1}

theorem readLatest_always :
    Always (readLatest domain) heads fun o after =>
      after = heads ∧ ∀ latest, o = .returned latest → latest = heads[domain]? := by
  refine .bind (.step ?_ (fun _ => ⟨rfl, by simp⟩) (fun _ => ⟨rfl, by simp⟩))
  refine .bind (.get ?_)
  refine .pure ⟨rfl, ?_⟩
  rintro latest ⟨⟩
  rfl

theorem admitsAdvance_eq_ok :
    admitsAdvance heads domain expected next = .ok () ↔
      next.domain = domain ∧ heads[domain]? = expected ∧
        match expected with
        | none => next.recordSequence = 0 ∧ next.headDigest = none
        | some previous => next.recordSequence = saturatingSucc previous.recordSequence ∧
            next.headDigest ≠ none := by
  cases expected <;>
    simp [admitsAdvance, bind_unit_eq_ok, Option.isNone_iff_eq_none, Option.isSome_iff_ne_none]

theorem compareAndAdvance_always :
    Always (compareAndAdvance domain expected next) heads fun o after =>
      (o = .returned () → admitsAdvance heads domain expected next = .ok () ∧
        after = heads.insert domain next) ∧
      (after = heads ∨ admitsAdvance heads domain expected next = .ok () ∧
        after = heads.insert domain next) := by
  refine .bind (.get ?_)
  refine .bind (.check ?_ (fun error h => ⟨by simp, .inl rfl⟩))
  intro _ hadmits
  have hpart : ∀ reached, (swapHead domain next).part reached heads = heads ∨
      admitsAdvance heads domain expected next = .ok () ∧
        (swapHead domain next).part reached heads = heads.insert domain next := by
    intro reached
    by_cases hreached : reached = 0
    · exact .inl (if_pos hreached)
    · exact .inr ⟨hadmits, if_neg hreached⟩
  exact .step ⟨fun _ => ⟨hadmits, rfl⟩, .inr ⟨hadmits, rfl⟩⟩
    (fun reached => ⟨by simp, hpart reached⟩) (fun reached => ⟨by simp, hpart reached⟩)

variable {sequence : Nat} {digest : Option String}

-- Either nothing happens to the heads, or the empty anchor of an empty journal is set.
def Anchors (domain : String) (sequence : Nat) (digest : Option String)
    (heads after : ProtectedHeads) : Prop :=
  after = heads ∨ (heads[domain]? = none ∧ sequence = 0 ∧ digest = none ∧
    after = heads.insert domain ⟨domain, sequence, digest⟩)

theorem verifyOrInitialize_always :
    Always (verifyOrInitializeProtectedHead domain sequence digest) heads fun o after =>
      (∀ head, o = .returned head → head = ⟨domain, sequence, digest⟩ ∧
        after[domain]? = some ⟨domain, sequence, digest⟩) ∧
      Anchors domain sequence digest heads after := by
  refine .bind (readLatest_always.mono ?_)
  rintro (latest | _ | _) after ⟨rfl, hlatest⟩
  · obtain rfl := hlatest latest rfl
    dsimp only
    split
    · rename_i head hhead
      split
      · rename_i hsame
        subst hsame
        refine .pure ⟨?_, .inl rfl⟩
        rintro _ ⟨⟩
        exact ⟨rfl, hhead⟩
      · exact .refuse ⟨by simp, .inl rfl⟩
    · rename_i hnone
      split
      · rename_i hempty
        obtain ⟨rfl, hdigest⟩ := hempty
        have hdigest : digest = none := Option.isNone_iff_eq_none.mp hdigest
        refine .bind (compareAndAdvance_always.mono ?_)
        rintro (_ | _ | _) later ⟨hreturned, hlater⟩
        · obtain ⟨-, rfl⟩ := hreturned rfl
          refine .pure ⟨?_, .inr ⟨hnone, rfl, hdigest, rfl⟩⟩
          rintro _ ⟨⟩
          exact ⟨rfl, by simp⟩
        · refine ⟨by simp, ?_⟩
          obtain rfl | ⟨-, rfl⟩ := hlater
          · exact .inl rfl
          · exact .inr ⟨hnone, rfl, hdigest, rfl⟩
        · refine ⟨by simp, ?_⟩
          obtain rfl | ⟨-, rfl⟩ := hlater
          · exact .inl rfl
          · exact .inr ⟨hnone, rfl, hdigest, rfl⟩
      · exact .refuse ⟨by simp, .inl rfl⟩
  · exact ⟨by simp, .inl rfl⟩
  · exact ⟨by simp, .inl rfl⟩

-- The head moves by exactly one record, whether or not the caller hears of it.
def Advances (domain : String) (expected : ProtectedJournalHeadSnapshotV1) (sequence : Nat)
    (digest : String) (heads after : ProtectedHeads) : Prop :=
  heads[domain]? = some expected ∧ sequence = saturatingSucc expected.recordSequence ∧
    after = heads.insert domain ⟨domain, sequence, some digest⟩

theorem advanceProtectedHead_always {expected : ProtectedJournalHeadSnapshotV1}
    {digest : String} :
    Always (advanceProtectedHead domain expected sequence digest) heads fun o after =>
      (∀ head, o = .returned head → head = ⟨domain, sequence, some digest⟩ ∧
        Advances domain expected sequence digest heads after) ∧
      (after = heads ∨ Advances domain expected sequence digest heads after) := by
  refine .bind (readLatest_always.mono ?_)
  rintro (latest | _ | _) after ⟨rfl, -⟩
  · refine .bind (.check ?_ (fun error h => ⟨by simp, .inl rfl⟩))
    intro _ _
    refine .bind (compareAndAdvance_always.mono ?_)
    have hadvances : ∀ later,
        admitsAdvance after domain (some expected) ⟨domain, sequence, some digest⟩ = .ok () ∧
          later = after.insert domain ⟨domain, sequence, some digest⟩ →
        Advances domain expected sequence digest after later := by
      rintro later ⟨hadmits, rfl⟩
      obtain ⟨-, hexpected, hsequence, -⟩ := admitsAdvance_eq_ok.mp hadmits
      exact ⟨hexpected, hsequence, rfl⟩
    rintro (_ | _ | _) later ⟨hreturned, hlater⟩
    · refine .pure ⟨?_, .inr (hadvances later (hreturned rfl))⟩
      rintro _ ⟨⟩
      exact ⟨rfl, hadvances later (hreturned rfl)⟩
    · exact ⟨by simp, hlater.imp_right (hadvances later)⟩
    · exact ⟨by simp, hlater.imp_right (hadvances later)⟩
  · exact ⟨by simp, .inl rfl⟩
  · exact ⟨by simp, .inl rfl⟩

-- The runs in which the backend answers.

theorem readLatest_ends :
    Ends (readLatest domain) [] heads (.returned heads[domain]?) [] heads :=
  .bind .step (.bind .get .pure)

theorem compareAndAdvance_ends (h : admitsAdvance heads domain expected next = .ok ()) :
    Ends (compareAndAdvance domain expected next) [] heads (.returned ()) []
      (heads.insert domain next) :=
  .bind .get (.bind (.check h) .step)

theorem verifyOrInitialize_ends (h : heads[domain]? = some ⟨domain, sequence, digest⟩) :
    Ends (verifyOrInitializeProtectedHead domain sequence digest) [] heads
      (.returned ⟨domain, sequence, digest⟩) [] heads := by
  refine .bind readLatest_ends ?_
  rw [h]
  dsimp only
  rw [if_pos rfl]
  exact .pure

theorem verifyOrInitialize_ends_empty (h : heads[domain]? = none) :
    Ends (verifyOrInitializeProtectedHead domain 0 none) [] heads (.returned ⟨domain, 0, none⟩) []
      (heads.insert domain ⟨domain, 0, none⟩) := by
  refine .bind readLatest_ends ?_
  rw [h]
  dsimp only
  rw [if_pos ⟨rfl, rfl⟩]
  exact .bind (compareAndAdvance_ends (admitsAdvance_eq_ok.mpr ⟨rfl, h, rfl, rfl⟩)) .pure

theorem advanceProtectedHead_ends {expected : ProtectedJournalHeadSnapshotV1} {digest : String}
    (h : heads[domain]? = some expected)
    (hsequence : sequence = saturatingSucc expected.recordSequence) :
    Ends (advanceProtectedHead domain expected sequence digest) [] heads
      (.returned ⟨domain, sequence, some digest⟩) []
      (heads.insert domain ⟨domain, sequence, some digest⟩) := by
  have hunmoved : rejectIf (heads[domain]? ≠ some expected)
      ProtectedHeadError.ChangedOutsideOwnerSerial = .ok () := by
    rw [rejectIf_eq_ok, not_not]
    exact h
  refine .bind readLatest_ends (.bind (.check hunmoved) (.bind (compareAndAdvance_ends ?_) .pure))
  exact admitsAdvance_eq_ok.mpr ⟨rfl, h, hsequence, by simp⟩

-- A head that is in place moves unless the sequence number leaves a gap.
theorem advanceProtectedHead_calm {expected : ProtectedJournalHeadSnapshotV1} {digest : String}
    (h : heads[domain]? = some expected) :
    Calm (advanceProtectedHead domain expected sequence digest) heads fun o _ =>
      o ≠ .crashed ∧ (sequence = saturatingSucc expected.recordSequence →
        ∃ head, o = .returned head) := by
  by_cases hsequence : sequence = saturatingSucc expected.recordSequence
  · exact .ends (advanceProtectedHead_ends h hsequence) ⟨nofun, fun _ => ⟨_, rfl⟩⟩
  · refine .bind (.ends readLatest_ends (.bind (.check ?_ ?_)))
    · intro _ _
      refine .bind (.bind (.get (.bind (.check ?_ fun error _ => ?_))))
      · intro _ hadmits
        exact absurd (admitsAdvance_eq_ok.mp hadmits).2.2.1 hsequence
      · exact ⟨nofun, fun hsame => absurd hsame hsequence⟩
    · exact fun error _ => ⟨nofun, fun hsame => absurd hsame hsequence⟩

end M1nd.Mcp
