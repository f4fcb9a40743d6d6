import M1nd.Mcp.ExternalMutationJournal.Theorems
import Mathlib.Logic.Function.Basic

namespace M1nd.Mcp

open M1nd.Control
open M1nd.Library.Checks
open M1nd.Library.Json (Value write_injective)
open ChainedJournal (Traced)

-- The records of one operation, oldest first.
def operationHistory (operationId : String) (log : List ExternalMutationJournalRecordV1) :
    List ExternalMutationJournalRecordV1 :=
  log.filter fun record => record.core.entry.operationId = operationId

-- The way of one operation through its phases.
inductive PhaseCourse : List ExternalMutationJournalPhaseV1 → Prop
  | Prepared : PhaseCourse [.Prepared]
  | Committed (times : Nat) {rest : List ExternalMutationJournalPhaseV1}
      (h : rest = [] ∨ rest = [.Reconciled] ∨ rest = [.Published] ∨
        rest = [.Reconciled, .Published]) :
      PhaseCourse (.Prepared :: .Committed :: (List.replicate times .RecoveryRequired ++ rest))

def ExternalMutationJournalRecordV1.phase (record : ExternalMutationJournalRecordV1) :
    ExternalMutationJournalPhaseV1 :=
  record.core.entry.phase

-- The entry repeats what the commit record has settled.
def Settles (commit : ExternalMutationJournalRecordV1) (entry : ExternalMutationJournalEntryV1) :
    Prop :=
  entry.outcomeDigest = commit.core.entry.outcomeDigest ∧
    entry.committedAt = commit.core.entry.committedAt ∧
    entry.commitRecordDigest = some commit.recordDigest

structure OperationCourse (history : List ExternalMutationJournalRecordV1) : Prop where
  phases : PhaseCourse (history.map ExternalMutationJournalRecordV1.phase)
  committed : ∀ before commit after, history = before ++ commit :: after →
    commit.phase = .Committed → ∀ later ∈ after, Settles commit later.core.entry
  promoted : ∀ record ∈ history, record.phase = .Published →
    record.core.entry.prepare.semanticAction = "brain.promote" →
      ∃ earlier ∈ history, earlier.phase = .Reconciled

-- An entry in memory is the last record of its history, and settled by its commit record.
structure Recalls (history : List ExternalMutationJournalRecordV1)
    (entry : ExternalMutationJournalEntryV1) : Prop where
  last : ∃ record, history.getLast? = some record ∧ record.phase = entry.phase
  committed : ∀ commit ∈ history, commit.phase = .Committed → Settles commit entry

variable {phases : List ExternalMutationJournalPhaseV1}
  {last phase : ExternalMutationJournalPhaseV1} {log history : List ExternalMutationJournalRecordV1}
  {record : ExternalMutationJournalRecordV1} {previous : ExternalMutationJournalEntryV1}
  {state next : ExternalMutationJournalStateV1} {operationId : String}

theorem PhaseCourse.move (h : PhaseCourse phases) (hlast : phases.getLast? = some last)
    (hlegal : legalTransition last phase = true) : PhaseCourse (phases ++ [phase]) := by
  cases h with
  | Prepared =>
      obtain rfl : .Prepared = last := Option.some.inj hlast
      cases phase <;> cases hlegal
      exact .Committed 0 (.inl rfl)
  | Committed times hrest =>
      obtain rfl | rfl | rfl | rfl := hrest
      · have hopen : last = .Committed ∨ last = .RecoveryRequired := by
          rw [List.append_nil] at hlast
          cases times with
          | zero => exact .inl (Option.some.inj hlast).symm
          | succ times =>
              rw [List.replicate_succ', ← List.cons_append, ← List.cons_append,
                List.getLast?_concat] at hlast
              exact .inr (Option.some.inj hlast).symm
        rw [List.append_nil, List.cons_append, List.cons_append]
        cases phase with
        | RecoveryRequired =>
            have hmore := PhaseCourse.Committed (times + 1) (.inl rfl)
            rwa [List.append_nil, List.replicate_succ'] at hmore
        | Reconciled => exact .Committed times (.inr (.inl rfl))
        | Published => exact .Committed times (.inr (.inr (.inl rfl)))
        | Prepared => obtain rfl | rfl := hopen <;> cases hlegal
        | Committed => obtain rfl | rfl := hopen <;> cases hlegal
      · rw [← List.cons_append, ← List.cons_append, List.getLast?_concat] at hlast
        obtain rfl := Option.some.inj hlast
        cases phase <;> cases hlegal
        rw [List.cons_append, List.cons_append, List.append_assoc]
        exact .Committed times (.inr (.inr (.inr rfl)))
      · rw [← List.cons_append, ← List.cons_append, List.getLast?_concat] at hlast
        obtain rfl := Option.some.inj hlast
        cases phase <;> cases hlegal
      · rw [← List.cons_append, ← List.cons_append, List.getLast?_append] at hlast
        obtain rfl := Option.some.inj hlast
        cases phase <;> cases hlegal

theorem operationHistory_concat : operationHistory operationId (log ++ [record]) =
    if record.core.entry.operationId = operationId then operationHistory operationId log ++ [record]
    else operationHistory operationId log := by
  unfold operationHistory
  rw [List.filter_append]
  split <;> rename_i hid <;> simp [hid]

-- The first record of an operation.
theorem course_prepared (hphase : record.phase = .Prepared) :
    OperationCourse [record] ∧ Recalls [record] record.core.entry := by
  refine ⟨⟨?_, ?_, ?_⟩, ⟨record, rfl, rfl⟩, ?_⟩
  · rw [List.map_singleton, hphase]
    exact .Prepared
  · intro before commit after hsplit hcommit
    have hmem : commit ∈ [record] := by simp [hsplit]
    obtain rfl := List.mem_singleton.mp hmem
    rw [hphase] at hcommit
    cases hcommit
  · intro published hmem hpublished
    obtain rfl := List.mem_singleton.mp hmem
    rw [hphase] at hpublished
    cases hpublished
  · intro commit hmem hcommit
    obtain rfl := List.mem_singleton.mp hmem
    rw [hphase] at hcommit
    cases hcommit

-- What a later record repeats of the entry before it.
theorem Settles.follow {commit : ExternalMutationJournalRecordV1}
    {later : ExternalMutationJournalEntryV1} (h : Settles commit previous)
    (hfollow : commitFieldsFollowTransition previous later = true) :
    later.phase ≠ .Committed ∧ Settles commit later := by
  have hphase : later.phase ≠ .Committed := by
    intro hcommitted
    unfold commitFieldsFollowTransition at hfollow
    rw [hcommitted] at hfollow
    split at hfollow <;> simp_all [noCommitFields, Settles]
  have hmatch := commitFieldsMatch_of_follow hfollow hphase
  simp only [commitFieldsMatch, Bool.and_eq_true, decide_eq_true_eq] at hmatch
  obtain ⟨⟨houtcome, hdigest⟩, hat⟩ := hmatch
  obtain ⟨houtcome', hat', hdigest'⟩ := h
  exact ⟨hphase, houtcome.trans houtcome', hat.trans hat', hdigest.trans hdigest'⟩

-- A promotion is only published once it has been reconciled.
theorem reconciled_before {later : ExternalMutationJournalEntryV1}
    (hkept : keptFields previous = true)
    (hfollow : commitFieldsFollowTransition previous later = true)
    (hfields : fieldsMatchPhase later = true) (hphase : later.phase = .Published)
    (haction : later.prepare.semanticAction = "brain.promote") : previous.phase = .Reconciled := by
  have hreceipt : later.reconciliationReceipt.isSome = true := by
    simp_all [fieldsMatchPhase]
  have hopen : previous.phase ≠ .Reconciled → sameReceipt previous later = true ∧
      (previous.phase = .Committed ∨ previous.phase = .RecoveryRequired) := by
    intro hother
    unfold commitFieldsFollowTransition at hfollow
    split at hfollow <;> simp_all
  by_contra hother
  obtain ⟨hsame, hopen⟩ := hopen hother
  obtain ⟨-, hnone⟩ := unsettled_fields hkept hopen
  simp only [sameReceipt, noReceiptFields, Bool.and_eq_true, decide_eq_true_eq,
    Option.isNone_iff_eq_none] at hsame hnone
  rw [hsame.1, hnone.1] at hreceipt
  cases hreceipt

theorem OperationCourse.follow (h : OperationCourse history) (hrecalls : Recalls history previous)
    (hkept : keptFields previous = true)
    (hfollows : followsEntry (some previous) record.core.entry = true)
    (hfields : fieldsMatchPhase record.core.entry = true) :
    OperationCourse (history ++ [record]) ∧
      Recalls (history ++ [record]) (persistedEntry (some previous) record) := by
  obtain ⟨-, -, -, -, hfollow, hlegal⟩ := followsEntry_some.mp hfollows
  obtain ⟨filed, hlast, hphase⟩ := hrecalls.last
  have hsettled : ∀ commit ∈ history, commit.phase = .Committed →
      record.core.entry.phase ≠ .Committed ∧ Settles commit record.core.entry :=
    fun commit hmem hcommit => (hrecalls.committed commit hmem hcommit).follow hfollow
  refine ⟨⟨?_, ?_, ?_⟩, ⟨record, List.getLast?_concat, ?_⟩, ?_⟩
  · rw [List.map_append, List.map_singleton]
    refine h.phases.move ?_ hlegal
    rw [List.getLast?_map, hlast, ← hphase]
    rfl
  · intro before commit after hsplit hcommit later hlater
    obtain rfl | ⟨after, final, rfl⟩ := List.eq_nil_or_concat after
    · cases hlater
    · have hcut : history ++ [record] = (before ++ commit :: after) ++ [final] := by
        simpa using hsplit
      obtain ⟨rfl, hsame⟩ := List.append_inj' hcut rfl
      obtain rfl : record = final := by simpa using hsame
      obtain hlater | rfl : later ∈ after ∨ later = record := by simpa using hlater
      · exact h.committed before commit after rfl hcommit later hlater
      · exact (hsettled commit (by simp) hcommit).2
  · intro published hmem hpublished haction
    obtain hmem | hmem := List.mem_append.mp hmem
    · obtain ⟨earlier, hearlier, hreconciled⟩ := h.promoted published hmem hpublished haction
      exact ⟨earlier, List.mem_append_left _ hearlier, hreconciled⟩
    · obtain rfl := List.mem_singleton.mp hmem
      have hreconciled := reconciled_before hkept hfollow hfields hpublished haction
      refine ⟨filed, List.mem_append_left _ (List.mem_of_getLast? hlast), ?_⟩
      rw [hphase, hreconciled]
  · by_cases hcommitted : record.core.entry.phase = .Committed
    · rw [persistedEntry_of_committed hcommitted]
      rfl
    · rw [persistedEntry_of_follows hfollows hcommitted]
      rfl
  · intro commit hmem hcommit
    obtain hmem | hmem := List.mem_append.mp hmem
    · obtain ⟨hother, hsettles⟩ := hsettled commit hmem hcommit
      rw [persistedEntry_of_follows hfollows hother]
      exact hsettles
    · obtain rfl := List.mem_singleton.mp hmem
      rw [persistedEntry_of_committed hcommit]
      exact ⟨rfl, rfl, rfl⟩

-- What the entries in memory say of the log.
def OperationsRecounted (log : List ExternalMutationJournalRecordV1)
    (state : ExternalMutationJournalStateV1) : Prop :=
  ∀ operationId : String, match state.entries[operationId]? with
    | none => operationHistory operationId log = []
    | some entry => OperationCourse (operationHistory operationId log) ∧
        Recalls (operationHistory operationId log) entry

section Journal

variable [Sha256] {decoder : ExternalMutationDecoder}

theorem OperationsRecounted.accept (h : OperationsRecounted log state) (hkept : EntriesKept state)
    (haccept : state.accept record = .ok next) : OperationsRecounted (log ++ [record]) next := by
  obtain ⟨hvalid, hfollows, rfl⟩ := ExternalMutationJournalStateV1.accept_eq_ok.mp haccept
  simp only [ExternalMutationJournalRecordV1.validate, bind_unit_eq_ok] at hvalid
  have hfields := fieldsMatchPhase_of_validateEntry hvalid.2
  intro operationId
  rw [operationHistory_concat, Std.ExtTreeMap.getElem?_insert]
  by_cases hid : record.core.entry.operationId = operationId
  · subst hid
    rw [if_pos Std.ReflCmp.compare_self, if_pos rfl]
    dsimp only
    specialize h record.core.entry.operationId
    cases hprevious : state.entries[record.core.entry.operationId]? with
    | none =>
        rw [hprevious] at h hfollows
        have hphase : record.core.entry.phase = .Prepared := by simpa [followsEntry] using hfollows
        have hkeep : persistedEntry none record = record.core.entry :=
          persistedEntry_of_follows hfollows (by simp [hphase])
        rw [show operationHistory _ log = [] from h, hkeep]
        exact course_prepared hphase
    | some previous =>
        rw [hprevious] at h hfollows
        exact h.1.follow h.2 (hkept _ _ hprevious).2 hfollows hfields
  · rw [if_neg hid, if_neg fun heq => hid (Std.LawfulEqCmp.eq_of_compare heq)]
    exact h operationId

theorem operationsRecounted_of_traced
    (h : Traced (externalMutationFormat decoder) AnyRecord log state) :
    OperationsRecounted log state := by
  have hboth := h.invariant (fun log state => EntriesKept state ∧ OperationsRecounted log state)
    ⟨fun operationId entry hentry => by simp [externalMutationFormat] at hentry,
      fun operationId => by simp [externalMutationFormat, operationHistory]⟩
    (fun _ _ _ _ hboth _ haccept => ⟨hboth.1.accept haccept, hboth.2.accept hboth.1 haccept⟩)
  exact hboth.2

-- Whatever operations, faults, crashes and reopenings a run is made of.
theorem externalMutationRun_rebuilt (hdecode : ExternalMutationReadsBack decoder) (backend : Bool)
    (events : List (ChainedJournal.Event ExternalMutationOperation)) :
    ∃ log state, ChainedJournal.Rebuilt (externalMutationFormat decoder) backend
        (ExternalMutationOperation.program decoder) events log state ∧
      ∀ operationId, operationHistory operationId log ≠ [] →
        OperationCourse (operationHistory operationId log) := by
  obtain ⟨log, state, htraced, hrebuilt⟩ := ChainedJournal.run_rebuilt
    (externalMutationFormat_lawful hdecode) ⟨rfl, rfl⟩ (ExternalMutationOperation.keeps hdecode)
    ExternalMutationOperation.spares backend events
  refine ⟨log, state, hrebuilt, fun operationId hne => ?_⟩
  have hrecounted := operationsRecounted_of_traced htraced operationId
  split at hrecounted
  · exact absurd hrecounted hne
  · exact hrecounted.1

end Journal

theorem partialInv_externalMutationReadsBack :
    ExternalMutationReadsBack
      ⟨fun bytes => (Function.partialInv Value.write bytes).map Value.sortKeys,
        Function.partialInv fun record => record.toValue.sortKeys⟩ := by
  intro record
  refine ⟨?_, Function.partialInv_left canonical_externalMutationRecord record⟩
  exact congrArg (Option.map Value.sortKeys) (Function.partialInv_left write_injective _)

-- A journal that is opened, asked about an operation it does not have, and opened again.
theorem externalMutationRun_rebuilt_once :
    letI := standardSha256
    let decoder : ExternalMutationDecoder :=
      ⟨fun bytes => (Function.partialInv Value.write bytes).map Value.sortKeys,
        Function.partialInv fun record => record.toValue.sortKeys⟩
    ∃ log state, ChainedJournal.Rebuilt (externalMutationFormat decoder) true
        (ExternalMutationOperation.program decoder)
        [.Open [], .Call (.MarkRecoveryRequired "operation" 5) [], .Open []] log state ∧
      ∀ operationId, operationHistory operationId log ≠ [] →
        OperationCourse (operationHistory operationId log) :=
  letI := standardSha256
  externalMutationRun_rebuilt partialInv_externalMutationReadsBack _ _

end M1nd.Mcp
