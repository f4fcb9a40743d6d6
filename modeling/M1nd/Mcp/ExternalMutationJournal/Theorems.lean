import M1nd.Mcp.ChainedJournal.Runs
import M1nd.Mcp.ExternalMutationJournal.Operations

namespace M1nd.Mcp

open M1nd.Control
open M1nd.Library
open M1nd.Library.Checks
open M1nd.Library.Durable
open M1nd.Library.Json (Value asObject_sortKeys)
open ExternalMutationJournalStateV1 (carriesResult publishable)
open ChainedJournal (Held Left Spared Store Stored Traced Usable)

variable {decoder : ExternalMutationDecoder} {state next : ExternalMutationJournalStateV1}
  {record : ExternalMutationJournalRecordV1} {entry previous : ExternalMutationJournalEntryV1}
  {nowMs : Nat}

-- serde_json reads back every record it has written: the bytes as a value whose keys are in
-- order, and that value as the record.
def ExternalMutationReadsBack (decoder : ExternalMutationDecoder) : Prop :=
  ∀ record : ExternalMutationJournalRecordV1,
    decoder.fromSlice record.toValue.write = some record.toValue.sortKeys ∧
      decoder.fromValue record.toValue.sortKeys = some record

section Shape

variable {members : List (String × Value)} {expected : List String} {sequence : Nat}
  {context : String}

theorem requireExactFields_of_perm (hperm : (members.map Prod.fst).Perm expected) :
    requireExactFields members expected sequence context = .ok () := by
  have hmissing : (expected.filter fun field => !members.any fun member => member.1 = field) =
      [] := by
    refine List.filter_eq_nil_iff.mpr fun field hfield => ?_
    obtain ⟨member, hmember, rfl⟩ := List.mem_map.mp (hperm.mem_iff.mpr hfield)
    simpa using ⟨member.2, hmember⟩
  have hunknown : ((members.map Prod.fst).filter fun field => !expected.contains field) = [] := by
    refine List.filter_eq_nil_iff.mpr fun field hfield => ?_
    simpa using hperm.mem_iff.mp hfield
  unfold requireExactFields
  rw [hmissing, hunknown]
  simp

-- What the shape check finds in an object that was written and read back.
theorem requireObject_sortKeys (sequence : Nat) (context : String) {value : Value}
    (hvalue : value = .object members) (hkeys : members.map Prod.fst = expected) (hnodup : expected.Nodup) :
    ∃ sorted, requireObject (some value.sortKeys) sequence context = .ok sorted ∧
      requireExactFields sorted expected sequence context = .ok () ∧
      ∀ key, sorted.lookup key = (members.lookup key).map Value.sortKeys := by
  subst hvalue
  obtain ⟨sorted, hsorted, hperm, hlookup⟩ := asObject_sortKeys (by rw [hkeys]; exact hnodup)
  refine ⟨sorted, ?_, requireExactFields_of_perm (hperm.trans (.of_eq hkeys)), hlookup⟩
  unfold requireObject
  rw [Option.bind_some, hsorted]

-- Every record that the journal writes has the complete current shape.
theorem validateRecordShape_toValue (record : ExternalMutationJournalRecordV1) (sequence : Nat) :
    validateRecordShape record.toValue.sortKeys sequence = .ok () := by
  have hrecordKeys : RECORD_FIELDS.Nodup := by simp [RECORD_FIELDS]
  have hcoreKeys : CORE_FIELDS.Nodup := by simp [CORE_FIELDS]
  have hentryKeys : ENTRY_FIELDS.Nodup := by simp [ENTRY_FIELDS]
  have hprepareKeys : PREPARE_FIELDS.Nodup := by simp [PREPARE_FIELDS]
  obtain ⟨members, hrecord, hrecordFields, hcoreAt⟩ :=
    requireObject_sortKeys sequence "record" (rfl : record.toValue = _) rfl hrecordKeys
  obtain ⟨core, hcore, hcoreFields, hentryAt⟩ :=
    requireObject_sortKeys sequence "core" (rfl : record.core.toValue = _) rfl hcoreKeys
  obtain ⟨entry, hentry, hentryFields, hprepareAt⟩ :=
    requireObject_sortKeys sequence "entry" (rfl : record.core.entry.toValue = _) rfl hentryKeys
  obtain ⟨prepare, hprepare, hprepareFields, -⟩ := requireObject_sortKeys sequence "prepare"
    (rfl : record.core.entry.prepare.toValue = _) rfl hprepareKeys
  have hcoreFound : members.lookup "core" = some record.core.toValue.sortKeys := hcoreAt "core"
  have hentryFound : core.lookup "entry" = some record.core.entry.toValue.sortKeys :=
    hentryAt "entry"
  have hprepareFound : entry.lookup "prepare" = some record.core.entry.prepare.toValue.sortKeys :=
    hprepareAt "prepare"
  simp only [validateRecordShape, bind_eq_ok, exists_unit]
  refine ⟨members, hrecord, hrecordFields, core, ?_, hcoreFields, entry, ?_, hentryFields,
    prepare, ?_, hprepareFields⟩
  · rw [hcoreFound]
    exact hcore
  · rw [hentryFound]
    exact hentry
  · rw [hprepareFound]
    exact hprepare

end Shape

section Chain

variable [Sha256]

@[simp]
theorem isDigest_journalCore (core : ExternalMutationJournalRecordCoreV1) :
    isDigest core.digest = true :=
  isDigest_digestCanonical ..

theorem ExternalMutationJournalRecordV1.validate_seal
    {core : ExternalMutationJournalRecordCoreV1} :
    (ExternalMutationJournalRecordV1.seal core).validate core.sequence core.previousRecordDigest =
      validateEntry core.entry := by
  simp [ExternalMutationJournalRecordV1.validate, ExternalMutationJournalRecordV1.seal, rejectIf,
    bind, Except.bind]

theorem ExternalMutationJournalStateV1.accept_eq_ok : state.accept record = .ok next ↔
    record.validate (state.sequence + 1) state.tailDigest = .ok () ∧
      followsEntry state.entries[record.core.entry.operationId]? record.core.entry = true ∧
      next = ⟨state.sequence + 1, some record.recordDigest, state.entries.insert
        record.core.entry.operationId
        (persistedEntry state.entries[record.core.entry.operationId]? record)⟩ := by
  simp only [ExternalMutationJournalStateV1.accept, applyRecord, bind_eq_ok, exists_unit,
    rejectIf_eq_ok, pure_eq_ok, Bool.not_eq_true', Bool.not_eq_false]
  constructor
  · rintro ⟨hvalid, _, ⟨hfollows, rfl⟩, rfl⟩
    exact ⟨hvalid, hfollows, rfl⟩
  · rintro ⟨hvalid, hfollows, rfl⟩
    exact ⟨hvalid, _, ⟨hfollows, rfl⟩, rfl⟩

-- Replay is all that the writer promises.
def AnyRecord (_ : ExternalMutationJournalStateV1) (_ : ExternalMutationJournalRecordV1) : Prop :=
  True

theorem externalMutationFormat_lawful (hdecode : ExternalMutationReadsBack decoder) :
    (externalMutationFormat decoder).Lawful where
  line _ := Json.newline_not_mem_write _
  nonempty _ := Json.write_ne_nil _
  decode state record := by
    obtain ⟨hslice, hvalue⟩ := hdecode record
    change decodeExternalMutationRecord decoder state record.toValue.write = _
    simp only [decodeExternalMutationRecord, bind_eq_ok, exists_unit]
    refine ⟨record.toValue.sortKeys, ?_, validateRecordShape_toValue record _, ?_⟩
    · rw [hslice]
      rfl
    · rw [hvalue]
      rfl
  closes h := by
    obtain ⟨-, -, rfl⟩ := ExternalMutationJournalStateV1.accept_eq_ok.mp h
    exact ⟨rfl, rfl⟩

end Chain

-- In memory a committed entry also carries the digest of its commit record.
def keptFields (entry : ExternalMutationJournalEntryV1) : Bool :=
  if entry.phase = .Committed then
    entry.commitRecordDigest.isSome && fieldsMatchPhase { entry with commitRecordDigest := none }
  else fieldsMatchPhase entry

-- Entries are filed under their operation ids and filled as their phase says.
def EntriesKept (state : ExternalMutationJournalStateV1) : Prop :=
  ∀ operationId entry, state.entries[operationId]? = some entry →
    entry.operationId = operationId ∧ keptFields entry = true

theorem fieldsMatchPhase_of_validateEntry [Sha256] (h : validateEntry entry = .ok ()) :
    fieldsMatchPhase entry = true := by
  simp only [validateEntry, bind_unit_eq_ok, rejectIf_eq_ok] at h
  exact (by simpa using h.1 : entryMisshapen entry = false ∧ fieldsMatchPhase entry = true).2

section Follow

theorem commitFieldsMatch_of_follow {next : ExternalMutationJournalEntryV1}
    (h : commitFieldsFollowTransition previous next = true) (hphase : next.phase ≠ .Committed) :
    commitFieldsMatch previous next = true := by
  unfold commitFieldsFollowTransition at h
  split at h <;> simp_all

theorem followsEntry_some {next : ExternalMutationJournalEntryV1} :
    followsEntry (some previous) next = true ↔
      previous.reservationId = next.reservationId ∧ previous.leaseId = next.leaseId ∧
      previous.authorizationSnapshotDigest = next.authorizationSnapshotDigest ∧
      previous.prepare = next.prepare ∧ commitFieldsFollowTransition previous next = true ∧
      legalTransition previous.phase next.phase = true := by
  simp [followsEntry, and_assoc]

-- A record of a later phase repeats the digest of the commit record.
theorem persistedEntry_of_follows {before : Option ExternalMutationJournalEntryV1}
    (hfollows : followsEntry before record.core.entry = true)
    (hphase : record.core.entry.phase ≠ .Committed) :
    persistedEntry before record = record.core.entry := by
  unfold persistedEntry
  rw [if_neg hphase]
  cases before with
  | none => rfl
  | some previous =>
      obtain ⟨-, -, -, -, hfields, -⟩ := followsEntry_some.mp hfollows
      have hmatch := commitFieldsMatch_of_follow hfields hphase
      simp only [commitFieldsMatch, Bool.and_eq_true, decide_eq_true_eq] at hmatch
      dsimp only
      rw [← hmatch.1.2]

theorem persistedEntry_of_committed {before : Option ExternalMutationJournalEntryV1}
    (hphase : record.core.entry.phase = .Committed) :
    persistedEntry before record =
      { record.core.entry with commitRecordDigest := some record.recordDigest } := by
  unfold persistedEntry
  rw [if_pos hphase]

theorem keptFields_persisted {before : Option ExternalMutationJournalEntryV1}
    (hfollows : followsEntry before record.core.entry = true)
    (hfields : fieldsMatchPhase record.core.entry = true) :
    keptFields (persistedEntry before record) = true := by
  by_cases hphase : record.core.entry.phase = .Committed
  · rw [persistedEntry_of_committed hphase]
    have hnone : record.core.entry.commitRecordDigest = none := by
      unfold fieldsMatchPhase at hfields
      rw [hphase] at hfields
      simp_all
    unfold keptFields
    rw [if_pos hphase]
    dsimp only
    rw [← hnone, hfields]
    rfl
  · rw [persistedEntry_of_follows hfollows hphase]
    unfold keptFields
    rw [if_neg hphase]
    exact hfields

end Follow

section Kept

variable [Sha256]

theorem EntriesKept.accept (h : EntriesKept state) (haccept : state.accept record = .ok next) :
    EntriesKept next := by
  obtain ⟨hvalid, hfollows, rfl⟩ := ExternalMutationJournalStateV1.accept_eq_ok.mp haccept
  simp only [ExternalMutationJournalRecordV1.validate, bind_unit_eq_ok] at hvalid
  have hfields := fieldsMatchPhase_of_validateEntry hvalid.2
  intro operationId entry hentry
  simp only [Std.ExtTreeMap.getElem?_insert] at hentry
  split at hentry
  · rename_i heq
    obtain rfl := Option.some.inj hentry
    refine ⟨?_, keptFields_persisted hfollows hfields⟩
    rw [← Std.LawfulEqCmp.eq_of_compare heq]
    by_cases hphase : record.core.entry.phase = .Committed
    · rw [persistedEntry_of_committed hphase]
    · rw [persistedEntry_of_follows hfollows hphase]
  · exact h operationId entry hentry

theorem entriesKept_of_traced {log : List ExternalMutationJournalRecordV1}
    (h : Traced (externalMutationFormat decoder) AnyRecord log state) : EntriesKept state :=
  h.invariant (fun _ state => EntriesKept state)
    (fun operationId entry hentry => by simp [externalMutationFormat] at hentry)
    (fun _ _ _ _ hkept _ haccept => hkept.accept haccept)

omit [Sha256] in
theorem EntriesKept.found {code operationId : String} (hkept : EntriesKept state)
    (h : findEntry state code operationId = .ok entry) :
    state.entries[entry.operationId]? = some entry ∧ keptFields entry = true := by
  unfold findEntry at h
  cases hfound : state.entries[operationId]? with
  | none =>
      rw [hfound] at h
      cases h
  | some found =>
      rw [hfound] at h
      obtain rfl := Except.ok.inj h
      obtain ⟨rfl, hfields⟩ := hkept operationId found hfound
      exact ⟨hfound, hfields⟩

end Kept

-- What an operation appends follows the entry it was decided from, and what the operation
-- leaves in memory is what replay keeps.

section Plans

variable {operationId : String} {prepare : ExternalMutationPrepareV1}
  {receipt : BrainPromoteReconciliationReceiptV1} {result : ExternalMutationPublishedResultV1}
  {reservation : AuthorizationReservationV1} {snapshotDigest outcomeDigest : String}
  {recordedAt committedAt : Nat}

theorem follows_filed {next : ExternalMutationJournalEntryV1}
    (hfiled : state.entries[previous.operationId]? = some previous)
    (hid : next.operationId = previous.operationId)
    (hfollows : followsEntry (some previous) next = true) :
    followsEntry state.entries[next.operationId]? next = true := by
  rw [hid, hfiled]
  exact hfollows

variable [Sha256]

theorem prepare_follows
    (h : state.prepare reservation snapshotDigest prepare nowMs = .ok (some (entry, recordedAt))) :
    entry.phase = .Prepared ∧ followsEntry state.entries[entry.operationId]? entry = true := by
  simp only [ExternalMutationJournalStateV1.prepare, bind_unit_eq_ok, rejectIf_eq_ok, pure_eq_ok,
    Option.some.injEq, Prod.mk.injEq] at h
  obtain ⟨-, hfresh, rfl, rfl⟩ := h
  refine ⟨rfl, ?_⟩
  have hnone := Option.not_isSome_iff_eq_none.mp hfresh
  rw [hnone]
  rfl

omit [Sha256] in
theorem commit_follows (hkept : EntriesKept state)
    (h : state.commit operationId outcomeDigest committedAt = .ok (some (entry, recordedAt))) :
    entry.phase = .Committed ∧ followsEntry state.entries[entry.operationId]? entry = true := by
  simp only [ExternalMutationJournalStateV1.commit, bind_eq_ok, exists_unit, rejectIf_eq_ok,
    pure_eq_ok, Option.some.injEq, Prod.mk.injEq, not_not] at h
  obtain ⟨-, previous, hfound, hphase, rfl, rfl⟩ := h
  obtain ⟨hfiled, hfields⟩ := hkept.found hfound
  refine ⟨rfl, follows_filed hfiled rfl (followsEntry_some.mpr ⟨rfl, rfl, rfl, rfl, ?_, ?_⟩)⟩
  · simp only [keptFields, hphase, reduceCtorEq, if_false, fieldsMatchPhase, Bool.and_eq_true,
      Option.isNone_iff_eq_none] at hfields
    obtain ⟨⟨⟨⟨houtcome, hdigest⟩, hat⟩, hresult⟩, hreceipt⟩ := hfields
    simp [commitFieldsFollowTransition, hphase, noCommitFields, noResultFields, noReceiptFields,
      houtcome, hdigest, hat, hresult, hreceipt]
  · rw [hphase]
    rfl

-- An operation that is committed but not settled carries no result and no receipt.
omit [Sha256] in
theorem unsettled_fields (hfields : keptFields previous = true)
    (hphase : previous.phase = .Committed ∨ previous.phase = .RecoveryRequired) :
    noResultFields previous = true ∧ noReceiptFields previous = true := by
  obtain hphase | hphase := hphase
  · simp_all [keptFields, fieldsMatchPhase, noResultFields, noReceiptFields]
  · simp_all [keptFields, fieldsMatchPhase, noResultFields, noReceiptFields]

theorem markReconciled_follows (hkept : EntriesKept state)
    (h : state.markReconciled operationId receipt result nowMs = .ok (some (entry, recordedAt))) :
    entry.phase = .Reconciled ∧ followsEntry state.entries[entry.operationId]? entry = true := by
  simp only [ExternalMutationJournalStateV1.markReconciled, bind_eq_ok] at h
  obtain ⟨previous, hfound, h⟩ := h
  obtain ⟨hfiled, hfields⟩ := hkept.found hfound
  split at h
  · simp only [bind_unit_eq_ok, pure_eq_ok, reduceCtorEq, and_false] at h
  · simp only [bind_unit_eq_ok, rejectIf_eq_ok, pure_eq_ok, Option.some.injEq, Prod.mk.injEq] at h
    obtain ⟨hphase, -, -, rfl, rfl⟩ := h
    have hphase : previous.phase = .Committed ∨ previous.phase = .RecoveryRequired := by tauto
    obtain ⟨hresult, hreceipt⟩ := unsettled_fields hfields hphase
    refine ⟨rfl, follows_filed hfiled rfl (followsEntry_some.mpr ⟨rfl, rfl, rfl, rfl, ?_, ?_⟩)⟩
    · obtain hphase | hphase := hphase <;>
        simp [commitFieldsFollowTransition, ExternalMutationJournalStateV1.reconciledEntry, hphase,
          commitFieldsMatch, resultFields, receiptFields, hresult, hreceipt]
    · obtain hphase | hphase := hphase <;> rw [hphase] <;> rfl

omit [Sha256] in
theorem publishable_phase (h : publishable previous = true) :
    previous.phase = .Reconciled ∨
      previous.phase = .Committed ∨ previous.phase = .RecoveryRequired := by
  unfold publishable at h
  split at h
  · simp only [Bool.and_eq_true, decide_eq_true_eq] at h
    exact .inl h.1.1
  · simp only [Bool.or_eq_true, Bool.and_eq_true, decide_eq_true_eq] at h
    exact .inr (h.imp_right fun h => h.1.1)

theorem markPublished_follows (hkept : EntriesKept state)
    (h : state.markPublished operationId result nowMs = .ok (some (entry, recordedAt))) :
    entry.phase = .Published ∧ followsEntry state.entries[entry.operationId]? entry = true := by
  simp only [ExternalMutationJournalStateV1.markPublished, bind_eq_ok, exists_unit] at h
  obtain ⟨previous, hfound, -, h⟩ := h
  obtain ⟨hfiled, hfields⟩ := hkept.found hfound
  split at h
  · simp only [bind_unit_eq_ok, pure_eq_ok, reduceCtorEq, and_false] at h
  · simp only [bind_unit_eq_ok, rejectIf_eq_ok, pure_eq_ok, Option.some.injEq, Prod.mk.injEq] at h
    obtain ⟨hcarries, hpublishable, rfl, rfl⟩ := h
    have hpublishable : publishable previous = true := by simpa using hpublishable
    obtain hphase | hphase := publishable_phase hpublishable
    · have hresult : carriesResult previous result = true := by simpa [hphase] using hcarries
      simp only [carriesResult, Bool.and_eq_true, decide_eq_true_eq] at hresult
      refine ⟨rfl, follows_filed hfiled rfl (followsEntry_some.mpr ⟨rfl, rfl, rfl, rfl, ?_, ?_⟩)⟩
      · simp [commitFieldsFollowTransition, hphase, commitFieldsMatch, sameReceipt, sameResult,
          hresult]
      · rw [hphase]
        rfl
    · obtain ⟨hresult, -⟩ := unsettled_fields hfields hphase
      refine ⟨rfl, follows_filed hfiled rfl (followsEntry_some.mpr ⟨rfl, rfl, rfl, rfl, ?_, ?_⟩)⟩
      · obtain hphase | hphase := hphase <;>
          simp [commitFieldsFollowTransition, hphase, commitFieldsMatch, sameReceipt, resultFields,
            hresult]
      · obtain hphase | hphase := hphase <;> rw [hphase] <;> rfl

omit [Sha256] in
theorem markRecoveryRequired_follows (hkept : EntriesKept state)
    (h : state.markRecoveryRequired operationId nowMs = .ok (some (entry, recordedAt))) :
    entry.phase = .RecoveryRequired ∧
      followsEntry state.entries[entry.operationId]? entry = true := by
  simp only [ExternalMutationJournalStateV1.markRecoveryRequired, bind_eq_ok, exists_unit,
    rejectIf_eq_ok, pure_eq_ok, Option.some.injEq, Prod.mk.injEq] at h
  obtain ⟨previous, hfound, hphase, rfl, rfl⟩ := h
  obtain ⟨hfiled, -⟩ := hkept.found hfound
  have hphase : previous.phase = .Committed ∨ previous.phase = .RecoveryRequired := by
    simp only [not_and_or, not_not, Bool.not_eq_true', Bool.not_eq_false, Bool.and_eq_true,
      decide_eq_true_eq] at hphase
    exact hphase.imp_right fun hphase => hphase.1.1
  refine ⟨rfl, follows_filed hfiled rfl (followsEntry_some.mpr ⟨rfl, rfl, rfl, rfl, ?_, ?_⟩)⟩
  · obtain hphase | hphase := hphase <;>
      simp [commitFieldsFollowTransition, hphase, commitFieldsMatch, sameReceipt, sameResult]
  · obtain hphase | hphase := hphase <;> rw [hphase] <;> rfl

end Plans

section Operation

variable [Sha256] {operation : ExternalMutationOperation} {recordedAt : Nat}

theorem ExternalMutationOperation.plan_follows (hkept : EntriesKept state)
    (h : operation.plan state = .ok (some (entry, recordedAt))) :
    followsEntry state.entries[entry.operationId]? entry = true ∧
      operation.keep (externalMutationRecord state entry recordedAt).recordDigest entry =
        persistedEntry state.entries[entry.operationId]? (externalMutationRecord state entry recordedAt) := by
  have hkeep : ∀ {phase}, entry.phase = phase ∧
      followsEntry state.entries[entry.operationId]? entry = true → phase ≠ .Committed →
      followsEntry state.entries[entry.operationId]? entry = true ∧ entry =
        persistedEntry state.entries[entry.operationId]? (externalMutationRecord state entry recordedAt) := by
    rintro phase ⟨hphase, hfollows⟩ hother
    have hlater : (externalMutationRecord state entry recordedAt).core.entry.phase ≠ .Committed := by
      rw [← hphase] at hother
      exact hother
    exact ⟨hfollows, (persistedEntry_of_follows hfollows hlater).symm⟩
  cases operation with
  | Prepare reservation digest prepare nowMs => exact hkeep (prepare_follows h) nofun
  | Commit operationId digest committedAt =>
      obtain ⟨hphase, hfollows⟩ := commit_follows hkept h
      have hcommitted : (externalMutationRecord state entry recordedAt).core.entry.phase = .Committed :=
        hphase
      exact ⟨hfollows, (persistedEntry_of_committed hcommitted).symm⟩
  | MarkReconciled operationId receipt result nowMs =>
      exact hkeep (markReconciled_follows hkept h) nofun
  | MarkPublished operationId result nowMs => exact hkeep (markPublished_follows hkept h) nofun
  | MarkRecoveryRequired operationId nowMs =>
      exact hkeep (markRecoveryRequired_follows hkept h) nofun

-- The state once the record of an entry is durable.
def ExternalMutationJournalStateV1.filed (state : ExternalMutationJournalStateV1)
    (operation : ExternalMutationOperation) (entry : ExternalMutationJournalEntryV1)
    (nowMs : Nat) : ExternalMutationJournalStateV1 :=
  ⟨state.sequence + 1, some (externalMutationRecord state entry nowMs).recordDigest,
    state.entries.insert entry.operationId
      (operation.keep (externalMutationRecord state entry nowMs).recordDigest entry)⟩

-- What an operation leaves: the log as it was, or the record of the entry it decided on.
inductive EntryMoved (operation : ExternalMutationOperation)
    (state : ExternalMutationJournalStateV1) (log : List ExternalMutationJournalRecordV1) :
    List ExternalMutationJournalRecordV1 → ExternalMutationJournalStateV1 → Prop
  | Same : EntryMoved operation state log log state
  | Append {entry : ExternalMutationJournalEntryV1} {nowMs : Nat}
      (hplan : operation.plan state = .ok (some (entry, nowMs)))
      (hvalid : validateEntry entry = .ok ()) :
      EntryMoved operation state log (log ++ [externalMutationRecord state entry nowMs])
        (state.filed operation entry nowMs)

variable {world : ExternalMutationWorld} {log log' : List ExternalMutationJournalRecordV1}

theorem EntryMoved.grows (h : EntryMoved operation state log log' next) : log <+: log' := by
  cases h with
  | Same => exact List.prefix_refl _
  | Append _ _ => exact List.prefix_append _ _

theorem chainEntry_eq_ok {keep} {sealed : ExternalMutationJournalRecordV1}
    (h : chainEntry keep entry nowMs state = .ok (sealed, next)) :
    validateEntry entry = .ok () ∧ sealed = externalMutationRecord state entry nowMs ∧
      next = ⟨state.sequence + 1, some (externalMutationRecord state entry nowMs).recordDigest,
        state.entries.insert entry.operationId
          (keep (externalMutationRecord state entry nowMs).recordDigest entry)⟩ := by
  simp only [chainEntry, bind_unit_eq_ok, pure_eq_ok, Prod.mk.injEq] at h
  exact ⟨h.1, h.2.1.symm, h.2.2.symm⟩

abbrev ExternalMutationHeld (decoder : ExternalMutationDecoder) (world : ExternalMutationWorld)
    (log : List ExternalMutationJournalRecordV1) (state : ExternalMutationJournalStateV1) : Prop :=
  Held (externalMutationFormat decoder) AnyRecord world log state

abbrev ExternalMutationLeft (decoder : ExternalMutationDecoder) {α : Type}
    (o : Outcome ExternalMutationJournalError α) (after : ExternalMutationWorld)
    (log : List ExternalMutationJournalRecordV1) (state : ExternalMutationJournalStateV1) : Prop :=
  Left (externalMutationFormat decoder) AnyRecord o after log state

-- What an operation that has appended answers.
def Answers (operation : ExternalMutationOperation) (state : ExternalMutationJournalStateV1)
    (o : Outcome ExternalMutationJournalError (Option (ExternalMutationJournalEntryV1 × String)))
    (next : ExternalMutationJournalStateV1) : Prop :=
  ∀ filed digest, o = .returned (some (filed, digest)) →
    ∃ entry nowMs, operation.plan state = .ok (some (entry, nowMs)) ∧
      next = state.filed operation entry nowMs ∧ filed = operation.keep digest entry ∧
      digest = (externalMutationRecord state entry nowMs).recordDigest

theorem ExternalMutationOperation.program_always (hdecode : ExternalMutationReadsBack decoder)
    (h : ExternalMutationHeld decoder world log state) (operation : ExternalMutationOperation) :
    Always (operation.program decoder) world fun o after =>
      ∃ log' state', ExternalMutationLeft decoder o after log' state' ∧
        EntryMoved operation state log log' state' ∧ Answers operation state o state' := by
  refine .bind (.get (.bind (.check ?_ fun error _ => ⟨log, state, h, .Same, by simp [Answers]⟩)))
  rintro (_ | ⟨entry, nowMs⟩) hplan
  · exact .pure ⟨log, state, h, .Same, by simp [Answers]⟩
  · have hkept := entriesKept_of_traced h.stored.traced
    have hdecided : world.handle.poisoned = false →
        operation.plan state = .ok (some (entry, nowMs)) := by
      intro hlive
      rw [← (h.synced hlive).state]
      exact hplan
    refine .bind ((ChainedJournal.append_always (externalMutationFormat_lawful hdecode) h
      ?_).mono ?_)
    · intro record next hlive hmake
      obtain ⟨hvalid, rfl, rfl⟩ := chainEntry_eq_ok hmake
      obtain ⟨hfollows, hkeep⟩ := plan_follows hkept (hdecided hlive)
      refine ⟨ExternalMutationJournalStateV1.accept_eq_ok.mpr ⟨?_, hfollows, ?_⟩, trivial⟩
      · exact ExternalMutationJournalRecordV1.validate_seal.trans hvalid
      · rw [hkeep]
        rfl
    · rintro (record | error | _) after happended
      · obtain ⟨next, hlive, hmake, hheld, -⟩ := happended
        obtain ⟨hvalid, rfl, rfl⟩ := chainEntry_eq_ok hmake
        refine .pure ⟨_, _, hheld, .Append (hdecided hlive) hvalid, ?_⟩
        rintro _ _ ⟨⟩
        exact ⟨entry, nowMs, hdecided hlive, rfl, rfl, rfl⟩
      · obtain hleft | ⟨record, next, hlive, hmake, hleft⟩ := happended
        · exact ⟨_, _, hleft, .Same, by simp [Answers]⟩
        · obtain ⟨hvalid, rfl, rfl⟩ := chainEntry_eq_ok hmake
          exact ⟨_, _, hleft, .Append (hdecided hlive) hvalid, by simp [Answers]⟩
      · obtain hleft | ⟨record, next, hlive, hmake, hleft⟩ := happended
        · exact ⟨_, _, hleft, .Same, by simp [Answers]⟩
        · obtain ⟨hvalid, rfl, rfl⟩ := chainEntry_eq_ok hmake
          exact ⟨_, _, hleft, .Append (hdecided hlive) hvalid, by simp [Answers]⟩

theorem ExternalMutationOperation.keeps (hdecode : ExternalMutationReadsBack decoder)
    (operation : ExternalMutationOperation) :
    ChainedJournal.Keeps (externalMutationFormat decoder) AnyRecord (operation.program decoder) := by
  intro world log state h
  refine (operation.program_always hdecode h).mono ?_
  rintro o after ⟨log', state', hleft, hmoved, -⟩
  exact ⟨log', state', hleft, hmoved.grows⟩

theorem ExternalMutationOperation.spares (operation : ExternalMutationOperation) :
    ChainedJournal.Spares (externalMutationFormat decoder) AnyRecord
      (operation.program decoder) := by
  intro world log state h husable
  refine .bind (.get (.bind (.check ?_ fun error _ => .idle husable nofun)))
  rintro (_ | ⟨entry, nowMs⟩) _
  · exact .pure (.idle husable nofun)
  · refine .bind ((ChainedJournal.append_calm h husable).mono ?_)
    rintro (record | error | _) after hspared
    · exact .pure (hspared.trans (.idle hspared.2.1 nofun))
    · exact hspared.trans (.idle hspared.2.1 nofun)
    · exact absurd rfl hspared.1

end Operation

end M1nd.Mcp
