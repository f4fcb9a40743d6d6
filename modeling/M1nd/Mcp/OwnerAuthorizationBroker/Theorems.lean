import M1nd.Mcp.ChainedJournal.Theorems
import M1nd.Mcp.OwnerAuthorizationBroker.Operations

namespace M1nd.Mcp

open M1nd.Control
open M1nd.Library.Checks
open M1nd.Library.Durable
open ChainedJournal (Held Left Stored Traced)

-- A lease keeps what it was issued with, and its reservation once it has one.
structure OwnerAuthorizationLeaseV1.Continues (next previous : OwnerAuthorizationLeaseV1) :
    Prop where
  authorizationReceipt : next.authorizationReceipt = previous.authorizationReceipt
  issuedAt : next.issuedAt = previous.issuedAt
  expiresAt : next.expiresAt = previous.expiresAt
  retainUntil : next.retainUntil = previous.retainUntil
  reservation : ∀ reservation, previous.reservation = some reservation →
    next.reservation = some reservation

def OwnerAuthorizationLeaseV1.Ended (lease : OwnerAuthorizationLeaseV1) : Prop :=
  lease.state = .Consumed ∨ lease.state = .Aborted

-- What the broker promises of each record beyond what replay checks.
def BrokerLegal (state : BrokerStateV1) (record : BrokerJournalRecordV1) : Prop :=
  ∀ previous, state.leases[record.core.leaseId]? = some previous →
    match record.core.lease with
    | none => previous.Ended ∧ previous.retainUntil ≤ record.core.recordedAt
    | some lease => lease.Continues previous

-- What replay asks of a snapshot that follows the leases of the state.
def Follows (state : BrokerStateV1) (kind : BrokerJournalEventKindV1)
    (lease : OwnerAuthorizationLeaseV1) : Prop :=
  match state.leases[lease.leaseId]? with
  | none => kind = .Issued ∧ lease.state = .Unused
  | some previous => lease.revision = previous.revision + 1 ∧
      legalLeaseTransition previous.state lease.state kind = true

-- The leases of a state are filed under their ids, and each has the shape of its state.
def WellKept (state : BrokerStateV1) : Prop :=
  ∀ leaseId lease, state.leases[leaseId]? = some lease →
    lease.leaseId = leaseId ∧ validateLeaseShape lease = .ok ()

variable {state next : BrokerStateV1} {lease previous : OwnerAuthorizationLeaseV1}
  {kind : BrokerJournalEventKindV1} {leaseId : String} {nowMs : Nat}

theorem not_isBlank_of_shape (h : validateLeaseShape lease = .ok ()) :
    isBlank lease.leaseId = false := by
  simp only [validateLeaseShape, bind_unit_eq_ok, rejectIf_eq_ok, not_or] at h
  simpa using h.1.2.1

theorem stateShape_of_shape (h : validateLeaseShape lease = .ok ()) : stateShape lease = true := by
  simp only [validateLeaseShape, bind_unit_eq_ok, rejectIf_eq_ok, not_or] at h
  simpa using h.2.2.1

-- A lease without a reservation is not reserved, and the other way round.
theorem reservation_of_shape (h : validateLeaseShape lease = .ok ()) :
    lease.reservation = none ↔ lease.state = .Unused := by
  have hshape := stateShape_of_shape h
  unfold stateShape at hshape
  cases hstate : lease.state <;> cases hreservation : lease.reservation <;>
    simp_all

theorem findLease_eq_ok : findLease state leaseId = .ok lease ↔
    state.leases[leaseId]? = some lease := by
  unfold findLease
  cases state.leases[leaseId]? <;> simp

section Chain

variable [Sha256] {record : BrokerJournalRecordV1}

@[simp]
theorem isDigest_core (core : BrokerJournalRecordCoreV1) : isDigest core.digest = true :=
  isDigest_digestCanonical ..

theorem BrokerJournalRecordV1.validate_seal {core : BrokerJournalRecordCoreV1} :
    (BrokerJournalRecordV1.seal core).validate core.sequence core.previousRecordDigest = .ok () ↔
      isBlank core.leaseId = false ∧
        (core.eventKind = .GcTombstone ↔ core.lease = none) := by
  unfold BrokerJournalRecordV1.validate
  obtain ⟨sequence, kind, leaseId, lease, previous, recordedAt⟩ := core
  cases kind <;> cases lease <;> simp [BrokerJournalRecordV1.seal, bind_unit_eq_ok]

theorem accept_eq_ok : state.accept record = .ok next ↔
    record.validate (state.sequence + 1) state.tailDigest = .ok () ∧
      ∃ leases, applyReplayedRecord state.leases record = .ok leases ∧
        next = ⟨state.sequence + 1, some record.recordDigest, leases⟩ := by
  simp only [BrokerStateV1.accept, bind_eq_ok, exists_unit, pure_eq_ok]
  constructor
  · rintro ⟨hvalid, leases, happly, rfl⟩
    exact ⟨hvalid, leases, happly, rfl⟩
  · rintro ⟨hvalid, leases, happly, rfl⟩
    exact ⟨hvalid, leases, happly, rfl⟩

omit [Sha256] in
-- A replayed record either takes an ended lease out or files the next snapshot of one.
theorem applyReplayedRecord_eq_ok {leases : BTreeMap OwnerAuthorizationLeaseV1}
    (h : applyReplayedRecord state.leases record = .ok leases) :
    (record.core.eventKind = .GcTombstone ∧ leases = state.leases.erase record.core.leaseId ∧
      ∃ lease, state.leases[record.core.leaseId]? = some lease) ∨
    (record.core.eventKind ≠ .GcTombstone ∧ ∃ lease, record.core.lease = some lease ∧
      lease.leaseId = record.core.leaseId ∧ validateLeaseShape lease = .ok () ∧
      Follows state record.core.eventKind lease ∧
      leases = state.leases.insert lease.leaseId lease) := by
  unfold applyReplayedRecord at h
  split at h
  · rename_i hkind
    simp only [bind_unit_eq_ok, rejectIf_eq_ok, pure_eq_ok, Option.isNone_iff_eq_none] at h
    obtain ⟨hknown, rfl⟩ := h
    exact .inl ⟨hkind, rfl, Option.ne_none_iff_exists'.mp hknown⟩
  · cases h
  · rename_i kind lease hlease hkind
    simp only [bind_unit_eq_ok, rejectIf_eq_ok, not_not] at h
    obtain ⟨hshape, hid, hfollows⟩ := h
    refine .inr ⟨hkind, lease, hlease, hid, hshape, ?_⟩
    unfold Follows
    cases hprevious : state.leases[lease.leaseId]? with
    | none =>
        simp only [hprevious, bind_unit_eq_ok, rejectIf_eq_ok, pure_eq_ok, not_or, not_not]
          at hfollows
        exact ⟨hfollows.1, hfollows.2.symm⟩
    | some previous =>
        simp only [hprevious, bind_unit_eq_ok, rejectIf_eq_ok, pure_eq_ok, not_not,
          Bool.not_eq_true', Bool.not_eq_false] at hfollows
        exact ⟨⟨hfollows.1, hfollows.2.1⟩, hfollows.2.2.symm⟩

theorem WellKept.accept (h : WellKept state) (haccept : state.accept record = .ok next) :
    WellKept next := by
  obtain ⟨-, leases, happly, rfl⟩ := accept_eq_ok.mp haccept
  intro leaseId lease hlease
  obtain ⟨-, rfl, -⟩ | ⟨-, filed, -, -, hshape, -, rfl⟩ := applyReplayedRecord_eq_ok happly
  · simp only [Std.ExtTreeMap.getElem?_erase] at hlease
    split at hlease
    · cases hlease
    · exact h leaseId lease hlease
  · simp only [Std.ExtTreeMap.getElem?_insert] at hlease
    split at hlease
    · rename_i heq
      obtain rfl := Option.some.inj hlease
      exact ⟨Std.LawfulEqCmp.eq_of_compare heq, hshape⟩
    · exact h leaseId lease hlease

-- What replay asks of the record of a snapshot, or of a tombstone, that the broker chains.

theorem accept_snapshot (hshape : validateLeaseShape lease = .ok ())
    (hkind : kind ≠ .GcTombstone) (hfollows : Follows state kind lease) :
    state.accept (brokerRecord state kind lease.leaseId (some lease) nowMs) =
      .ok ⟨state.sequence + 1,
        some (brokerRecord state kind lease.leaseId (some lease) nowMs).recordDigest,
        state.leases.insert lease.leaseId lease⟩ := by
  refine accept_eq_ok.mpr ⟨?_, _, ?_, rfl⟩
  · refine BrokerJournalRecordV1.validate_seal.mpr ⟨not_isBlank_of_shape hshape, ?_⟩
    simpa using hkind
  · unfold applyReplayedRecord
    split
    · rename_i htombstone
      exact absurd htombstone hkind
    · rename_i hnone _
      cases hnone
    · rename_i filed hlease _
      obtain rfl : lease = filed := Option.some.inj hlease
      unfold Follows at hfollows
      simp only [bind_unit_eq_ok, rejectIf_eq_ok, hshape, true_and]
      refine ⟨fun h => h rfl, ?_⟩
      cases hprevious : state.leases[lease.leaseId]? with
      | none =>
          simp only [hprevious] at hfollows
          simp only [bind_unit_eq_ok, rejectIf_eq_ok, pure_eq_ok]
          exact ⟨by simpa [brokerRecord, BrokerJournalRecordV1.seal] using hfollows, trivial⟩
      | some previous =>
          simp only [hprevious] at hfollows
          simp only [bind_unit_eq_ok, rejectIf_eq_ok, pure_eq_ok]
          exact ⟨fun h => h hfollows.1,
            by simpa [brokerRecord, BrokerJournalRecordV1.seal] using hfollows.2, trivial⟩

theorem accept_tombstone (hblank : isBlank leaseId = false)
    (hknown : state.leases[leaseId]? = some lease) :
    state.accept (brokerRecord state .GcTombstone leaseId none nowMs) =
      .ok ⟨state.sequence + 1, some (brokerRecord state .GcTombstone leaseId none nowMs).recordDigest,
        state.leases.erase leaseId⟩ := by
  refine accept_eq_ok.mpr ⟨BrokerJournalRecordV1.validate_seal.mpr ⟨hblank, by simp⟩, _, ?_, rfl⟩
  simp [applyReplayedRecord, brokerRecord, BrokerJournalRecordV1.seal, hknown, rejectIf, bind,
    Except.bind, pure, Except.pure]

end Chain

-- What each operation appends fits the state it was decided from.
structure Fits (state : BrokerStateV1) (kind : BrokerJournalEventKindV1)
    (lease : OwnerAuthorizationLeaseV1) : Prop where
  snapshot : kind ≠ .GcTombstone
  follows : Follows state kind lease
  continues : ∀ previous, state.leases[lease.leaseId]? = some previous → lease.Continues previous

section Plans

variable {current : OwnerAuthorizationLeaseV1} {reservation : AuthorizationReservationV1}
  {runtime : AuthorityRuntimeStateCoreV1} {requireUnexpired : Bool}

theorem WellKept.found (hkept : WellKept state) (h : findLease state leaseId = .ok lease) :
    lease.leaseId = leaseId ∧ state.leases[lease.leaseId]? = some lease := by
  have hfound := findLease_eq_ok.mp h
  obtain ⟨hid, -⟩ := hkept _ _ hfound
  exact ⟨hid, by rw [hid]; exact hfound⟩

theorem exactReserved_eq_ok
    (h : exactReserved state reservation nowMs requireUnexpired = .ok lease) :
    findLease state reservation.leaseId = .ok lease ∧ lease.state = .Reserved ∧
      lease.reservation = some reservation := by
  simp only [exactReserved, bind_eq_ok, exists_unit, rejectIf_eq_ok, pure_eq_ok, not_or,
    not_not] at h
  obtain ⟨_, hfound, ⟨hstate, hreservation, -⟩, rfl⟩ := h
  exact ⟨hfound, hstate, hreservation⟩

theorem validateForFinalization_eq_ok
    (h : validateForFinalization state reservation runtime nowMs = .ok lease) :
    findLease state reservation.leaseId = .ok lease ∧ lease.state = .Reserved ∧
      lease.reservation = some reservation := by
  simp only [validateForFinalization, bind_eq_ok, exists_unit, pure_eq_ok] at h
  obtain ⟨_, hexact, -, -, rfl⟩ := h
  exact exactReserved_eq_ok hexact

-- The next snapshot of a lease that is on file.
theorem Fits.following (hfiled : state.leases[current.leaseId]? = some current)
    (hid : lease.leaseId = current.leaseId) (hrevision : lease.revision = current.revision + 1)
    (hlegal : legalLeaseTransition current.state lease.state kind = true)
    (hcontinues : lease.Continues current) : Fits state kind lease := by
  refine ⟨?_, ?_, ?_⟩
  · rintro rfl
    cases hstate : current.state <;> cases hnext : lease.state <;>
      simp [legalLeaseTransition, hstate, hnext] at hlegal
  · unfold Follows
    rw [hid, hfiled]
    exact ⟨hrevision, hlegal⟩
  · intro previous hprevious
    rw [hid, hfiled] at hprevious
    cases hprevious
    exact hcontinues

theorem Fits.ended (hfiled : state.leases[current.leaseId]? = some current)
    (hreserved : current.state = .Reserved) {terminal : AuthorizationTerminalV1}
    {snapshot : Option AuthorizationFinalizationSnapshotV1} {last : AuthorizationLeaseStateV1}
    (hlegal : legalLeaseTransition .Reserved last kind = true) :
    Fits state kind (Mcp.ended last terminal { current with finalizationSnapshot := snapshot }) :=
  .following hfiled rfl rfl (by rw [hreserved]; exact hlegal) ⟨rfl, rfl, rfl, rfl, fun _ h => h⟩

theorem abortReservedLocked_fits {reason : String}
    (hfiled : state.leases[current.leaseId]? = some current)
    (hreserved : current.state = .Reserved)
    (h : abortReservedLocked current reason nowMs = .ok (.Append kind lease)) :
    Fits state kind lease ∧ kind = .Aborted ∧ lease.leaseId = current.leaseId ∧
      lease.reservation = current.reservation := by
  simp only [abortReservedLocked, bind_unit_eq_ok, pure_eq_ok, LeaseMove.Append.injEq] at h
  obtain ⟨-, rfl, rfl⟩ := h
  exact ⟨.ended hfiled hreserved rfl, rfl, rfl, rfl⟩

section

variable [Sha256] {config : OwnerAuthorizationBrokerConfigV1} {receipt : AuthorityAuthorizationReceiptV1}
  {session context object : String} {transactionId : Option String}

omit [Sha256] in
theorem issue_fits (h : state.issue config leaseId receipt nowMs = .ok (.Append kind lease)) :
    Fits state kind lease := by
  simp only [BrokerStateV1.issue, bind_unit_eq_ok, rejectIf_eq_ok, pure_eq_ok,
    LeaseMove.Append.injEq] at h
  obtain ⟨-, hfresh, rfl, rfl⟩ := h
  have hnone : state.leases[leaseId]? = none := by simpa using hfresh
  refine ⟨nofun, ?_, ?_⟩
  · unfold Follows
    rw [hnone]
    exact ⟨rfl, rfl⟩
  · intro previous hprevious
    rw [hnone] at hprevious
    cases hprevious

theorem reserveBoundOperation_fits (hkept : WellKept state)
    (h : state.reserveBoundOperation config leaseId session context object transactionId nowMs =
      .ok (.Append kind lease)) : Fits state kind lease := by
  simp only [BrokerStateV1.reserveBoundOperation, bind_eq_ok, exists_unit, rejectIf_eq_ok,
    pure_eq_ok, LeaseMove.Append.injEq] at h
  obtain ⟨-, current, hfound, hunused, -, rfl, rfl⟩ := h
  obtain ⟨hid, hfiled⟩ := hkept.found hfound
  have hunused : current.state = .Unused := not_not.mp hunused
  have hnone := (reservation_of_shape (hkept _ _ hfiled).2).mpr hunused
  refine .following hfiled rfl rfl (by rw [hunused]; rfl) ⟨rfl, rfl, rfl, rfl, ?_⟩
  intro reservation hreservation
  rw [hnone] at hreservation
  cases hreservation

theorem reserve_fits (hkept : WellKept state)
    (h : state.reserve config leaseId session context object nowMs = .ok (.Append kind lease)) :
    Fits state kind lease := by
  simp only [BrokerStateV1.reserve, bind_eq_ok, exists_unit] at h
  obtain ⟨_, -, -, hbound⟩ := h
  exact reserveBoundOperation_fits hkept hbound

theorem reserveLand_fits (hkept : WellKept state) {transaction : AuthorityTransactionV1}
    (h : state.reserveLand config leaseId session context transaction nowMs =
      .ok (.Append kind lease)) : Fits state kind lease := by
  simp only [BrokerStateV1.reserveLand, bind_eq_ok, exists_unit] at h
  obtain ⟨_, -, _, -, -, hbound⟩ := h
  exact reserveBoundOperation_fits hkept hbound

omit [Sha256] in
theorem prepareFinalization_eq_ok (h : state.prepareFinalization reservation runtime nowMs =
    .ok (.Append kind lease)) :
    ∃ current, validateForFinalization state reservation runtime nowMs = .ok current ∧
      kind = .FinalizationPrepared ∧ lease = { current with
        finalizationSnapshot := some (finalizationSnapshot runtime nowMs)
        revision := current.revision + 1 } := by
  simp only [BrokerStateV1.prepareFinalization, bind_eq_ok, pure_eq_ok,
    LeaseMove.Append.injEq] at h
  obtain ⟨current, hvalid, rfl, rfl⟩ := h
  exact ⟨current, hvalid, rfl, rfl⟩

omit [Sha256] in
theorem prepareFinalization_fits (hkept : WellKept state)
    (h : state.prepareFinalization reservation runtime nowMs = .ok (.Append kind lease)) :
    Fits state kind lease := by
  obtain ⟨current, hvalid, rfl, rfl⟩ := prepareFinalization_eq_ok h
  obtain ⟨hfound, hreserved, -⟩ := validateForFinalization_eq_ok hvalid
  exact .following (hkept.found hfound).2 rfl rfl (by rw [hreserved]; rfl)
    ⟨rfl, rfl, rfl, rfl, fun _ h => h⟩

omit [Sha256] in
theorem consumedNow_fits (hkept : WellKept state) {terminal : AuthorizationTerminalKindV1}
    {outcome : String}
    (h : state.consumedNow reservation runtime terminal outcome nowMs = .ok (.Append kind lease)) :
    Fits state kind lease := by
  simp only [BrokerStateV1.consumedNow, bind_eq_ok, pure_eq_ok, LeaseMove.Append.injEq] at h
  obtain ⟨current, hvalid, rfl, rfl⟩ := h
  obtain ⟨hfound, hreserved, -⟩ := validateForFinalization_eq_ok hvalid
  exact .ended (hkept.found hfound).2 hreserved rfl

omit [Sha256] in
theorem finalizeRead_fits (hkept : WellKept state) {digest : String}
    (h : state.finalizeRead reservation runtime digest nowMs = .ok (.Append kind lease)) :
    Fits state kind lease := by
  simp only [BrokerStateV1.finalizeRead, bind_unit_eq_ok] at h
  exact consumedNow_fits hkept h.2

omit [Sha256] in
theorem abortReserved_fits (hkept : WellKept state) {reason : String}
    (h : state.abortReserved reservation reason nowMs = .ok (.Append kind lease)) :
    Fits state kind lease := by
  simp only [BrokerStateV1.abortReserved, bind_eq_ok] at h
  obtain ⟨current, hexact, habort⟩ := h
  obtain ⟨hfound, hreserved, -⟩ := exactReserved_eq_ok hexact
  exact (abortReservedLocked_fits (hkept.found hfound).2 hreserved habort).1

theorem recoverReserved_fits (hkept : WellKept state)
    {witness : Option AuthorityWalCommitWitnessV1}
    (h : state.recoverReserved leaseId witness nowMs = .ok (.Append kind lease)) :
    Fits state kind lease := by
  simp only [BrokerStateV1.recoverReserved, bind_eq_ok] at h
  obtain ⟨current, hfound, h⟩ := h
  have hfiled := (hkept.found hfound).2
  split at h
  · cases h
  · rename_i hreserved
    have hreserved : current.state = .Reserved := not_not.mp hreserved
    split at h
    · simp only [bind_unit_eq_ok, pure_eq_ok, LeaseMove.Append.injEq] at h
      obtain ⟨-, -, rfl, rfl⟩ := h
      exact .ended hfiled hreserved rfl
    · split at h
      · cases h
      · exact (abortReservedLocked_fits hfiled hreserved h).1

theorem recoverExternalReserved_fits (hkept : WellKept state)
    {witness : Option ExternalMutationCommitWitnessV1}
    (h : state.recoverExternalReserved leaseId witness nowMs = .ok (.Append kind lease)) :
    Fits state kind lease := by
  simp only [BrokerStateV1.recoverExternalReserved, bind_eq_ok] at h
  obtain ⟨current, hfound, h⟩ := h
  have hfiled := (hkept.found hfound).2
  split at h
  · cases h
  · rename_i hreserved
    have hreserved : current.state = .Reserved := not_not.mp hreserved
    split at h
    · split at h
      · exact (abortReservedLocked_fits hfiled hreserved h).1
      · cases h
    · simp only [bind_unit_eq_ok, pure_eq_ok, LeaseMove.Append.injEq] at h
      obtain ⟨-, -, rfl, rfl⟩ := h
      exact .ended hfiled hreserved rfl

theorem recoverExternalPreparedWithoutCommit_fits (hkept : WellKept state)
    {witness : ExternalMutationPreparedAbortWitnessV1}
    (h : state.recoverExternalPreparedWithoutCommit leaseId witness nowMs =
      .ok (.Append kind lease)) : Fits state kind lease := by
  simp only [BrokerStateV1.recoverExternalPreparedWithoutCommit, bind_eq_ok] at h
  obtain ⟨current, hfound, h⟩ := h
  split at h
  · cases h
  · rename_i hreserved
    simp only [bind_eq_ok, exists_unit] at h
    obtain ⟨_, -, -, habort⟩ := h
    exact (abortReservedLocked_fits (hkept.found hfound).2 (not_not.mp hreserved) habort).1

theorem recoverExternalReservedWithoutJournal_fits (hkept : WellKept state)
    {witness : ExternalMutationJournalAbsenceWitnessV1}
    (h : state.recoverExternalReservedWithoutJournal leaseId witness nowMs =
      .ok (.Append kind lease)) : Fits state kind lease := by
  simp only [BrokerStateV1.recoverExternalReservedWithoutJournal, bind_eq_ok] at h
  obtain ⟨current, hfound, h⟩ := h
  split at h
  · cases h
  · rename_i hreserved
    simp only [bind_eq_ok, exists_unit] at h
    obtain ⟨-, _, -, -, habort⟩ := h
    exact (abortReservedLocked_fits (hkept.found hfound).2 (not_not.mp hreserved) habort).1

end

end Plans

end M1nd.Mcp
