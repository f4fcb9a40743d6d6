import M1nd.Mcp.OwnerAuthorizationBroker.Runs
import M1nd.Mcp.OwnerFinalization

namespace M1nd.Mcp

open M1nd.Control
open M1nd.Library.Checks
open M1nd.Library.Durable

variable {state next : BrokerStateV1} {lease current : OwnerAuthorizationLeaseV1}
  {kind : BrokerJournalEventKindV1} {operation : BrokerOperation} {nowMs : Nat}

-- The abort witness is about the reservation of the lease.
def PreparedMatches (witness : ExternalMutationPreparedAbortWitnessV1)
    (lease : OwnerAuthorizationLeaseV1) : Prop :=
  ∃ reservation, lease.reservation = some reservation ∧
    witness.leaseId = lease.leaseId ∧ witness.reservationId = reservation.reservationId ∧
    witness.operationObjectDigest = reservation.operationObjectDigest ∧
    witness.authorizationSnapshotDigest = lease.authorizationReceipt.receiptDigest

-- What a RESERVED lease is aborted by.
inductive AbortCause (operation : BrokerOperation) (nowMs : Nat)
    (lease : OwnerAuthorizationLeaseV1) : Prop
  | Request {reservation : AuthorizationReservationV1} {reason : String}
      (h : operation = .AbortReserved reservation reason)
      (hlease : reservation.leaseId = lease.leaseId)
  | Expired (h : operation = .RecoverReserved lease.leaseId none)
      (hexpired : reservationExpired lease nowMs = true)
  | Prepared {witness : ExternalMutationPreparedAbortWitnessV1}
      (h : operation = .RecoverExternalPreparedWithoutCommit lease.leaseId witness)
      (hmatches : PreparedMatches witness lease)
  | NeverPrepared (h : lease.finalizationSnapshot = none)

-- What the snapshots are that an operation without a callback appends.
inductive LeaseStep (operation : BrokerOperation) (nowMs : Nat) (state : BrokerStateV1) :
    OwnerAuthorizationLeaseV1 → Prop
  | Issued {lease : OwnerAuthorizationLeaseV1} (hfresh : state.leases[lease.leaseId]? = none)
      (hstate : lease.state = .Unused) (hterminal : lease.terminal = none) :
      LeaseStep operation nowMs state lease
  | Reserved {lease current : OwnerAuthorizationLeaseV1}
      (hfiled : state.leases[lease.leaseId]? = some current) (hunused : current.state = .Unused)
      (hstate : lease.state = .Reserved) (hterminal : lease.terminal = none) :
      LeaseStep operation nowMs state lease
  | Completed {current : OwnerAuthorizationLeaseV1} {terminal : AuthorizationTerminalV1}
      {snapshot : AuthorizationFinalizationSnapshotV1}
      (hfiled : state.leases[current.leaseId]? = some current)
      (hreserved : current.state = .Reserved) (hkind : terminal.kind ≠ .ExternalMutationCommitted) :
      LeaseStep operation nowMs state
        (ended .Consumed terminal { current with finalizationSnapshot := some snapshot })
  | ConsumedByWal {current : OwnerAuthorizationLeaseV1} {witness : AuthorityWalCommitWitnessV1}
      (hfiled : state.leases[current.leaseId]? = some current)
      (hreserved : current.state = .Reserved) :
      LeaseStep operation nowMs state (consumedByWal witness nowMs current)
  | ConsumedByExternalMutation {current : OwnerAuthorizationLeaseV1}
      {witness : ExternalMutationCommitWitnessV1}
      (hfiled : state.leases[current.leaseId]? = some current)
      (hreserved : current.state = .Reserved)
      (h : operation = .RecoverExternalReserved current.leaseId (some witness))
      (hvalid : validateExternalMutationWitness current witness nowMs = .ok ()) :
      LeaseStep operation nowMs state (consumedByExternalMutation witness nowMs current)
  | Aborted {current : OwnerAuthorizationLeaseV1} {terminal : AuthorizationTerminalV1}
      (hfiled : state.leases[current.leaseId]? = some current)
      (hreserved : current.state = .Reserved) (hkind : terminal.kind = .Aborted)
      (hcause : AbortCause operation nowMs current) :
      LeaseStep operation nowMs state (ended .Aborted terminal current)

theorem terminal_of_shape (h : validateLeaseShape lease = .ok ())
    (hopen : lease.state = .Unused ∨ lease.state = .Reserved) : lease.terminal = none := by
  have hshape := stateShape_of_shape h
  unfold stateShape at hshape
  obtain hstate | hstate := hopen <;> simp_all

section Plans

variable {leaseId : String} {reservation : AuthorizationReservationV1}
  {runtime : AuthorityRuntimeStateCoreV1}

theorem consumedNow_step {terminal : AuthorizationTerminalKindV1} {outcome : String}
    (hkept : WellKept state)
    (h : state.consumedNow reservation runtime terminal outcome nowMs = .ok (.Append kind lease))
    (hkind : terminal ≠ .ExternalMutationCommitted) :
    LeaseStep operation nowMs state lease := by
  simp only [BrokerStateV1.consumedNow, bind_eq_ok, pure_eq_ok, LeaseMove.Append.injEq] at h
  obtain ⟨current, hvalid, -, rfl⟩ := h
  obtain ⟨hfound, hreserved, -⟩ := validateForFinalization_eq_ok hvalid
  exact .Completed (hkept.found hfound).2 hreserved hkind

theorem abortReservedLocked_step {reason : String}
    (hfiled : state.leases[current.leaseId]? = some current) (hreserved : current.state = .Reserved)
    (hcause : AbortCause operation nowMs current)
    (h : abortReservedLocked current reason nowMs = .ok (.Append kind lease)) :
    LeaseStep operation nowMs state lease := by
  simp only [abortReservedLocked, bind_unit_eq_ok, pure_eq_ok, LeaseMove.Append.injEq] at h
  obtain ⟨-, -, rfl⟩ := h
  exact .Aborted hfiled hreserved rfl hcause

theorem issue_step {config : OwnerAuthorizationBrokerConfigV1}
    {receipt : AuthorityAuthorizationReceiptV1}
    (h : state.issue config leaseId receipt nowMs = .ok (.Append kind lease)) :
    LeaseStep operation nowMs state lease := by
  simp only [BrokerStateV1.issue, bind_unit_eq_ok, rejectIf_eq_ok, pure_eq_ok,
    LeaseMove.Append.injEq] at h
  obtain ⟨-, hfresh, -, rfl⟩ := h
  exact .Issued (by simpa using hfresh) rfl rfl

theorem abortReserved_step {reason : String} (hkept : WellKept state)
    (h : state.abortReserved reservation reason nowMs = .ok (.Append kind lease)) :
    LeaseStep (.AbortReserved reservation reason) nowMs state lease := by
  simp only [BrokerStateV1.abortReserved, bind_eq_ok] at h
  obtain ⟨current, hexact, habort⟩ := h
  obtain ⟨hfound, hreserved, -⟩ := exactReserved_eq_ok hexact
  obtain ⟨hid, hfiled⟩ := hkept.found hfound
  exact abortReservedLocked_step hfiled hreserved (.Request rfl hid.symm) habort

variable [Sha256]

theorem reserveBoundOperation_step {config : OwnerAuthorizationBrokerConfigV1}
    {session context object : String} {transactionId : Option String} (hkept : WellKept state)
    (h : state.reserveBoundOperation config leaseId session context object transactionId nowMs =
      .ok (.Append kind lease)) : LeaseStep operation nowMs state lease := by
  simp only [BrokerStateV1.reserveBoundOperation, bind_eq_ok, exists_unit, rejectIf_eq_ok,
    pure_eq_ok, LeaseMove.Append.injEq] at h
  obtain ⟨-, current, hfound, hunused, -, -, rfl⟩ := h
  obtain ⟨-, hfiled⟩ := hkept.found hfound
  have hunused : current.state = .Unused := not_not.mp hunused
  have hterminal := terminal_of_shape (hkept _ _ hfiled).2 (.inl hunused)
  exact .Reserved hfiled hunused rfl hterminal

theorem recoverReserved_step {witness : Option AuthorityWalCommitWitnessV1} (hkept : WellKept state)
    (h : state.recoverReserved leaseId witness nowMs = .ok (.Append kind lease)) :
    LeaseStep (.RecoverReserved leaseId witness) nowMs state lease := by
  simp only [BrokerStateV1.recoverReserved, bind_eq_ok] at h
  obtain ⟨current, hfound, h⟩ := h
  obtain ⟨rfl, hfiled⟩ := hkept.found hfound
  split at h
  · cases h
  · rename_i hreserved
    have hreserved : current.state = .Reserved := not_not.mp hreserved
    cases witness with
    | some witness =>
        simp only [bind_unit_eq_ok, pure_eq_ok, LeaseMove.Append.injEq] at h
        obtain ⟨-, -, -, rfl⟩ := h
        exact .ConsumedByWal hfiled hreserved
    | none =>
        dsimp only at h
        split at h
        · cases h
        · rename_i hexpired
          exact abortReservedLocked_step hfiled hreserved
            (.Expired rfl (by simpa using hexpired)) h

theorem recoverExternalReserved_step {witness : Option ExternalMutationCommitWitnessV1}
    (hkept : WellKept state)
    (h : state.recoverExternalReserved leaseId witness nowMs = .ok (.Append kind lease)) :
    LeaseStep (.RecoverExternalReserved leaseId witness) nowMs state lease := by
  simp only [BrokerStateV1.recoverExternalReserved, bind_eq_ok] at h
  obtain ⟨current, hfound, h⟩ := h
  obtain ⟨rfl, hfiled⟩ := hkept.found hfound
  split at h
  · cases h
  · rename_i hreserved
    have hreserved : current.state = .Reserved := not_not.mp hreserved
    cases witness with
    | none =>
        dsimp only at h
        split at h
        · rename_i hsnapshot
          have hnone : current.finalizationSnapshot = none := by simpa using hsnapshot.1
          exact abortReservedLocked_step hfiled hreserved (.NeverPrepared hnone) h
        · cases h
    | some witness =>
        simp only [bind_eq_ok, exists_unit, pure_eq_ok, LeaseMove.Append.injEq] at h
        obtain ⟨-, hvalid, -, rfl⟩ := h
        exact .ConsumedByExternalMutation hfiled hreserved rfl hvalid

theorem recoverExternalPreparedWithoutCommit_step
    {witness : ExternalMutationPreparedAbortWitnessV1} (hkept : WellKept state)
    (h : state.recoverExternalPreparedWithoutCommit leaseId witness nowMs =
      .ok (.Append kind lease)) :
    LeaseStep (.RecoverExternalPreparedWithoutCommit leaseId witness) nowMs state lease := by
  simp only [BrokerStateV1.recoverExternalPreparedWithoutCommit, bind_eq_ok] at h
  obtain ⟨current, hfound, h⟩ := h
  obtain ⟨rfl, hfiled⟩ := hkept.found hfound
  split at h
  · cases h
  · rename_i hreserved
    simp only [bind_eq_ok, exists_unit, rejectIf_eq_ok, not_or, not_not] at h
    obtain ⟨reservation, hreservation, ⟨hlease, hid, hobject, hreceipt, -, -⟩, habort⟩ := h
    have hreservation : current.reservation = some reservation := by
      unfold requireReservation at hreservation
      cases hsome : current.reservation <;> simp_all
    exact abortReservedLocked_step hfiled (not_not.mp hreserved)
      (.Prepared rfl ⟨reservation, hreservation, hlease, hid, hobject, hreceipt⟩) habort

theorem recoverExternalReservedWithoutJournal_step
    {witness : ExternalMutationJournalAbsenceWitnessV1} (hkept : WellKept state)
    (h : state.recoverExternalReservedWithoutJournal leaseId witness nowMs =
      .ok (.Append kind lease)) :
    LeaseStep (.RecoverExternalReservedWithoutJournal leaseId witness) nowMs state lease := by
  simp only [BrokerStateV1.recoverExternalReservedWithoutJournal, bind_eq_ok] at h
  obtain ⟨current, hfound, h⟩ := h
  obtain ⟨rfl, hfiled⟩ := hkept.found hfound
  split at h
  · cases h
  · rename_i hreserved
    simp only [bind_eq_ok, exists_unit, rejectIf_eq_ok] at h
    obtain ⟨hsnapshot, _, -, -, habort⟩ := h
    exact abortReservedLocked_step hfiled (not_not.mp hreserved)
      (.NeverPrepared (by simpa using hsnapshot)) habort

end Plans

section Operation

variable [Sha256] {config : OwnerAuthorizationBrokerConfigV1}

-- How an operation without a callback decides.
def BrokerOperation.plan (config : OwnerAuthorizationBrokerConfigV1) (nowMs : Nat)
    (state : BrokerStateV1) : BrokerOperation → Option LeasePlan
  | .Issue leaseId receipt => some (state.issue config leaseId receipt nowMs)
  | .Reserve leaseId session context object =>
      some (state.reserve config leaseId session context object nowMs)
  | .ReserveLand leaseId session context transaction =>
      some (state.reserveLand config leaseId session context transaction nowMs)
  | .FinalizeRead reservation current digest =>
      some (state.finalizeRead reservation current digest nowMs)
  | .AdmitNonWal reservation current => some (state.admitNonWal reservation current nowMs)
  | .AbortReserved reservation reason => some (state.abortReserved reservation reason nowMs)
  | .RecoverReserved leaseId witness => some (state.recoverReserved leaseId witness nowMs)
  | .RecoverExternalReserved leaseId witness =>
      some (state.recoverExternalReserved leaseId witness nowMs)
  | .RecoverExternalPreparedWithoutCommit leaseId witness =>
      some (state.recoverExternalPreparedWithoutCommit leaseId witness nowMs)
  | .RecoverExternalReservedWithoutJournal leaseId witness =>
      some (state.recoverExternalReservedWithoutJournal leaseId witness nowMs)
  | .FinalizeWal _ _ _ | .FinalizeExternalMutation _ _ _ | .Gc _ => none

-- One case per operation.
theorem BrokerOperation.plan_step (hkept : WellKept state)
    (h : operation.plan config nowMs state = some (.ok (.Append kind lease))) :
    LeaseStep operation nowMs state lease := by
  cases operation with
  | Issue leaseId receipt => exact issue_step (Option.some.inj h)
  | Reserve leaseId session context object =>
      have h := Option.some.inj h
      simp only [BrokerStateV1.reserve, bind_eq_ok, exists_unit] at h
      obtain ⟨_, -, -, hbound⟩ := h
      exact reserveBoundOperation_step hkept hbound
  | ReserveLand leaseId session context transaction =>
      have h := Option.some.inj h
      simp only [BrokerStateV1.reserveLand, bind_eq_ok, exists_unit] at h
      obtain ⟨_, -, _, -, -, hbound⟩ := h
      exact reserveBoundOperation_step hkept hbound
  | FinalizeRead reservation current digest =>
      have h := Option.some.inj h
      simp only [BrokerStateV1.finalizeRead, bind_unit_eq_ok] at h
      exact consumedNow_step hkept h.2 (by simp)
  | AdmitNonWal reservation current => exact consumedNow_step hkept (Option.some.inj h) (by simp)
  | AbortReserved reservation reason => exact abortReserved_step hkept (Option.some.inj h)
  | RecoverReserved leaseId witness => exact recoverReserved_step hkept (Option.some.inj h)
  | RecoverExternalReserved leaseId witness =>
      exact recoverExternalReserved_step hkept (Option.some.inj h)
  | RecoverExternalPreparedWithoutCommit leaseId witness =>
      exact recoverExternalPreparedWithoutCommit_step hkept (Option.some.inj h)
  | RecoverExternalReservedWithoutJournal leaseId witness =>
      exact recoverExternalReservedWithoutJournal_step hkept (Option.some.inj h)
  | FinalizeWal reservation current commit => cases h
  | FinalizeExternalMutation reservation current commit => cases h
  | Gc unreferenced => cases h

end Operation

end M1nd.Mcp
