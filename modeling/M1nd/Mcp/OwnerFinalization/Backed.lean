import M1nd.Mcp.OwnerFinalization.Runs

namespace M1nd.Mcp

open M1nd.Control
open M1nd.Library.Checks
open M1nd.Library.Durable
open ChainedJournal (Store Traced)

variable [Sha256] {fromSlice : BrokerDecoder} {decoder : ExternalMutationDecoder}
  {config : OwnerAuthorizationBrokerConfigV1} {backend : Bool} {owner : Owner} {event : OwnerEvent}
  {log log' : List BrokerJournalRecordV1} {state state' : BrokerStateV1}
  {records records' : List ExternalMutationJournalRecordV1}
  {entries entries' : ExternalMutationJournalStateV1} {reservationId leaseId : String}

-- A COMMIT of the reservation is durable, in the journal or in the WAL.
def Owner.Committed (owner : Owner) (entries : ExternalMutationJournalStateV1)
    (reservationId leaseId : String) : Prop :=
  (∃ (operationId : String) (entry : ExternalMutationJournalEntryV1),
    entries.entries[operationId]? = some entry ∧ entry.IsCommitted ∧
      entry.BoundTo reservationId leaseId) ∨
  ∃ commit ∈ owner.walCommits,
    commit.reservation.reservationId = reservationId ∧ commit.reservation.leaseId = leaseId

-- Something on disk still names the lease.
def Owner.Names (owner : Owner) (entries : ExternalMutationJournalStateV1) (leaseId : String) :
    Prop :=
  (∃ (operationId : String) (entry : ExternalMutationJournalEntryV1),
    entries.entries[operationId]? = some entry ∧ entry.leaseId = leaseId) ∨
  ∃ commit ∈ owner.walCommits, commit.reservation.leaseId = leaseId

-- A callback only commits operations of the reservation it was started for.
def Owner.CommitsOwn (owner : Owner) (entries : ExternalMutationJournalStateV1) :
    OwnerEvent → Prop
  | .Journal (.Commit operationId _ _) _ => ∀ finalization entry,
      owner.finalization = some finalization → entries.entries[operationId]? = some entry →
      entry.BoundTo finalization.reservation.reservationId finalization.reservation.leaseId
  | _ => True

-- Gc is only told that a lease is unreferenced when nothing on disk names it.
def Owner.CollectsUnreferenced (owner : Owner) (entries : ExternalMutationJournalStateV1) :
    OwnerEvent → Prop
  | .Broker (.Gc unreferenced) _ _ =>
      ∀ lease, unreferenced lease = true → ¬owner.Names entries lease.leaseId
  | _ => True

-- What stays of a lease on disk.
structure LeaseKeeps (event : OwnerEvent) (later lease : OwnerAuthorizationLeaseV1) : Prop where
  reservation : ∀ reservation, lease.reservation = some reservation →
    later.reservation = some reservation
  snapshot : lease.finalizationSnapshot.isSome = true → later.finalizationSnapshot.isSome = true
  aborted : later.state = .Aborted → lease.state = .Aborted ∨
    ∃ operation nowMs fates, event = .Broker operation nowMs fates ∧ lease.state = .Reserved ∧
      AbortCause operation nowMs lease

section Lease

variable {lease : OwnerAuthorizationLeaseV1}

omit [Sha256] in
theorem LeaseKeeps.same : LeaseKeeps event lease lease where
  reservation _ h := h
  snapshot h := h
  aborted h := .inl h

omit [Sha256] in
theorem snapshot_of_unused (h : validateLeaseShape lease = .ok ()) (hunused : lease.state = .Unused) :
    lease.finalizationSnapshot = none := by
  have hshape := stateShape_of_shape h
  unfold stateShape at hshape
  simp_all

omit [Sha256] in
theorem reservation_leaseId_of_shape {reservation : AuthorizationReservationV1}
    (h : validateLeaseShape lease = .ok ()) (hreservation : lease.reservation = some reservation) :
    reservation.leaseId = lease.leaseId := by
  simp only [validateLeaseShape, bind_unit_eq_ok, rejectIf_eq_ok] at h
  have hshape := h.2.1
  rw [hreservation] at hshape
  simp only [Option.any_some, reservationMisshapen, Bool.not_eq_true, Bool.or_eq_false_iff,
    decide_eq_false_iff_not, not_not] at hshape
  exact hshape.1.1.1.1.1.1.1

-- The next snapshot of a lease that is on file, and of the others nothing.
theorem kept_filed {next : OwnerAuthorizationLeaseV1} {kind : BrokerJournalEventKindV1}
    {nowMs : Nat} (hlease : state.leases[leaseId]? = some lease)
    (hnext : ∀ current, state.leases[next.leaseId]? = some current → LeaseKeeps event next current) :
    ∃ later, (state.filed kind next nowMs).leases[leaseId]? = some later ∧
      LeaseKeeps event later lease := by
  rw [filed_leases]
  split
  · rename_i hid
    subst hid
    exact ⟨next, rfl, hnext lease hlease⟩
  · exact ⟨lease, hlease, .same⟩

omit [Sha256] in
theorem LeaseStep.keeps {operation : BrokerOperation} {nowMs : Nat} {fates : List Fate}
    {next current : OwnerAuthorizationLeaseV1} (hkept : WellKept state)
    (hevent : event = .Broker operation nowMs fates) (h : LeaseStep operation nowMs state next)
    (hcurrent : state.leases[next.leaseId]? = some current) : LeaseKeeps event next current := by
  cases h with
  | Issued hfresh hstate hterminal =>
      rw [hfresh] at hcurrent
      cases hcurrent
  | @Reserved _ filed hfiled hunused hstate hterminal =>
      obtain rfl : filed = current := Option.some.inj (hfiled.symm.trans hcurrent)
      have hshape := (hkept _ _ hfiled).2
      refine ⟨?_, ?_, ?_⟩
      · rw [(reservation_of_shape hshape).mpr hunused]
        simp
      · rw [snapshot_of_unused hshape hunused]
        simp
      · rw [hstate]
        simp
  | @Completed filed _ _ hfiled hreserved hkind =>
      obtain rfl : filed = current := Option.some.inj (hfiled.symm.trans hcurrent)
      exact ⟨fun _ h => h, fun _ => rfl, by simp [ended]⟩
  | @ConsumedByWal filed _ hfiled hreserved =>
      obtain rfl : filed = current := Option.some.inj (hfiled.symm.trans hcurrent)
      exact ⟨fun _ h => h, fun h => h, by simp [consumedByWal, ended]⟩
  | @ConsumedByExternalMutation filed _ hfiled hreserved hoperation hvalid =>
      obtain rfl : filed = current := Option.some.inj (hfiled.symm.trans hcurrent)
      exact ⟨fun _ h => h, fun h => h, by simp [consumedByExternalMutation, ended]⟩
  | @Aborted filed _ hfiled hreserved hkind hcause =>
      obtain rfl : filed = current := Option.some.inj (hfiled.symm.trans hcurrent)
      exact ⟨fun _ h => h, fun h => h, fun _ => .inr ⟨operation, nowMs, fates, hevent, hreserved,
        hcause⟩⟩

-- A lease stays on file, with its reservation, until gc drops it.
theorem BrokerStep.keeps (hkept : WellKept state)
    (hunderway : ∀ finalization, owner.finalization = some finalization →
      Underway state finalization)
    (hstep : BrokerStep owner event state state') (hlease : state.leases[leaseId]? = some lease) :
    (∃ later, state'.leases[leaseId]? = some later ∧ LeaseKeeps event later lease) ∨
      state'.leases[leaseId]? = none ∧ ∃ unreferenced nowMs fates,
        event = .Broker (.Gc unreferenced) nowMs fates ∧ unreferenced lease = true := by
  cases hstep with
  | Same => exact .inl ⟨lease, hlease, .same⟩
  | Operated hevent hnext =>
      exact .inl (kept_filed hlease fun current hcurrent => hnext.keeps hkept hevent hcurrent)
  | Collected hevent hshrunk =>
      obtain hsame | ⟨hnone, hmem, -⟩ := hshrunk leaseId
      · exact .inl ⟨lease, hsame.trans hlease, .same⟩
      · exact .inr ⟨hnone, _, _, _, hevent, gcCandidates_unreferenced hkept hmem hlease⟩
  | @Prepared _ _ _ _ _ current hevent hvalid =>
      obtain ⟨hfiled, -, hreserved, -⟩ := validated_lease hkept hvalid
      refine .inl (kept_filed hlease fun previous hprevious => ?_)
      obtain rfl : current = previous := Option.some.inj (hfiled.symm.trans hprevious)
      exact ⟨fun _ h => h, fun _ => rfl, fun h => .inl h⟩
  | @ConsumedByWal finalization _ _ hfinalization hevent =>
      have hgoing := hunderway finalization hfinalization
      refine .inl (kept_filed hlease fun previous hprevious => ?_)
      obtain rfl := Option.some.inj (hgoing.filed.symm.trans hprevious)
      exact ⟨fun _ h => h, fun h => h, by simp [consumedByWal, ended]⟩
  | @ConsumedByExternalMutation finalization _ _ hfinalization hevent hvalid =>
      have hgoing := hunderway finalization hfinalization
      refine .inl (kept_filed hlease fun previous hprevious => ?_)
      obtain rfl := Option.some.inj (hgoing.filed.symm.trans hprevious)
      exact ⟨fun _ h => h, fun h => h, by simp [consumedByExternalMutation, ended]⟩

end Lease

-- The lease of every durable COMMIT is on file with its reservation, and was prepared.
def Backed (owner : Owner) (state : BrokerStateV1) (entries : ExternalMutationJournalStateV1) :
    Prop :=
  ∀ reservationId leaseId, owner.Committed entries reservationId leaseId →
    ∃ (lease : OwnerAuthorizationLeaseV1) (reservation : AuthorizationReservationV1),
      state.leases[leaseId]? = some lease ∧ lease.reservation = some reservation ∧
      reservation.reservationId = reservationId ∧ lease.finalizationSnapshot.isSome = true

omit [Sha256] in
theorem Backed.empty : Backed .empty ⟨0, none, ∅⟩ ⟨0, none, ∅⟩ := by
  rintro reservationId leaseId (⟨operationId, entry, hentry, -⟩ | ⟨commit, hmem, -⟩)
  · simp at hentry
  · cases hmem

theorem JournalStep.committed (hkept : EntriesKept entries)
    (hstep : JournalStep event records entries records' entries') {operationId : String}
    {later : ExternalMutationJournalEntryV1}
    (hentry : entries'.entries[operationId]? = some later) (hcommitted : later.IsCommitted) :
    ∃ before : ExternalMutationJournalEntryV1, entries.entries[operationId]? = some before ∧
      later.BoundTo before.reservationId before.leaseId ∧
      (before.IsCommitted ∨ ∃ outcomeDigest committedAt fates,
        event = .Journal (.Commit operationId outcomeDigest committedAt) fates) := by
  cases hstep with
  | Same => exact ⟨later, hentry, ⟨rfl, rfl⟩, .inl hcommitted⟩
  | Moved hevent hmoved =>
      cases hmoved with
      | Same => exact ⟨later, hentry, ⟨rfl, rfl⟩, .inl hcommitted⟩
      | Append hplan hvalid =>
          obtain ⟨before, hbefore, hbound, hnew⟩ := committed_of_filed hkept hplan hentry hcommitted
          refine ⟨before, hbefore, hbound, hnew.imp_right fun hnew => ?_⟩
          rename_i operation _ _ _ _
          cases operation with
          | Commit target outcomeDigest committedAt =>
              obtain rfl := Option.some.inj hnew
              exact ⟨outcomeDigest, committedAt, _, hevent⟩
          | _ => cases hnew

-- Only a callback adds a COMMIT, and while one runs the broker does not move.
theorem Committed.step (hkept : EntriesKept entries)
    (hstep : JournalStep event records entries records' entries') (hpermits : owner.Permits event)
    (hown : owner.CommitsOwn entries event)
    (hunderway : ∀ finalization, owner.finalization = some finalization →
      finalization.reservation.leaseId = finalization.lease.leaseId)
    (h : (owner.apply fromSlice decoder config backend event).Committed entries' reservationId
      leaseId) :
    owner.Committed entries reservationId leaseId ∨
      (∃ finalization, owner.finalization = some finalization ∧
        finalization.reservation.reservationId = reservationId ∧
        finalization.lease.leaseId = leaseId) ∧
      ∀ {state state' : BrokerStateV1}, BrokerStep owner event state state' → state' = state := by
  obtain ⟨operationId, later, hentry, hcommitted, hreservation, hlease⟩ | ⟨commit, hmem, hcommit⟩ := h
  · obtain ⟨before, hbefore, ⟨hreservation', hlease'⟩, hnew⟩ :=
      hstep.committed hkept hentry hcommitted
    obtain hold | ⟨outcomeDigest, committedAt, fates, rfl⟩ := hnew
    · exact .inl (.inl ⟨operationId, before, hbefore, hold, hreservation'.symm.trans hreservation,
        hlease'.symm.trans hlease⟩)
    · have hrunning : owner.finalization.map Finalization.kind = some .ExternalMutation := hpermits
      obtain ⟨finalization, hfinalization, -⟩ := Option.map_eq_some_iff.mp hrunning
      obtain ⟨hown, howner⟩ := hown finalization before hfinalization hbefore
      refine .inr ⟨⟨finalization, hfinalization, ?_, ?_⟩, ?_⟩
      · rw [← hown, ← hreservation', hreservation]
      · rw [← hunderway finalization hfinalization, ← howner, ← hlease', hlease]
      · intro state state' hbroker
        cases hbroker <;> first | rfl | contradiction
  · cases event with
    | WalCommitted witness =>
        obtain hold | hnew := List.mem_append.mp hmem
        · exact .inl (.inr ⟨commit, hold, hcommit⟩)
        · obtain ⟨finalization, hfinalization, rfl⟩ := List.mem_map.mp hnew
          have hfinalization := Option.mem_toList.mp hfinalization
          refine .inr ⟨⟨finalization, hfinalization, hcommit.1, ?_⟩, ?_⟩
          · rw [← hunderway finalization hfinalization]
            exact hcommit.2
          · intro state state' hbroker
            cases hbroker <;> first | rfl | contradiction
    | _ => exact .inl (.inr ⟨commit, by simpa [Owner.apply, Owner.callJournal] using hmem, hcommit⟩)

omit [Sha256] in
theorem underway_leaseId (hkept : WellKept state) {finalization : Finalization}
    (h : Underway state finalization) :
    finalization.reservation.leaseId = finalization.lease.leaseId :=
  reservation_leaseId_of_shape (hkept _ _ h.filed).2 h.reservation

theorem Backed.step (h : Backed owner state entries)
    (hholds : OwnerHolds fromSlice decoder owner log state records entries)
    (hpermits : owner.Permits event) (hown : owner.CommitsOwn entries event)
    (hcollects : owner.CollectsUnreferenced entries event)
    (hleases : BrokerStep owner event state state')
    (hentries : JournalStep event records entries records' entries') :
    Backed (owner.apply fromSlice decoder config backend event) state' entries' := by
  intro reservationId leaseId hcommitted
  have hkept := wellKept_of_traced hholds.broker.stored.traced
  obtain hold | ⟨⟨finalization, hfinalization, rfl, rfl⟩, hsame⟩ := Committed.step
    (entriesKept_of_traced hholds.journal.stored.traced) hentries hpermits hown
    (fun finalization hfinalization => underway_leaseId hkept
      (hholds.underway finalization hfinalization)) hcommitted
  · obtain ⟨lease, reservation, hlease, hreservation, hid, hsnapshot⟩ := h _ _ hold
    obtain ⟨later, hlater, hkeeps⟩ | ⟨-, unreferenced, nowMs, fates, rfl, hdropped⟩ :=
      hleases.keeps hkept hholds.underway hlease
    · exact ⟨later, reservation, hlater, hkeeps.reservation _ hreservation, hid,
        hkeeps.snapshot hsnapshot⟩
    · refine absurd ?_ (hcollects lease hdropped)
      rw [(hkept _ _ hlease).1]
      refine hold.imp ?_ ?_
      · rintro ⟨operationId, entry, hentry, -, -, hbound⟩
        exact ⟨operationId, entry, hentry, hbound⟩
      · rintro ⟨commit, hmem, -, hbound⟩
        exact ⟨commit, hmem, hbound⟩
  · rw [hsame hleases]
    have hgoing := hholds.underway finalization hfinalization
    exact ⟨finalization.lease, finalization.reservation, hgoing.filed, hgoing.reservation, rfl,
      hgoing.snapshot⟩

end M1nd.Mcp
