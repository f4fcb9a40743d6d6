import M1nd.Mcp.OwnerFinalization.SourceEdit

namespace M1nd.Mcp

open M1nd.Control
open M1nd.Library.Checks
open M1nd.Library.Durable
open ChainedJournal (Store Traced)

variable [Sha256] {fromSlice : BrokerDecoder} {decoder : ExternalMutationDecoder}
  {config : OwnerAuthorizationBrokerConfigV1} {backend : Bool} {owner : Owner} {event : OwnerEvent}
  {log log' : List BrokerJournalRecordV1} {state state' : BrokerStateV1}
  {records records' : List ExternalMutationJournalRecordV1}
  {entries entries' : ExternalMutationJournalStateV1}

-- At most one operation of a reservation is committed.
def OneCommit (entries : ExternalMutationJournalStateV1) : Prop :=
  ∀ (operationId operationId' : String) (entry entry' : ExternalMutationJournalEntryV1),
    entries.entries[operationId]? = some entry → entries.entries[operationId']? = some entry' →
    entry.IsCommitted → entry'.IsCommitted →
    entry'.BoundTo entry.reservationId entry.leaseId → operationId = operationId'

-- An external mutation is finalized on a lease that was never prepared before, and its callback
-- calls `commit` on one operation only.
def Owner.FinalizesOnce (owner : Owner) (state : BrokerStateV1) : OwnerEvent → Prop
  | .Finalize .ExternalMutation reservation _ _ _ => ∀ lease : OwnerAuthorizationLeaseV1,
      state.leases[reservation.leaseId]? = some lease → lease.finalizationSnapshot = none
  | .Journal (.Commit operationId _ _) _ => ∀ finalization,
      owner.finalization = some finalization → ∀ other ∈ finalization.committing,
        other = operationId
  | _ => True

def CommitsOnce (fromSlice : BrokerDecoder) (decoder : ExternalMutationDecoder) (owner : Owner)
    (event : OwnerEvent) : Prop :=
  ∀ state entries, owner.Recovers fromSlice decoder state entries →
    owner.FinalizesOnce state event ∧ owner.CommitsOwn entries event ∧
      owner.CollectsUnreferenced entries event

-- While a callback runs, the operations of its reservation are committed by its own calls.
structure CommittedOnce (owner : Owner) (state : BrokerStateV1)
    (entries : ExternalMutationJournalStateV1) : Prop where
  backed : Backed owner state entries
  once : OneCommit entries
  running : ∀ finalization, owner.finalization = some finalization →
    finalization.kind = .ExternalMutation →
    ∀ (operationId : String) (entry : ExternalMutationJournalEntryV1),
      entries.entries[operationId]? = some entry → entry.IsCommitted →
      entry.BoundTo finalization.reservation.reservationId finalization.lease.leaseId →
      operationId ∈ finalization.committing

omit [Sha256] in
theorem ExternalMutationJournalEntryV1.BoundTo.trans
    {entry later : ExternalMutationJournalEntryV1} {reservationId leaseId : String}
    (h : later.BoundTo entry.reservationId entry.leaseId) :
    later.BoundTo reservationId leaseId ↔ entry.BoundTo reservationId leaseId := by
  unfold BoundTo
  rw [h.1, h.2]

-- The finalization that the first half starts, when there was none.
theorem finalize_starts {kind : FinalizationKind} {reservation : AuthorizationReservationV1}
    {current : AuthorityRuntimeStateCoreV1} {nowMs : Nat} {fates : List Fate}
    {finalization : Finalization} (hidle : owner.finalization = none)
    (h : (owner.finalize fromSlice kind reservation current nowMs fates).finalization =
      some finalization) :
    finalization.kind = kind ∧ finalization.reservation = reservation := by
  unfold Owner.finalize at h
  split at h
  · obtain rfl := Option.some.inj h
    exact ⟨rfl, rfl⟩
  · rw [hidle] at h
    cases h

section Step

variable (hholds : OwnerHolds fromSlice decoder owner log state records entries)
  (hpermits : owner.Permits event) (honce : owner.FinalizesOnce state event)
  (hown : owner.CommitsOwn entries event)
  (hentries : JournalStep event records entries records' entries')

include hholds hpermits hown hentries

-- A committed operation was committed before, or it is the one that a running callback commits.
theorem OwnerHolds.committed {operationId : String} {later : ExternalMutationJournalEntryV1}
    (hentry : entries'.entries[operationId]? = some later) (hcommitted : later.IsCommitted) :
    (∃ before, entries.entries[operationId]? = some before ∧ before.IsCommitted ∧
      later.BoundTo before.reservationId before.leaseId) ∨
    ∃ outcomeDigest committedAt fates finalization,
      event = .Journal (.Commit operationId outcomeDigest committedAt) fates ∧
      owner.finalization = some finalization ∧ finalization.kind = .ExternalMutation ∧
      later.BoundTo finalization.reservation.reservationId finalization.lease.leaseId := by
  obtain ⟨before, hbefore, hbound, hnew⟩ :=
    hentries.committed (entriesKept_of_traced hholds.journal.stored.traced) hentry hcommitted
  obtain hold | ⟨outcomeDigest, committedAt, fates, rfl⟩ := hnew
  · exact .inl ⟨before, hbefore, hold, hbound⟩
  · have hrunning : owner.finalization.map Finalization.kind = some .ExternalMutation := hpermits
    obtain ⟨finalization, hfinalization, hkind⟩ := Option.map_eq_some_iff.mp hrunning
    refine .inr ⟨outcomeDigest, committedAt, fates, finalization, rfl, hfinalization, hkind, ?_⟩
    have hkept := wellKept_of_traced hholds.broker.stored.traced
    rw [← underway_leaseId hkept (hholds.underway finalization hfinalization)]
    exact hbound.trans.mpr (hown finalization before hfinalization hbefore)

include honce

theorem CommittedOnce.once_step (h : CommittedOnce owner state entries) : OneCommit entries' := by
  intro operationId operationId' entry entry' hentry hentry' hcommitted hcommitted' hbound
  have hnew : ∀ {id other : String} {before : ExternalMutationJournalEntryV1}
      {finalization : Finalization} {digest : String} {at' : Nat} {fates : List Fate},
      event = .Journal (.Commit id digest at') fates → owner.finalization = some finalization →
      finalization.kind = .ExternalMutation →
      entries.entries[other]? = some before → before.IsCommitted →
      before.BoundTo finalization.reservation.reservationId finalization.lease.leaseId →
      other = id := by
    intro id other before finalization digest at' fates hevent hfinalization hkind hbefore hold hb
    subst hevent
    exact honce finalization hfinalization other
      (h.running finalization hfinalization hkind other before hbefore hold hb)
  obtain ⟨before, hbefore, hold, hb⟩ | ⟨digest, committedAt, fates, finalization, hevent, hfin, hkind,
      hb⟩ := hholds.committed hpermits hown hentries hentry hcommitted
  · obtain ⟨before', hbefore', hold', hb'⟩ | ⟨digest, committedAt, fates, finalization, hevent,
        hfin, hkind, hb'⟩ := hholds.committed hpermits hown hentries hentry' hcommitted'
    · exact h.once _ _ _ _ hbefore hbefore' hold hold' (hb'.trans.mp (by
        rw [← hb.1, ← hb.2]
        exact hbound))
    · have hsame : before.BoundTo finalization.reservation.reservationId
          finalization.lease.leaseId := by
        refine hb.trans.mp ⟨hbound.1.symm.trans hb'.1, hbound.2.symm.trans hb'.2⟩
      exact hnew hevent hfin hkind hbefore hold hsame
  · obtain ⟨before', hbefore', hold', hb'⟩ | ⟨digest', committedAt', fates', finalization', hevent',
        -⟩ := hholds.committed hpermits hown hentries hentry' hcommitted'
    · have hsame : before'.BoundTo finalization.reservation.reservationId
          finalization.lease.leaseId := by
        refine hb'.trans.mp ⟨hbound.1.trans hb.1, hbound.2.trans hb.2⟩
      exact (hnew hevent hfin hkind hbefore' hold' hsame).symm
    · rw [hevent] at hevent'
      injection hevent' with hoperation
      injection hoperation

theorem CommittedOnce.running_step (h : CommittedOnce owner state entries)
    (hafter : OwnerHolds fromSlice decoder (owner.apply fromSlice decoder config backend event)
      log' state' records' entries')
    {finalization : Finalization} (hfinalization : (owner.apply fromSlice decoder config backend
      event).finalization = some finalization) (hkind : finalization.kind = .ExternalMutation)
    {operationId : String} {entry : ExternalMutationJournalEntryV1}
    (hentry : entries'.entries[operationId]? = some entry) (hcommitted : entry.IsCommitted)
    (hbound : entry.BoundTo finalization.reservation.reservationId finalization.lease.leaseId) :
    operationId ∈ finalization.committing := by
  obtain ⟨before, hbefore, hold, hb⟩ | ⟨digest, committedAt, fates, running, rfl, hrunning, -⟩ :=
    hholds.committed hpermits hown hentries hentry hcommitted
  · have hsame := hb.trans.mp hbound
    cases event with
    | OpenBroker fates => cases hfinalization
    | Finalize kind reservation current nowMs fates =>
        obtain ⟨rfl, rfl⟩ := finalize_starts hpermits hfinalization
        have hgoing := hafter.underway finalization hfinalization
        have hid := underway_leaseId (wellKept_of_traced hafter.broker.stored.traced) hgoing
        obtain ⟨lease, _, hlease, -, -, hsnapshot⟩ := h.backed _ _
          (.inl ⟨operationId, before, hbefore, hold, hsame⟩)
        rw [← hid] at hlease
        rw [hkind] at honce
        rw [honce lease hlease] at hsnapshot
        cases hsnapshot
    | Journal operation fates =>
        obtain ⟨running, hrunning, rfl⟩ := Option.map_eq_some_iff.mp hfinalization
        exact List.mem_append_left _ (h.running running hrunning hkind operationId before hbefore hold
          hsame)
    | FinishWal commit fates =>
        change (owner.finish _ fates).finalization = _ at hfinalization
        rw [Owner.finish_ends] at hfinalization
        cases hfinalization
    | FinishExternalMutation commit fates =>
        change (owner.finish _ fates).finalization = _ at hfinalization
        rw [Owner.finish_ends] at hfinalization
        cases hfinalization
    | _ => exact h.running finalization hfinalization hkind operationId before hbefore hold hsame
  · obtain ⟨_, -, rfl⟩ := Option.map_eq_some_iff.mp hfinalization
    exact List.mem_append_right _ (by simp [ExternalMutationOperation.committed])

end Step

omit [Sha256] in
theorem CommittedOnce.empty : CommittedOnce .empty ⟨0, none, ∅⟩ ⟨0, none, ∅⟩ where
  backed := .empty
  once := by
    intro operationId operationId' entry entry' hentry
    simp at hentry
  running := by
    intro finalization hfinalization
    cases hfinalization

-- At most one commit per reservation, and only its record consumes the lease.
theorem ownerRun_commits_once (hbroker : BrokerReadsBack fromSlice)
    (hjournal : ExternalMutationReadsBack decoder)
    (h : OwnerRun fromSlice decoder config backend (CommitsOnce fromSlice decoder) owner) :
    ∃ state entries, owner.Recovers fromSlice decoder state entries ∧ OneCommit entries ∧
      ConsumedByRecord state entries := by
  obtain ⟨log, state, records, entries, hholds, hinv⟩ :=
    h.invariant hbroker hjournal CommittedOnce .empty fun hholds hafter hinv hpermits hcondition
        hleases hentries => by
      obtain ⟨honce, hown, hcollects⟩ := hcondition _ _ (hholds.recovers hbroker hjournal)
      refine ⟨hinv.backed.step hholds hpermits hown hcollects hleases hentries,
        hinv.once_step hholds hpermits honce hown hentries, ?_⟩
      intro finalization hfinalization hkind operationId entry hentry hcommitted hbound
      exact hinv.running_step hholds hpermits honce hown hentries hafter hfinalization hkind hentry
        hcommitted hbound
  exact ⟨state, entries, hholds.recovers hbroker hjournal, hinv.once, hholds.consumed⟩

-- The events of one edit meet the condition: the lease is prepared once, and its callback
-- commits the one operation it has prepared.
theorem reaches_committed :
    Reaches editBrokerDecoder editJournalDecoder editConfig
      (CommitsOnce editBrokerDecoder editJournalDecoder) (preparedEdit 1)
      (editCommitted ⟨0, none, ∅⟩ nullForm)
      (some ⟨.ExternalMutation, editReservation, preparedLease 1, 3, [editOperationId nullForm]⟩) := by
  have hroutine : ∀ owner event, OwnerEvent.Routine event →
      CommitsOnce editBrokerDecoder editJournalDecoder owner event := by
    intro owner event hroutine state entries _
    unfold OwnerEvent.Routine at hroutine
    split at hroutine <;> first | exact ⟨trivial, trivial, trivial⟩ | contradiction
  have hreserved := reaches_reserved hroutine editBrokerDecoder_readsBack
    editJournalDecoder_readsBack
  refine Reaches.edit hroutine nullForm (Reaches.prepareAgain 0 hreserved ?_) rfl (by simp) ?_
  · intro owner hrun hstage state entries hrecovers
    obtain ⟨rfl, rfl⟩ := (hstage.recovers editBrokerDecoder_readsBack editJournalDecoder_readsBack
      hrun).unique hrecovers
    refine ⟨fun lease hlease => ?_, trivial, trivial⟩
    obtain rfl := Option.some.inj ((preparedEdit_leases 0).symm.trans hlease)
    rfl
  · intro owner hrun hstage state entries hrecovers
    obtain ⟨rfl, rfl⟩ := (hstage.recovers editBrokerDecoder_readsBack editJournalDecoder_readsBack
      hrun).unique hrecovers
    refine ⟨?_, commitsOwn_edit hstage rfl rfl, trivial⟩
    intro finalization hfinalization other hother
    rw [hstage.finalization] at hfinalization
    obtain rfl := Option.some.inj hfinalization
    cases hother

-- The callback fails after its COMMIT; the reservation is finalized again, and the callback
-- commits another payload.
theorem reaches_twice (hdiffers : editOperationId trueForm ≠ editOperationId nullForm) :
    Reaches editBrokerDecoder editJournalDecoder editConfig (fun _ _ => True) (preparedEdit 2)
      (editCommitted (editCommitted ⟨0, none, ∅⟩ nullForm) trueForm)
      (some ⟨.ExternalMutation, editReservation, preparedLease 2, 3, [editOperationId trueForm]⟩) := by
  have hany : ∀ (owner : Owner) event, OwnerEvent.Routine event → True := fun _ _ _ => trivial
  have hreserved := reaches_reserved hany editBrokerDecoder_readsBack editJournalDecoder_readsBack
  have hfirst := Reaches.edit hany nullForm
    (Reaches.prepareAgain 0 hreserved fun _ _ _ => trivial) rfl (by simp) fun _ _ _ => trivial
  have hrefused := Reaches.refuse "callback failed" hfirst rfl fun _ => trivial
  have hagain := Reaches.prepareAgain 1 hrefused fun _ _ _ => trivial
  have hfresh : (editCommitted ⟨0, none, ∅⟩ nullForm).entries[editOperationId trueForm]? = none := by
    rw [editCommitted_other hdiffers.symm]
    simp
  exact Reaches.edit hany trueForm hagain rfl hfresh fun _ _ _ => trivial

theorem two_commits (hdiffers : editOperationId trueForm ≠ editOperationId nullForm) :
    ¬OneCommit (editCommitted (editCommitted ⟨0, none, ∅⟩ nullForm) trueForm) := by
  intro hone
  have hfirst := (editCommitted_other hdiffers).trans (@editCommitted_entries _ ⟨0, none, ∅⟩ nullForm)
  have hsecond := @editCommitted_entries _ (editCommitted ⟨0, none, ∅⟩ nullForm) trueForm
  obtain ⟨hcommitted, hreservation, hlease⟩ := editCommitted_bound
  obtain ⟨hcommitted', hreservation', hlease'⟩ := editCommitted_bound
  exact hdiffers (hone _ _ _ _ hsecond hfirst hcommitted hcommitted'
    ⟨hreservation'.trans hreservation.symm, hlease'.trans hlease.symm⟩)

omit [Sha256]

-- One edit that is committed.
theorem ownerRun_commits_edit :
    letI := standardSha256
    ∃ owner state entries,
      OwnerRun editBrokerDecoder editJournalDecoder editConfig false
        (CommitsOnce editBrokerDecoder editJournalDecoder) owner ∧
      owner.Recovers editBrokerDecoder editJournalDecoder state entries ∧
      (∃ (operationId : String) (entry : ExternalMutationJournalEntryV1),
        entries.entries[operationId]? = some entry ∧ entry.IsCommitted) ∧
      OneCommit entries ∧ ConsumedByRecord state entries := by
  let _ := standardSha256
  obtain ⟨owner, hrun, hstage⟩ := reaches_committed
  obtain ⟨state, entries, hrecovers, hsafe⟩ := ownerRun_commits_once editBrokerDecoder_readsBack
    editJournalDecoder_readsBack hrun
  obtain ⟨-, rfl⟩ := (hstage.recovers editBrokerDecoder_readsBack editJournalDecoder_readsBack
    hrun).unique hrecovers
  exact ⟨owner, state, _, hrun, hrecovers, ⟨_, _, editCommitted_entries, editCommitted_bound.1⟩,
    hsafe⟩

theorem editOperationId_trueForm :
    letI := standardSha256
    editOperationId trueForm =
      "519183954ffbfcfd71a502da47299f5ebc612323e1759a6431b659840d6f49d8" := by
  decide +kernel

theorem editOperationId_nullForm :
    letI := standardSha256
    editOperationId nullForm =
      "4464087da54ec82f3cec52b9585b47a22ebf7d430c4662533d7e56932ebbb1be" := by
  decide +kernel

theorem editOperationId_differs :
    letI := standardSha256
    editOperationId trueForm ≠ editOperationId nullForm := by
  rw [editOperationId_trueForm, editOperationId_nullForm]
  decide

theorem retried_finalization_commits_twice :
    letI := standardSha256
    ¬∀ owner, OwnerRun editBrokerDecoder editJournalDecoder editConfig false (fun _ _ => True) owner →
      ∃ state entries, owner.Recovers editBrokerDecoder editJournalDecoder state entries ∧
        OneCommit entries ∧ ConsumedByRecord state entries := by
  let _ := standardSha256
  intro hsafe
  obtain ⟨owner, hrun, hstage⟩ := reaches_twice editOperationId_differs
  obtain ⟨state, entries, hrecovers, hone, -⟩ := hsafe owner hrun
  obtain ⟨-, rfl⟩ := (hstage.recovers editBrokerDecoder_readsBack editJournalDecoder_readsBack
    hrun).unique hrecovers
  exact two_commits editOperationId_differs hone

end M1nd.Mcp
