import M1nd.Mcp.OwnerFinalization.SourceEdit

namespace M1nd.Mcp

open M1nd.Control
open M1nd.Library.Checks
open M1nd.Library.Durable
open ChainedJournal (Store Traced)

variable [Sha256] {fromSlice : BrokerDecoder} {decoder : ExternalMutationDecoder}
  {config : OwnerAuthorizationBrokerConfigV1} {backend : Bool} {owner : Owner} {event : OwnerEvent}
  {log log' : List BrokerJournalRecordV1} {state state' : BrokerStateV1}
  {records records' : List ExternalMutationJournalRecordV1}
  {entries entries' : ExternalMutationJournalStateV1}

-- `abort_reserved` is not called on a lease that was prepared.
def Owner.AbortsUnprepared (state : BrokerStateV1) : OwnerEvent → Prop
  | .Broker (.AbortReserved reservation _) _ _ => ∀ lease : OwnerAuthorizationLeaseV1,
      state.leases[reservation.leaseId]? = some lease → lease.finalizationSnapshot = none
  | _ => True

-- Recovery is given the commit witness whenever a COMMIT of the reservation is durable.
def Owner.RecoversCommitted (owner : Owner) (state : BrokerStateV1)
    (entries : ExternalMutationJournalStateV1) : OwnerEvent → Prop
  | .Broker (.RecoverReserved leaseId none) _ _
  | .Broker (.RecoverExternalReserved leaseId none) _ _
  | .Broker (.RecoverExternalPreparedWithoutCommit leaseId _) _ _
  | .Broker (.RecoverExternalReservedWithoutJournal leaseId _) _ _ =>
      ∀ (lease : OwnerAuthorizationLeaseV1) (reservation : AuthorizationReservationV1),
        state.leases[leaseId]? = some lease → lease.reservation = some reservation →
        ¬owner.Committed entries reservation.reservationId leaseId
  | _ => True

-- How a prepared lease may become ABORTED.
inductive AbortedByRecovery (owner : Owner) (event : OwnerEvent)
    (lease : OwnerAuthorizationLeaseV1) : Prop
  | Prepared {witness : ExternalMutationPreparedAbortWitnessV1} {nowMs : Nat} {fates : List Fate}
      (h : event =
        .Broker (.RecoverExternalPreparedWithoutCommit lease.leaseId witness) nowMs fates)
      (hanswered : witness ∈ owner.preparedWitnesses) (hmatches : PreparedMatches witness lease)
  | Expired {nowMs : Nat} {fates : List Fate}
      (h : event = .Broker (.RecoverReserved lease.leaseId none) nowMs fates)
      (hexpired : reservationExpired lease nowMs = true)

-- A lease that was prepared is aborted by a recovery, and by nothing else.
def AbortsByRecovery (fromSlice : BrokerDecoder) (decoder : ExternalMutationDecoder)
    (owner : Owner) (event : OwnerEvent) (after : Owner) : Prop :=
  ∀ state entries state' entries', owner.Recovers fromSlice decoder state entries →
    after.Recovers fromSlice decoder state' entries' →
    ∀ (leaseId : String) (lease later : OwnerAuthorizationLeaseV1),
      state.leases[leaseId]? = some lease → lease.finalizationSnapshot.isSome = true →
      lease.state ≠ .Aborted → state'.leases[leaseId]? = some later → later.state = .Aborted →
      AbortedByRecovery owner event lease

-- No lease is ABORTED while a COMMIT of its reservation is durable.
def NoCommitAborted (owner : Owner) (state : BrokerStateV1)
    (entries : ExternalMutationJournalStateV1) : Prop :=
  ∀ (leaseId : String) (lease : OwnerAuthorizationLeaseV1)
    (reservation : AuthorizationReservationV1), state.leases[leaseId]? = some lease →
    lease.state = .Aborted → lease.reservation = some reservation →
    ¬owner.Committed entries reservation.reservationId leaseId

def AbortsSafely (fromSlice : BrokerDecoder) (decoder : ExternalMutationDecoder) (owner : Owner)
    (event : OwnerEvent) : Prop :=
  ∀ state entries, owner.Recovers fromSlice decoder state entries →
    Owner.AbortsUnprepared state event ∧ owner.CommitsOwn entries event ∧
      owner.CollectsUnreferenced entries event ∧ owner.RecoversCommitted state entries event

omit [Sha256] in
-- What aborts a prepared lease.
theorem AbortCause.recovery {operation : BrokerOperation} {nowMs : Nat} {fates : List Fate}
    {lease : OwnerAuthorizationLeaseV1} (h : AbortCause operation nowMs lease)
    (hpermits : owner.Permits (.Broker operation nowMs fates))
    (hunprepared : Owner.AbortsUnprepared state (.Broker operation nowMs fates))
    (hlease : state.leases[lease.leaseId]? = some lease)
    (hsnapshot : lease.finalizationSnapshot.isSome = true) :
    AbortedByRecovery owner (.Broker operation nowMs fates) lease := by
  cases h with
  | Request hoperation hid =>
      subst hoperation
      have hnone := hunprepared lease (by rw [hid]; exact hlease)
      rw [hnone] at hsnapshot
      cases hsnapshot
  | Expired hoperation hexpired =>
      subst hoperation
      exact .Expired rfl hexpired
  | Prepared hoperation hmatches =>
      subst hoperation
      exact .Prepared rfl hpermits.2 hmatches
  | NeverPrepared hnone =>
      rw [hnone] at hsnapshot
      cases hsnapshot

theorem OwnerHolds.aborts (hbroker : BrokerReadsBack fromSlice)
    (hjournal : ExternalMutationReadsBack decoder)
    (h : OwnerHolds fromSlice decoder owner log state records entries)
    (hpermits : owner.Permits event)
    (hunprepared : ∀ state entries, owner.Recovers fromSlice decoder state entries →
      Owner.AbortsUnprepared state event) :
    AbortsByRecovery fromSlice decoder owner event
      (owner.apply fromSlice decoder config backend event) := by
  intro before befores after afters hbefore hafter leaseId lease later hlease hsnapshot hopen hlater
    haborted
  obtain ⟨rfl, rfl⟩ := (h.recovers hbroker hjournal).unique hbefore
  obtain ⟨log', state', records', entries', hholds, hleases, -⟩ :=
    @OwnerHolds.apply _ _ _ config backend _ _ _ _ _ _ hbroker hjournal h hpermits
  obtain ⟨rfl, rfl⟩ := (hholds.recovers hbroker hjournal).unique hafter
  have hkept := wellKept_of_traced h.broker.stored.traced
  obtain ⟨hid, -⟩ := hkept _ _ hlease
  obtain ⟨next, hnext, hkeeps⟩ | ⟨hnone, -⟩ := hleases.keeps hkept h.underway hlease
  · obtain rfl : later = next := Option.some.inj (hlater.symm.trans hnext)
    obtain hold | ⟨operation, nowMs, fates, rfl, -, hcause⟩ := hkeeps.aborted haborted
    · exact absurd hold hopen
    · exact hcause.recovery hpermits (hunprepared _ _ hbefore) (by rw [hid]; exact hlease) hsnapshot
  · rw [hnone] at hlater
    cases hlater

theorem NoCommitAborted.step (h : NoCommitAborted owner state entries)
    (hbacked : Backed owner state entries)
    (hholds : OwnerHolds fromSlice decoder owner log state records entries)
    (hpermits : owner.Permits event) (hunprepared : Owner.AbortsUnprepared state event)
    (hown : owner.CommitsOwn entries event)
    (hinformed : owner.RecoversCommitted state entries event)
    (hleases : BrokerStep owner event state state')
    (hentries : JournalStep event records entries records' entries') :
    NoCommitAborted (owner.apply fromSlice decoder config backend event) state' entries' := by
  intro leaseId later reservation hlater haborted hreservation hcommitted
  have hkept := wellKept_of_traced hholds.broker.stored.traced
  obtain hold | ⟨⟨finalization, hfinalization, -, rfl⟩, hsame⟩ := Committed.step
    (entriesKept_of_traced hholds.journal.stored.traced) hentries hpermits hown
    (fun finalization hfinalization => underway_leaseId hkept
      (hholds.underway finalization hfinalization)) hcommitted
  · obtain ⟨lease, before, hlease, hbefore, hid, hsnapshot⟩ := hbacked _ _ hold
    obtain ⟨hleaseId, -⟩ := hkept _ _ hlease
    obtain ⟨next, hnext, hkeeps⟩ | ⟨hnone, -⟩ := hleases.keeps hkept hholds.underway hlease
    · obtain rfl : later = next := Option.some.inj (hlater.symm.trans hnext)
      obtain habortedBefore | ⟨operation, nowMs, fates, rfl, -, hcause⟩ := hkeeps.aborted haborted
      · refine h leaseId lease before hlease habortedBefore hbefore ?_
        rw [hid]
        exact hold
      · have hrecovery := hcause.recovery hpermits hunprepared (by rw [hleaseId]; exact hlease)
          hsnapshot
        have hcommit : owner.Committed entries before.reservationId lease.leaseId := by
          rw [hid, hleaseId]
          exact hold
        rw [← hleaseId] at hlease
        cases hrecovery with
        | Prepared hevent _ _ =>
            injection hevent with hoperation
            subst hoperation
            exact hinformed lease before hlease hbefore hcommit
        | Expired hevent _ =>
            injection hevent with hoperation
            subst hoperation
            exact hinformed lease before hlease hbefore hcommit
    · rw [hnone] at hlater
      cases hlater
  · have hgoing := hholds.underway finalization hfinalization
    rw [hsame hleases, hgoing.filed] at hlater
    obtain rfl := Option.some.inj hlater
    rw [hgoing.reserved] at haborted
    cases haborted

-- Prepared leases are aborted by recovery only; and if recovery is told of every durable COMMIT,
-- none of them is aborted against one.
theorem ownerRun_aborts_safely (hbroker : BrokerReadsBack fromSlice)
    (hjournal : ExternalMutationReadsBack decoder) :
    (∀ owner event, OwnerRun fromSlice decoder config backend (fun _ _ => True) owner →
      owner.Permits event →
      (∀ state entries, owner.Recovers fromSlice decoder state entries →
        Owner.AbortsUnprepared state event) →
      AbortsByRecovery fromSlice decoder owner event
        (owner.apply fromSlice decoder config backend event)) ∧
    ∀ owner, OwnerRun fromSlice decoder config backend (AbortsSafely fromSlice decoder) owner →
      ∃ state entries, owner.Recovers fromSlice decoder state entries ∧
        NoCommitAborted owner state entries := by
  constructor
  · intro owner event h hpermits hunprepared
    obtain ⟨log, state, records, entries, hholds, -⟩ :=
      h.invariant hbroker hjournal (fun _ _ _ => True) trivial fun _ _ _ _ _ _ _ => trivial
    exact hholds.aborts hbroker hjournal hpermits hunprepared
  · intro owner h
    obtain ⟨log, state, records, entries, hholds, -, hnone⟩ :=
      h.invariant hbroker hjournal
        (fun owner state entries => Backed owner state entries ∧
          NoCommitAborted owner state entries) ⟨Backed.empty, by simp [NoCommitAborted]⟩
        fun hholds _ hinv hpermits hcondition hleases hentries => by
          obtain ⟨hunprepared, hown, hcollects, hinformed⟩ :=
            hcondition _ _ (hholds.recovers hbroker hjournal)
          obtain ⟨hbacked, hnone⟩ := hinv
          exact ⟨hbacked.step hholds hpermits hown hcollects hleases hentries,
            hnone.step hbacked hholds hpermits hunprepared hown hinformed hleases hentries⟩
    exact ⟨state, entries, hholds.recovers hbroker hjournal, hnone⟩

-- The events of one committed edit meet the condition.
theorem reaches_safely :
    Reaches editBrokerDecoder editJournalDecoder editConfig
      (AbortsSafely editBrokerDecoder editJournalDecoder) (preparedEdit 1)
      (editCommitted ⟨0, none, ∅⟩ nullForm)
      (some ⟨.ExternalMutation, editReservation, preparedLease 1, 3, [editOperationId nullForm]⟩) := by
  have hroutine : ∀ owner event, OwnerEvent.Routine event →
      AbortsSafely editBrokerDecoder editJournalDecoder owner event := by
    intro owner event hroutine state entries _
    unfold OwnerEvent.Routine at hroutine
    split at hroutine <;> first | exact ⟨trivial, trivial, trivial, trivial⟩ | contradiction
  have hreserved := reaches_reserved hroutine editBrokerDecoder_readsBack
    editJournalDecoder_readsBack
  refine Reaches.edit hroutine nullForm (Reaches.prepareAgain 0 hreserved ?_) rfl (by simp) ?_
  · exact fun _ _ _ _ _ _ => ⟨trivial, trivial, trivial, trivial⟩
  · intro owner hrun hstage state entries hrecovers
    obtain ⟨rfl, rfl⟩ := (hstage.recovers editBrokerDecoder_readsBack editJournalDecoder_readsBack
      hrun).unique hrecovers
    exact ⟨trivial, commitsOwn_edit hstage rfl rfl, trivial, trivial⟩

-- The callback fails after its COMMIT, and the reservation is aborted.

def abortedEdit : OwnerAuthorizationLeaseV1 :=
  ended .Aborted {
    kind := .Aborted
    outcomeDigest := zeroDigest
    walWitness := none
    externalMutationWitness := none
    terminalAt := 5 } (preparedLease 1)

theorem abortReserved_edit : (preparedEdit 1).abortReserved editReservation zeroDigest 5 =
    .ok (.Append .Aborted abortedEdit) := by
  obtain ⟨-, hstate, hreservation, -⟩ := preparedLease_spec 1
  have hexact : exactReserved (preparedEdit 1) editReservation 5 false = .ok (preparedLease 1) := by
    simp only [exactReserved, bind_eq_ok, exists_unit, rejectIf_eq_ok, pure_eq_ok]
    exact ⟨_, findLease_eq_ok.mpr (preparedEdit_leases 1), by simp [hstate, hreservation], rfl⟩
  simp only [BrokerStateV1.abortReserved, bind_eq_ok, abortReservedLocked, exists_unit,
    rejectIf_eq_ok, pure_eq_ok]
  exact ⟨_, hexact, by simp [isDigest_zeroDigest], rfl⟩

theorem abortedEdit_shape : validateLeaseShape abortedEdit = .ok () := by
  obtain ⟨-, -, hreservation, -, hshape⟩ := preparedLease_spec 1
  simp only [validateLeaseShape, bind_unit_eq_ok, rejectIf_eq_ok, not_or] at hshape ⊢
  obtain ⟨⟨hschema, hid, htime, -, hdigest⟩, hbinding, -, -⟩ := hshape
  refine ⟨⟨hschema, hid, htime, Nat.succ_ne_zero _, hdigest⟩, hbinding, ?_, ?_⟩
  · simp [abortedEdit, ended, stateShape, hreservation]
  · simp [abortedEdit, ended, witnessShape, isDigest_zeroDigest]

theorem reaches_aborted {condition : Owner → OwnerEvent → Prop}
    (hcondition : ∀ owner event, (∀ operation nowMs fates, event = .Broker operation nowMs fates →
      (∃ id receipt, operation = .Issue id receipt) ∨
        (∃ id session context object, operation = .Reserve id session context object) ∨
        ∃ reservation reason, operation = .AbortReserved reservation reason) →
      condition owner event) :
    Reaches editBrokerDecoder editJournalDecoder editConfig condition
      ((preparedEdit 1).filed .Aborted abortedEdit 5) (editCommitted ⟨0, none, ∅⟩ nullForm) none := by
  have hroutine : ∀ owner event, OwnerEvent.Routine event → condition owner event := by
    intro owner event hroutine
    refine hcondition owner event ?_
    rintro operation nowMs fates rfl
    cases operation <;> simp_all [OwnerEvent.Routine]
  have hreserved := reaches_reserved hroutine editBrokerDecoder_readsBack
    editJournalDecoder_readsBack
  have hcommitted := Reaches.edit hroutine nullForm
    (Reaches.prepareAgain 0 hreserved fun owner _ _ => hcondition owner _ (by simp)) rfl (by simp)
    fun owner _ _ => hcondition owner _ (by simp)
  have hrefused := Reaches.refuse "callback failed" hcommitted rfl fun owner =>
    hroutine owner _ trivial
  have habort : ∀ owner, condition owner
      (.Broker (.AbortReserved editReservation zeroDigest) 5 []) := by
    intro owner
    refine hcondition owner _ ?_
    rintro _ _ _ ⟨⟩
    exact .inr (.inr ⟨_, _, rfl⟩)
  exact hrefused.operate (.AbortReserved editReservation zeroDigest) (fun _ => trivial) habort rfl
    abortReserved_edit abortedEdit_shape nofun

-- Events that recover nothing have nothing to be told.
theorem recoversCommitted_plain (owner : Owner) (event : OwnerEvent)
    (h : ∀ operation nowMs fates, event = .Broker operation nowMs fates →
      (∃ id receipt, operation = .Issue id receipt) ∨
        (∃ id session context object, operation = .Reserve id session context object) ∨
        ∃ reservation reason, operation = .AbortReserved reservation reason) :
    ∀ state entries, owner.Recovers editBrokerDecoder editJournalDecoder state entries →
      owner.RecoversCommitted state entries event := by
  intro state entries _
  cases event with
  | Broker operation nowMs fates =>
      obtain ⟨_, _, rfl⟩ | ⟨_, _, _, _, rfl⟩ | ⟨_, _, rfl⟩ := h operation nowMs fates rfl <;>
        trivial
  | _ => trivial

omit [Sha256]

-- One edit that is committed, and whose lease is not aborted.
theorem ownerRun_keeps_edit :
    letI := standardSha256
    ∃ owner state entries,
      OwnerRun editBrokerDecoder editJournalDecoder editConfig false
        (AbortsSafely editBrokerDecoder editJournalDecoder) owner ∧
      owner.Recovers editBrokerDecoder editJournalDecoder state entries ∧
      owner.Committed entries editReservation.reservationId "lease" ∧
      NoCommitAborted owner state entries := by
  let _ := standardSha256
  obtain ⟨owner, hrun, hstage⟩ := reaches_safely
  obtain ⟨state, entries, hrecovers, hsafe⟩ := (ownerRun_aborts_safely editBrokerDecoder_readsBack
    editJournalDecoder_readsBack).2 owner hrun
  obtain ⟨-, rfl⟩ := (hstage.recovers editBrokerDecoder_readsBack editJournalDecoder_readsBack
    hrun).unique hrecovers
  obtain ⟨hcommitted, hbound⟩ := editCommitted_bound
  exact ⟨owner, state, _, hrun, hrecovers, .inl ⟨_, _, editCommitted_entries, hcommitted, hbound⟩,
    hsafe⟩

theorem abortReserved_contradicts_commit :
    letI := standardSha256
    ¬((∀ owner event,
        OwnerRun editBrokerDecoder editJournalDecoder editConfig false (fun _ _ => True) owner →
        owner.Permits event →
        AbortsByRecovery editBrokerDecoder editJournalDecoder owner event
          (owner.apply editBrokerDecoder editJournalDecoder editConfig false event)) ∧
      ∀ owner, OwnerRun editBrokerDecoder editJournalDecoder editConfig false (fun owner event =>
          ∀ state entries, owner.Recovers editBrokerDecoder editJournalDecoder state entries →
            owner.RecoversCommitted state entries event) owner →
        ∃ state entries, owner.Recovers editBrokerDecoder editJournalDecoder state entries ∧
          NoCommitAborted owner state entries) := by
  let _ := standardSha256
  rintro ⟨-, hsafe⟩
  obtain ⟨owner, hrun, hstage⟩ := reaches_aborted recoversCommitted_plain
  obtain ⟨state, entries, hrecovers, hnone⟩ := hsafe owner hrun
  obtain ⟨rfl, rfl⟩ := (hstage.recovers editBrokerDecoder_readsBack editJournalDecoder_readsBack
    hrun).unique hrecovers
  obtain ⟨hcommitted, hbound⟩ := editCommitted_bound
  obtain ⟨hid, -, hreservation, -⟩ := preparedLease_spec 1
  have hfiled : abortedEdit.leaseId = "lease" := hid
  refine hnone "lease" abortedEdit editReservation ?_ rfl hreservation
    (.inl ⟨_, _, editCommitted_entries, hcommitted, hbound⟩)
  rw [filed_leases, if_pos hfiled]

end M1nd.Mcp
