import M1nd.Mcp.ExternalMutationJournal.Theorems
import M1nd.Mcp.OwnerAuthorizationBroker.Journal
import M1nd.Mcp.OwnerFinalization.Leases

namespace M1nd.Mcp

open M1nd.Control
open M1nd.Library
open M1nd.Library.Checks
open M1nd.Library.Durable
open ChainedJournal (Store Traced)

variable [Sha256] {fromSlice : BrokerDecoder} {decoder : ExternalMutationDecoder}
  {config : OwnerAuthorizationBrokerConfigV1} {backend : Bool} {owner : Owner} {event : OwnerEvent}
  {log : List BrokerJournalRecordV1} {state next : BrokerStateV1}
  {records records' : List ExternalMutationJournalRecordV1}
  {entries entries' : ExternalMutationJournalStateV1}

-- The lease once the first half of a finalization is durable.
def prepared (current : AuthorityRuntimeStateCoreV1) (nowMs : Nat)
    (lease : OwnerAuthorizationLeaseV1) : OwnerAuthorizationLeaseV1 :=
  { lease with
    finalizationSnapshot := some (finalizationSnapshot current nowMs)
    revision := lease.revision + 1 }

-- What an event leaves of the leases on disk.
inductive BrokerStep (owner : Owner) (event : OwnerEvent) (state : BrokerStateV1) :
    BrokerStateV1 → Prop
  | Same : BrokerStep owner event state state
  | Operated {operation : BrokerOperation} {nowMs : Nat} {fates : List Fate}
      {kind : BrokerJournalEventKindV1} {lease : OwnerAuthorizationLeaseV1}
      (h : event = .Broker operation nowMs fates) (hstep : LeaseStep operation nowMs state lease) :
      BrokerStep owner event state (state.filed kind lease nowMs)
  | Collected {unreferenced : OwnerAuthorizationLeaseV1 → Bool} {nowMs : Nat} {fates : List Fate}
      {next : BrokerStateV1} (h : event = .Broker (.Gc unreferenced) nowMs fates)
      (hshrunk : Shrunk (state.gcCandidates nowMs unreferenced) state next) :
      BrokerStep owner event state next
  | Prepared {kind : FinalizationKind} {reservation : AuthorizationReservationV1}
      {current : AuthorityRuntimeStateCoreV1} {nowMs : Nat} {fates : List Fate}
      {lease : OwnerAuthorizationLeaseV1}
      (h : event = .Finalize kind reservation current nowMs fates)
      (hvalid : validateForFinalization state reservation current nowMs = .ok lease) :
      BrokerStep owner event state
        (state.filed .FinalizationPrepared (prepared current nowMs lease) nowMs)
  | ConsumedByWal {finalization : Finalization} {witness : AuthorityWalCommitWitnessV1}
      {fates : List Fate} (h : owner.finalization = some finalization)
      (hevent : event = .FinishWal (.returned witness) fates) :
      BrokerStep owner event state (state.filed .Consumed
        (consumedByWal witness finalization.nowMs finalization.lease) finalization.nowMs)
  | ConsumedByExternalMutation {finalization : Finalization}
      {witness : ExternalMutationCommitWitnessV1} {fates : List Fate}
      (h : owner.finalization = some finalization)
      (hevent : event = .FinishExternalMutation (.returned witness) fates)
      (hvalid : validateExternalMutationWitness finalization.lease witness finalization.nowMs =
        .ok ()) :
      BrokerStep owner event state (state.filed .Consumed
        (consumedByExternalMutation witness finalization.nowMs finalization.lease)
        finalization.nowMs)

-- And what it leaves of the operations.
inductive JournalStep (event : OwnerEvent) (records : List ExternalMutationJournalRecordV1)
    (entries : ExternalMutationJournalStateV1) :
    List ExternalMutationJournalRecordV1 → ExternalMutationJournalStateV1 → Prop
  | Same : JournalStep event records entries records entries
  | Moved {operation : ExternalMutationOperation} {fates : List Fate}
      {records' : List ExternalMutationJournalRecordV1}
      {entries' : ExternalMutationJournalStateV1} (h : event = .Journal operation fates)
      (hmoved : EntryMoved operation entries records records' entries') :
      JournalStep event records entries records' entries'

-- The lease of a running finalization is on disk as the first half left it.
structure Underway (state : BrokerStateV1) (finalization : Finalization) : Prop where
  filed : state.leases[finalization.lease.leaseId]? = some finalization.lease
  reserved : finalization.lease.state = .Reserved
  reservation : finalization.lease.reservation = some finalization.reservation
  snapshot : finalization.lease.finalizationSnapshot.isSome = true

section Broker

omit [Sha256] in
theorem validated_lease {reservation : AuthorizationReservationV1}
    {current : AuthorityRuntimeStateCoreV1} {nowMs : Nat} {lease : OwnerAuthorizationLeaseV1}
    (hkept : WellKept state)
    (h : validateForFinalization state reservation current nowMs = .ok lease) :
    state.leases[lease.leaseId]? = some lease ∧ lease.leaseId = reservation.leaseId ∧
      lease.state = .Reserved ∧ lease.reservation = some reservation := by
  obtain ⟨hfound, hreserved, hreservation⟩ := validateForFinalization_eq_ok h
  obtain ⟨hid, hfiled⟩ := hkept.found hfound
  exact ⟨hfiled, hid, hreserved, hreservation⟩

theorem underway_prepared {kind : FinalizationKind} {reservation : AuthorizationReservationV1}
    {current : AuthorityRuntimeStateCoreV1} {nowMs : Nat} {lease : OwnerAuthorizationLeaseV1}
    {committing : List String}
    (h : validateForFinalization state reservation current nowMs = .ok lease) :
    Underway (state.filed .FinalizationPrepared (prepared current nowMs lease) nowMs)
      ⟨kind, reservation, prepared current nowMs lease, nowMs, committing⟩ := by
  obtain ⟨-, hreserved, hreservation⟩ := validateForFinalization_eq_ok h
  exact ⟨Std.ExtTreeMap.getElem?_insert_self, hreserved, hreservation, rfl⟩

variable {world : BrokerWorld} {nowMs : Nat}

-- The first half of a finalization: when it returns, the prepared lease is on disk.
theorem prepareFinalization_always (reservation : AuthorizationReservationV1)
    (current : AuthorityRuntimeStateCoreV1) (nowMs : Nat) (hdecode : BrokerReadsBack fromSlice)
    (h : BrokerHeld fromSlice world log state) :
    Always (perform fromSlice (·.prepareFinalization reservation current nowMs) nowMs) world
      fun o after => ∃ log' state', BrokerLeft fromSlice o after log' state' ∧
        ((state' = state ∧ ∀ lease, o ≠ .returned lease) ∨
          ∃ lease, validateForFinalization state reservation current nowMs = .ok lease ∧
            state' = state.filed .FinalizationPrepared (prepared current nowMs lease) nowMs ∧
            ∀ value, o = .returned value → value = prepared current nowMs lease) := by
  have hfits := fun kind lease =>
    @prepareFinalization_fits state lease kind nowMs reservation current
      (wellKept_of_traced h.stored.traced)
  have hmoved : ∀ {log' state'}, Moved (·.prepareFinalization reservation current nowMs) state
      nowMs log log' state' → state' = state ∨
        ∃ lease, validateForFinalization state reservation current nowMs = .ok lease ∧
          state' = state.filed .FinalizationPrepared (prepared current nowMs lease) nowMs := by
    rintro log' state' (_ | happend)
    · exact .inl rfl
    · obtain ⟨lease, hvalid, rfl, rfl⟩ := prepareFinalization_eq_ok happend
      exact .inr ⟨lease, hvalid, rfl⟩
  refine (perform_always hdecode h hfits).mono ?_
  rintro (value | error | _) after ⟨⟨log', state', hleft, hchange⟩, hreturned⟩
  · obtain ⟨hkeep, -⟩ | ⟨kind, happend, -, hheld⟩ := hreturned value rfl
    · simp only [BrokerStateV1.prepareFinalization, bind_eq_ok, pure_eq_ok] at hkeep
      obtain ⟨_, -, hkeep⟩ := hkeep
      cases hkeep
    · obtain ⟨lease, hvalid, rfl, rfl⟩ := prepareFinalization_eq_ok happend
      refine ⟨_, _, hheld, .inr ⟨lease, hvalid, rfl, ?_⟩⟩
      rintro _ ⟨⟩
      rfl
  · refine ⟨log', state', hleft, (hmoved hchange).imp (fun hsame => ⟨hsame, by simp⟩) ?_⟩
    rintro ⟨lease, hvalid, hnext⟩
    exact ⟨lease, hvalid, hnext, by simp⟩
  · refine ⟨log', state', hleft, (hmoved hchange).imp (fun hsame => ⟨hsame, by simp⟩) ?_⟩
    rintro ⟨lease, hvalid, hnext⟩
    exact ⟨lease, hvalid, hnext, by simp⟩

-- An operation without a callback appends at most one snapshot.
theorem operation_always (hdecode : BrokerReadsBack fromSlice)
    (h : BrokerHeld fromSlice world log state) {operation : BrokerOperation}
    (hplan : ∀ state, operation.plan config nowMs state ≠ none) :
    Always (operation.program fromSlice config nowMs) world fun o after =>
      ∃ log' state', BrokerLeft fromSlice o after log' state' ∧
        (state' = state ∨ ∃ kind lease, LeaseStep operation nowMs state lease ∧
          state' = state.filed kind lease nowMs) := by
  have hkept := wellKept_of_traced h.stored.traced
  have hperform : ∀ plan : BrokerStateV1 → LeasePlan,
      (∀ state, operation.plan config nowMs state = some (plan state)) →
      (∀ kind lease, plan state = .ok (.Append kind lease) → Fits state kind lease) →
      Always (do let _ ← perform fromSlice plan nowMs : BrokerProgram Unit) world fun o after =>
        ∃ log' state', BrokerLeft fromSlice o after log' state' ∧
          (state' = state ∨ ∃ kind lease, LeaseStep operation nowMs state lease ∧
            state' = state.filed kind lease nowMs) := by
    intro plan hplan hfits
    have hmoved : ∀ {log' state'}, Moved plan state nowMs log log' state' →
        state' = state ∨ ∃ kind lease, LeaseStep operation nowMs state lease ∧
          state' = state.filed kind lease nowMs := by
      rintro log' state' (_ | happend)
      · exact .inl rfl
      · have hdecided := (hplan state).trans (congrArg some happend)
        exact .inr ⟨_, _, BrokerOperation.plan_step hkept hdecided, rfl⟩
    refine .bind ((perform_always hdecode h hfits).mono ?_)
    rintro (lease | error | _) after ⟨⟨log', state', hleft, hchange⟩, -⟩
    · exact .pure ⟨log', state', hleft, hmoved hchange⟩
    · exact ⟨log', state', hleft, hmoved hchange⟩
    · exact ⟨log', state', hleft, hmoved hchange⟩
  cases operation with
  | Issue leaseId receipt => exact hperform _ (fun _ => rfl) fun _ _ => issue_fits
  | Reserve leaseId session context object =>
      exact hperform _ (fun _ => rfl) fun _ _ => reserve_fits hkept
  | ReserveLand leaseId session context transaction =>
      exact hperform _ (fun _ => rfl) fun _ _ => reserveLand_fits hkept
  | FinalizeRead reservation current digest =>
      exact hperform _ (fun _ => rfl) fun _ _ => finalizeRead_fits hkept
  | AdmitNonWal reservation current =>
      exact hperform _ (fun _ => rfl) fun _ _ => consumedNow_fits hkept
  | AbortReserved reservation reason =>
      exact hperform _ (fun _ => rfl) fun _ _ => abortReserved_fits hkept
  | RecoverReserved leaseId witness =>
      exact hperform _ (fun _ => rfl) fun _ _ => recoverReserved_fits hkept
  | RecoverExternalReserved leaseId witness =>
      exact hperform _ (fun _ => rfl) fun _ _ => recoverExternalReserved_fits hkept
  | RecoverExternalPreparedWithoutCommit leaseId witness =>
      exact hperform _ (fun _ => rfl) fun _ _ => recoverExternalPreparedWithoutCommit_fits hkept
  | RecoverExternalReservedWithoutJournal leaseId witness =>
      exact hperform _ (fun _ => rfl) fun _ _ => recoverExternalReservedWithoutJournal_fits hkept
  | FinalizeWal reservation current commit => exact absurd rfl (hplan state)
  | FinalizeExternalMutation reservation current commit => exact absurd rfl (hplan state)
  | Gc unreferenced => exact absurd rfl (hplan state)

theorem gcOperation_always (unreferenced : OwnerAuthorizationLeaseV1 → Bool)
    (hdecode : BrokerReadsBack fromSlice) (h : BrokerHeld fromSlice world log state) :
    Always ((BrokerOperation.Gc unreferenced).program fromSlice config nowMs) world fun o after =>
      ∃ log' state', BrokerLeft fromSlice o after log' state' ∧
        (state' = state ∨ Shrunk (state.gcCandidates nowMs unreferenced) state state') := by
  refine .bind ((gc_always hdecode h unreferenced).mono ?_)
  rintro (ids | error | _) after ⟨log', state', hleft, -, hshrunk⟩
  · exact .pure ⟨log', state', hleft, hshrunk⟩
  · exact ⟨log', state', hleft, hshrunk⟩
  · exact ⟨log', state', hleft, hshrunk⟩

end Broker

-- A call leaves what its program leaves; on a store that is not open it does nothing.
omit [Sha256] in
theorem call_left {ρ σ ε α : Type} {format : ChainedJournal.Format ρ σ ε} {legal : σ → ρ → Prop}
    {store : Store σ} {log : List ρ} {state : σ}
    {program : Program (ChainedJournal.World σ) ε α} {post : Outcome ε α → List ρ → σ → Prop}
    (h : store.Holds format legal log state)
    (hprogram : ∀ handle, ChainedJournal.Held format legal ⟨store.disk, handle⟩ log state →
      Always program ⟨store.disk, handle⟩ fun o after =>
        ∃ log' state', ChainedJournal.Left format legal o after log' state' ∧ post o log' state')
    (fates : List Fate) :
    store.call program fates = (none, store) ∨
      ∃ o log' state', (store.call program fates).1 = some o ∧
        (store.call program fates).2.Holds format legal log' state' ∧ post o log' state' := by
  cases hhandle : store.handle with
  | none =>
      refine .inl ?_
      unfold Store.call
      rw [hhandle]
  | some handle =>
      have hleft := hprogram handle (h.held handle hhandle)
      obtain ⟨o, log', state', ho, hholds, hpost⟩ := Store.Holds.call hhandle hleft fates
      exact .inr ⟨o, log', state', ho, hholds, hpost⟩

section Step

omit [Sha256] in
theorem underway_idle (hidle : owner.finalization = none) (finalization : Finalization)
    (h : owner.finalization = some finalization) : Underway state finalization := by
  rw [hidle] at h
  cases h

variable (hbroker : owner.broker.Holds (brokerFormat fromSlice) BrokerLegal log state)
  (hunderway : ∀ finalization, owner.finalization = some finalization →
    Underway state finalization)

include hbroker hunderway

theorem finish_step {program : Finalization → BrokerProgram OwnerAuthorizationLeaseV1}
    {fates : List Fate}
    (hprogram : ∀ finalization world, owner.finalization = some finalization →
      Underway state finalization → BrokerHeld fromSlice world log state →
      Always (program finalization) world fun o after =>
        ∃ log' state', BrokerLeft fromSlice o after log' state' ∧
          BrokerStep owner event state state') :
    ∃ log' state', (owner.finish program fates).broker.Holds (brokerFormat fromSlice) BrokerLegal
      log' state' ∧ BrokerStep owner event state state' ∧
        ∀ finalization, (owner.finish program fates).finalization = some finalization →
          Underway state' finalization := by
  cases hfinalization : owner.finalization with
  | none =>
      unfold Owner.finish
      rw [hfinalization]
      exact ⟨log, state, hbroker, .Same, underway_idle hfinalization⟩
  | some finalization =>
      have hcall := call_left hbroker (fun handle hheld =>
        hprogram finalization ⟨owner.broker.disk, handle⟩ hfinalization
          (hunderway finalization hfinalization) hheld) fates
      unfold Owner.finish
      rw [hfinalization]
      dsimp only
      obtain hnone | ⟨o, log', state', -, hholds, hstep⟩ := hcall
      · rw [hnone]
        exact ⟨log, state, hbroker, .Same, by simp⟩
      · exact ⟨log', state', hholds, hstep, by simp⟩

theorem finalize_step {kind : FinalizationKind} {reservation : AuthorizationReservationV1}
    {current : AuthorityRuntimeStateCoreV1} {nowMs : Nat} {fates : List Fate}
    (hdecode : BrokerReadsBack fromSlice) (hidle : owner.finalization = none) :
    ∃ log' state', (owner.finalize fromSlice kind reservation current nowMs fates).broker.Holds
      (brokerFormat fromSlice) BrokerLegal log' state' ∧
      BrokerStep owner (.Finalize kind reservation current nowMs fates) state state' ∧
      ∀ finalization, (owner.finalize fromSlice kind reservation current nowMs fates).finalization =
        some finalization → Underway state' finalization := by
  have hcall := call_left hbroker (fun handle hheld =>
    prepareFinalization_always reservation current nowMs hdecode hheld) fates
  unfold Owner.finalize
  obtain hnone | ⟨o, log', state', ho, hholds, hpost⟩ := hcall
  · rw [hnone]
    exact ⟨log, state, hbroker, .Same, hunderway⟩
  · generalize owner.broker.call _ fates = run at ho hholds ⊢
    obtain ⟨answer, broker⟩ := run
    obtain rfl : answer = some o := ho
    obtain ⟨rfl, hnot⟩ | ⟨lease, hvalid, rfl, hvalue⟩ := hpost
    · cases o with
      | returned value => exact absurd rfl (hnot value)
      | _ => exact ⟨log', state', hholds, .Same, hunderway⟩
    · cases o with
      | returned value =>
          obtain rfl := hvalue value rfl
          refine ⟨log', _, hholds, .Prepared rfl hvalid, ?_⟩
          rintro _ ⟨⟩
          exact underway_prepared hvalid
      | _ =>
          exact ⟨log', _, hholds, .Prepared rfl hvalid, underway_idle hidle⟩

-- One case per event: what is left of the broker.
theorem broker_step (hdecode : BrokerReadsBack fromSlice) (hpermits : owner.Permits event) :
    ∃ log' state', (owner.apply fromSlice decoder config backend event).broker.Holds
      (brokerFormat fromSlice) BrokerLegal log' state' ∧ BrokerStep owner event state state' ∧
      ∀ finalization, (owner.apply fromSlice decoder config backend event).finalization =
        some finalization → Underway state' finalization := by
  cases event with
  | OpenBroker fates =>
      exact ⟨log, state, .reopen (openBroker_always hdecode hbroker.stored) fates, .Same,
        underway_idle rfl⟩
  | OpenJournal fates => exact ⟨log, state, hbroker, .Same, hunderway⟩
  | Broker operation nowMs fates =>
      obtain ⟨hidle, hwitnessed⟩ := hpermits
      by_cases hplan : ∀ state, operation.plan config nowMs state ≠ none
      · obtain hcall | ⟨o, log', state', -, hholds, hpost⟩ := call_left hbroker
          (fun handle hheld => operation_always hdecode hheld hplan) fates
        · refine ⟨log, state, ?_, .Same, underway_idle hidle⟩
          change (owner.broker.call _ fates).2.Holds _ _ _ _
          rw [hcall]
          exact hbroker
        · obtain rfl | ⟨kind, lease, hstep, rfl⟩ := hpost
          · exact ⟨log', state', hholds, .Same, underway_idle hidle⟩
          · exact ⟨log', _, hholds, .Operated rfl hstep, underway_idle hidle⟩
      · cases operation with
        | Gc unreferenced =>
            obtain hcall | ⟨o, log', state', -, hholds, hpost⟩ := call_left hbroker
              (fun handle hheld => gcOperation_always unreferenced hdecode hheld) fates
            · refine ⟨log, state, ?_, .Same, underway_idle hidle⟩
              change (owner.broker.call _ fates).2.Holds _ _ _ _
              rw [hcall]
              exact hbroker
            · obtain rfl | hshrunk := hpost
              · exact ⟨log', state', hholds, .Same, underway_idle hidle⟩
              · exact ⟨log', state', hholds, .Collected rfl hshrunk, underway_idle hidle⟩
        | FinalizeWal reservation current commit => exact absurd hwitnessed id
        | FinalizeExternalMutation reservation current commit => exact absurd hwitnessed id
        | _ => exact absurd (by simp [BrokerOperation.plan]) hplan
  | Finalize kind reservation current nowMs fates =>
      exact finalize_step hbroker hunderway hdecode hpermits
  | WalCommitted witness => exact ⟨log, state, hbroker, .Same, hunderway⟩
  | Journal operation fates =>
      refine ⟨log, state, hbroker, .Same, ?_⟩
      intro finalization hfinalization
      obtain ⟨running, hrunning, rfl⟩ := Option.map_eq_some_iff.mp hfinalization
      obtain ⟨hfiled, hreserved, hreservation, hsnapshot⟩ := hunderway running hrunning
      exact ⟨hfiled, hreserved, hreservation, hsnapshot⟩
  | VerifyCommit operationId => exact ⟨log, state, hbroker, .Same, hunderway⟩
  | VerifyPrepared operationId => exact ⟨log, state, hbroker, .Same, hunderway⟩
  | FinishWal commit fates =>
      refine finish_step hbroker hunderway fun finalization world hfinalization hgoing hheld => ?_
      refine (finishWal_always hdecode hheld hgoing.filed hgoing.reserved commit).mono ?_
      rintro o after ⟨log', state', hleft, (_ | ⟨rfl, hvalid⟩)⟩
      · exact ⟨_, _, hleft, .Same⟩
      · exact ⟨_, _, hleft, .ConsumedByWal hfinalization rfl⟩
  | FinishExternalMutation commit fates =>
      refine finish_step hbroker hunderway fun finalization world hfinalization hgoing hheld => ?_
      refine (finishExternalMutation_always hdecode hheld hgoing.filed hgoing.reserved
        commit).mono ?_
      rintro o after ⟨log', state', hleft, (_ | ⟨rfl, hvalid⟩)⟩
      · exact ⟨_, _, hleft, .Same⟩
      · exact ⟨_, _, hleft, .ConsumedByExternalMutation hfinalization rfl hvalid⟩

end Step

end M1nd.Mcp
