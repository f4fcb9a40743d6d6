import M1nd.Mcp.ChainedJournal.Runs
import M1nd.Mcp.OwnerAuthorizationBroker.Runs

namespace M1nd.Mcp

open M1nd.Control
open M1nd.Library
open M1nd.Library.Checks
open M1nd.Library.Durable
open ChainedJournal (Disk Held Left Spared Store Stored Traced Usable lineEnd)

variable [Sha256] {fromSlice : BrokerDecoder} {config : OwnerAuthorizationBrokerConfigV1}
  {world : BrokerWorld} {log : List BrokerJournalRecordV1} {state next : BrokerStateV1}

-- What happens to a broker: its process ends and the journal is opened again, or an operation
-- is called, with what becomes of the durable steps.
inductive BrokerEvent
  | Open (fates : List Fate)
  | Call (operation : BrokerOperation) (nowMs : Nat) (fates : List Fate)

section Run

variable (fromSlice : BrokerDecoder) (config : OwnerAuthorizationBrokerConfigV1) (backend : Bool)

def BrokerEvent.apply (store : Store BrokerStateV1) : BrokerEvent → Store BrokerStateV1
  | .Open fates => store.reopen (openBroker fromSlice config backend) fates
  | .Call operation nowMs fates =>
      (store.call (operation.program fromSlice config nowMs) fates).2

def brokerRun (events : List BrokerEvent) : Store BrokerStateV1 :=
  events.foldl (BrokerEvent.apply fromSlice config backend) Store.empty

end Run

theorem openBroker_always (hdecode : BrokerReadsBack fromSlice) {disk : Disk}
    (h : Stored (brokerFormat fromSlice) BrokerLegal disk log state) {backend : Bool} :
    Always (openBroker fromSlice config backend) disk fun o after =>
      Stored (brokerFormat fromSlice) BrokerLegal after log state ∧
        ∀ handle, o = .returned handle →
          handle.poisoned = false ∧ BrokerHeld fromSlice ⟨after, handle⟩ log state :=
  .bind (.check
    (fun _ _ => ChainedJournal.openJournal_always (brokerFormat_lawful hdecode) h)
    fun _ _ => ⟨h, by simp⟩)

-- Whatever a program decides and whatever becomes of its steps, the log only grows by records
-- that replay takes.
def Keeps {α : Type} (fromSlice : BrokerDecoder) (program : BrokerProgram α) : Prop :=
  ∀ world log state, BrokerHeld fromSlice world log state →
    Always program world fun o after => ∃ log' state', BrokerLeft fromSlice o after log' state' ∧
      log <+: log'

theorem keeps_perform (hdecode : BrokerReadsBack fromSlice) {plan : BrokerStateV1 → LeasePlan}
    {nowMs : Nat}
    (hplan : ∀ state kind lease, WellKept state → plan state = .ok (.Append kind lease) →
      Fits state kind lease) :
    Keeps fromSlice (do let _ ← perform fromSlice plan nowMs) := by
  intro world log state h
  have hfits := fun kind lease => hplan state kind lease (wellKept_of_traced h.stored.traced)
  refine .bind ((perform_always hdecode h hfits).mono ?_)
  rintro (lease | error | _) after ⟨⟨log', state', hleft, hmoved⟩, -⟩
  · exact .pure ⟨log', state', hleft, hmoved.grows⟩
  · exact ⟨log', state', hleft, hmoved.grows⟩
  · exact ⟨log', state', hleft, hmoved.grows⟩

-- The lease that the first half of a finalization returns is on file, and reserved.
theorem keeps_finalization (hdecode : BrokerReadsBack fromSlice)
    {reservation : AuthorizationReservationV1} {runtime : AuthorityRuntimeStateCoreV1}
    {nowMs : Nat} {finish : OwnerAuthorizationLeaseV1 → BrokerProgram OwnerAuthorizationLeaseV1}
    (hfinish : ∀ world log state lease, BrokerHeld fromSlice world log state →
      state.leases[lease.leaseId]? = some lease → lease.state = .Reserved →
      Always (finish lease) world fun o after =>
        ∃ log' state', BrokerLeft fromSlice o after log' state' ∧
      log <+: log') :
    Keeps fromSlice (do
      let next ← perform fromSlice (·.prepareFinalization reservation runtime nowMs) nowMs
      let _ ← finish next) := by
  intro world log state h
  have hfits := fun kind lease =>
    @prepareFinalization_fits state lease kind nowMs reservation runtime
      (wellKept_of_traced h.stored.traced)
  refine .bind ((perform_always hdecode h hfits).mono ?_)
  rintro (lease | error | _) after ⟨⟨log', state', hleft, hmoved⟩, hreturned⟩
  · obtain ⟨hkeep, -⟩ | ⟨kind, happend, -, hheld⟩ := hreturned lease rfl
    · simp only [BrokerStateV1.prepareFinalization, bind_eq_ok, pure_eq_ok] at hkeep
      obtain ⟨_, -, hkeep⟩ := hkeep
      cases hkeep
    · obtain ⟨current, hvalid, -, rfl⟩ := prepareFinalization_eq_ok happend
      obtain ⟨-, hreserved, -⟩ := validateForFinalization_eq_ok hvalid
      refine .bind ((hfinish _ _ _ _ hheld Std.ExtTreeMap.getElem?_insert_self hreserved).mono ?_)
      rintro (consumed | error | _) last ⟨log', state', hlast, hmore⟩
      · exact .pure ⟨log', state', hlast, (List.prefix_append _ _).trans hmore⟩
      · exact ⟨log', state', hlast, (List.prefix_append _ _).trans hmore⟩
      · exact ⟨log', state', hlast, (List.prefix_append _ _).trans hmore⟩
  · exact ⟨log', state', hleft, hmoved.grows⟩
  · exact ⟨log', state', hleft, hmoved.grows⟩

-- One case per operation.
theorem BrokerOperation.keeps (hdecode : BrokerReadsBack fromSlice) (operation : BrokerOperation)
    (nowMs : Nat) : Keeps fromSlice (operation.program fromSlice config nowMs) := by
  cases operation with
  | Issue leaseId receipt => exact keeps_perform hdecode fun _ _ _ _ => issue_fits
  | Reserve leaseId session context object => exact keeps_perform hdecode fun _ _ _ hkept => reserve_fits hkept
  | ReserveLand leaseId session context transaction =>
      exact keeps_perform hdecode fun _ _ _ hkept => reserveLand_fits hkept
  | FinalizeWal reservation current commit =>
      refine keeps_finalization hdecode fun world log state lease h hfiled hreserved => ?_
      refine (finishWal_always hdecode h hfiled hreserved commit).mono ?_
      exact fun o after ⟨log', state', hleft, hdone⟩ => ⟨log', state', hleft, hdone.grows⟩
  | FinalizeExternalMutation reservation current commit =>
      refine keeps_finalization hdecode fun world log state lease h hfiled hreserved => ?_
      refine (finishExternalMutation_always hdecode h hfiled hreserved commit).mono ?_
      exact fun o after ⟨log', state', hleft, hdone⟩ => ⟨log', state', hleft, hdone.grows⟩
  | FinalizeRead reservation current digest =>
      exact keeps_perform hdecode fun _ _ _ hkept => finalizeRead_fits hkept
  | AdmitNonWal reservation current => exact keeps_perform hdecode fun _ _ _ hkept => consumedNow_fits hkept
  | AbortReserved reservation reason =>
      exact keeps_perform hdecode fun _ _ _ hkept => abortReserved_fits hkept
  | RecoverReserved leaseId witness =>
      exact keeps_perform hdecode fun _ _ _ hkept => recoverReserved_fits hkept
  | RecoverExternalReserved leaseId witness =>
      exact keeps_perform hdecode fun _ _ _ hkept => recoverExternalReserved_fits hkept
  | RecoverExternalPreparedWithoutCommit leaseId witness =>
      exact keeps_perform hdecode fun _ _ _ hkept => recoverExternalPreparedWithoutCommit_fits hkept
  | RecoverExternalReservedWithoutJournal leaseId witness =>
      exact keeps_perform hdecode fun _ _ _ hkept => recoverExternalReservedWithoutJournal_fits hkept
  | Gc unreferenced =>
      intro world log state h
      refine .bind ((gc_always hdecode h unreferenced).mono ?_)
      rintro (ids | error | _) after ⟨log', state', hleft, hmore, -⟩
      · exact .pure ⟨log', state', hleft, hmore⟩
      · exact ⟨log', state', hleft, hmore⟩
      · exact ⟨log', state', hleft, hmore⟩

section Calm

abbrev BrokerSpared {α : Type} (fromSlice : BrokerDecoder) (world : BrokerWorld)
    (o : Outcome OwnerAuthorizationBrokerError α) (after : BrokerWorld) : Prop :=
  Spared (brokerFormat fromSlice) world o after

variable {kind : BrokerJournalEventKindV1} {lease : OwnerAuthorizationLeaseV1}
  {plan : BrokerStateV1 → LeasePlan} {nowMs : Nat}

theorem appendSnapshot_calm (h : BrokerHeld fromSlice world log state)
    (husable : Usable (brokerFormat fromSlice) world.handle) :
    Calm (appendSnapshot fromSlice kind lease nowMs) world (BrokerSpared fromSlice world) := by
  refine .bind (.check ?_ fun error _ => .idle husable nofun)
  intro _ _
  refine .bind ((ChainedJournal.append_calm h husable).mono ?_)
  rintro (record | error | _) after hspared
  · exact .pure (hspared.trans (.idle hspared.2.1 nofun))
  · exact hspared.trans (.idle hspared.2.1 nofun)
  · exact absurd rfl hspared.1

theorem perform_calm (h : BrokerHeld fromSlice world log state)
    (husable : Usable (brokerFormat fromSlice) world.handle) :
    Calm (perform fromSlice plan nowMs) world (BrokerSpared fromSlice world) := by
  refine .bind (.get (.bind (.check ?_ fun error _ => .idle husable nofun)))
  rintro (kept | ⟨kind, lease⟩) _
  · exact .pure (.idle husable nofun)
  · refine .bind ((appendSnapshot_calm h husable).mono ?_)
    rintro (_ | error | _) after hspared
    · exact .pure (hspared.trans (.idle hspared.2.1 nofun))
    · exact hspared.trans (.idle hspared.2.1 nofun)
    · exact absurd rfl hspared.1

theorem appendTombstones_calm (hdecode : BrokerReadsBack fromSlice) (leaseIds : List String)
    (h : BrokerHeld fromSlice world log state)
    (husable : Usable (brokerFormat fromSlice) world.handle)
    (hdroppable : world.handle.poisoned = false → AllDroppable state nowMs leaseIds) :
    Calm (appendTombstones fromSlice nowMs leaseIds) world (BrokerSpared fromSlice world) := by
  induction leaseIds generalizing world log state with
  | nil => exact .pure (.idle husable nofun)
  | cons leaseId leaseIds ih =>
      have hfirst := appendTombstone_always hdecode h fun hlive =>
        (hdroppable hlive).2 leaseId List.mem_cons_self
      have hcalm : Calm (appendTombstone fromSlice leaseId nowMs) world
          (BrokerSpared fromSlice world) := by
        refine .bind ((ChainedJournal.append_calm h husable).mono ?_)
        rintro (record | error | _) after hspared
        · exact .pure (hspared.trans (.idle hspared.2.1 nofun))
        · exact hspared.trans (.idle hspared.2.1 nofun)
        · exact absurd rfl hspared.1
      refine .bind ((hcalm.always hfirst).mono ?_)
      rintro (_ | error | _) after ⟨hspared, hreturned, -⟩
      · obtain ⟨hlive, hheld⟩ := hreturned rfl
        refine (ih hheld hspared.2.1 fun _ => (hdroppable hlive).rest).mono ?_
        exact fun o last hlast => hspared.trans hlast
      · exact hspared.trans (.idle hspared.2.1 nofun)
      · exact absurd rfl hspared.1

-- Without a fault no operation spoils the handle, whether it is accepted or refused.
def Spares {α : Type} (fromSlice : BrokerDecoder) (program : BrokerProgram α) : Prop :=
  ∀ world log state, BrokerHeld fromSlice world log state →
    Usable (brokerFormat fromSlice) world.handle →
    Calm program world (BrokerSpared fromSlice world)

theorem Spares.forget {α : Type} {program : BrokerProgram α} (h : Spares fromSlice program) :
    Spares fromSlice (do let _ ← program) := by
  intro world log state hheld husable
  refine .bind ((h world log state hheld husable).mono ?_)
  rintro (value | error | _) after hspared
  · exact .pure (hspared.trans (.idle hspared.2.1 nofun))
  · exact hspared.trans (.idle hspared.2.1 nofun)
  · exact absurd rfl hspared.1

theorem spares_perform : Spares fromSlice (perform fromSlice plan nowMs) :=
  fun _ _ _ h husable => perform_calm h husable

theorem spares_append (append : BrokerProgram Unit) (hspares : Spares fromSlice append) :
    Spares fromSlice (do append; return lease) := by
  intro world log state hheld husable
  refine .bind ((hspares world log state hheld husable).mono ?_)
  rintro (_ | error | _) after hspared
  · exact .pure (hspared.trans (.idle hspared.2.1 nofun))
  · exact hspared.trans (.idle hspared.2.1 nofun)
  · exact absurd rfl hspared.1

theorem finishWal_spares {commit : Outcome String AuthorityWalCommitWitnessV1}
    (hcommit : commit ≠ .crashed) : Spares fromSlice (finishWal fromSlice lease commit nowMs) := by
  unfold finishWal
  cases commit with
  | crashed => exact absurd rfl hcommit
  | refused detail => exact fun _ _ _ _ husable => .refuse (.idle husable nofun)
  | returned witness =>
      intro world log state hheld husable
      refine .bind (.check ?_ fun error _ => .idle husable nofun)
      intro _ _
      exact spares_append _ (fun _ _ _ h husable => appendSnapshot_calm h husable) _ _ _ hheld husable

theorem finishExternalMutation_spares {commit : Outcome String ExternalMutationCommitWitnessV1}
    (hcommit : commit ≠ .crashed) :
    Spares fromSlice (finishExternalMutation fromSlice lease commit nowMs) := by
  unfold finishExternalMutation
  cases commit with
  | crashed => exact absurd rfl hcommit
  | refused detail => exact fun _ _ _ _ husable => .refuse (.idle husable nofun)
  | returned witness =>
      intro world log state hheld husable
      refine .bind (.check ?_ fun error _ => .idle husable nofun)
      intro _ _
      exact spares_append _ (fun _ _ _ h husable => appendSnapshot_calm h husable) _ _ _ hheld husable

theorem spares_finalization (hdecode : BrokerReadsBack fromSlice)
    {reservation : AuthorizationReservationV1} {runtime : AuthorityRuntimeStateCoreV1}
    {finish : OwnerAuthorizationLeaseV1 → BrokerProgram Unit}
    (hfinish : ∀ lease, Spares fromSlice (finish lease)) :
    Spares fromSlice (do
      let next ← perform fromSlice (·.prepareFinalization reservation runtime nowMs) nowMs
      finish next) := by
  intro world log state h husable
  have hfits := fun kind lease =>
    @prepareFinalization_fits state lease kind nowMs reservation runtime
      (wellKept_of_traced h.stored.traced)
  refine .bind (((perform_calm h husable).always (perform_always hdecode h hfits)).mono ?_)
  rintro (lease | error | _) after ⟨hspared, ⟨log', state', hleft, -⟩, -⟩
  · exact (hfinish lease _ _ _ hleft hspared.2.1).mono fun o last hlast => hspared.trans hlast
  · exact hspared.trans (.idle hspared.2.1 nofun)
  · exact absurd rfl hspared.1

theorem gc_spares (hdecode : BrokerReadsBack fromSlice)
    (unreferenced : OwnerAuthorizationLeaseV1 → Bool) :
    Spares fromSlice (gc fromSlice nowMs unreferenced) := by
  intro world log state h husable
  refine .bind (.get (.bind ((appendTombstones_calm hdecode _ h husable ?_).mono ?_)))
  · intro hlive
    rw [(h.synced hlive).state]
    exact gcCandidates_droppable (wellKept_of_traced h.stored.traced)
  · rintro (_ | error | _) after hspared
    · exact .pure (hspared.trans (.idle hspared.2.1 nofun))
    · exact hspared.trans (.idle hspared.2.1 nofun)
    · exact absurd rfl hspared.1

-- The process does not end inside a commit callback.
def BrokerOperation.Completes : BrokerOperation → Prop
  | .FinalizeWal _ _ commit => commit ≠ .crashed
  | .FinalizeExternalMutation _ _ commit => commit ≠ .crashed
  | _ => True

theorem BrokerOperation.spares (hdecode : BrokerReadsBack fromSlice) {operation : BrokerOperation}
    (hcompletes : operation.Completes) (nowMs : Nat) :
    Spares fromSlice (operation.program fromSlice config nowMs) := by
  cases operation with
  | FinalizeWal reservation current commit =>
      exact spares_finalization hdecode fun _ => (finishWal_spares hcompletes).forget
  | FinalizeExternalMutation reservation current commit =>
      exact spares_finalization hdecode fun _ => (finishExternalMutation_spares hcompletes).forget
  | Gc unreferenced => exact (gc_spares hdecode unreferenced).forget
  | _ => exact spares_perform.forget

end Calm

theorem BrokerEvent.apply_holds (hdecode : BrokerReadsBack fromSlice) {backend : Bool}
    {store : Store BrokerStateV1} (event : BrokerEvent)
    (h : store.Holds (brokerFormat fromSlice) BrokerLegal log state) :
    ∃ log' state', (event.apply fromSlice config backend store).Holds (brokerFormat fromSlice)
      BrokerLegal log' state' ∧ log <+: log' := by
  cases event with
  | Open fates => exact ⟨log, state, .reopen (openBroker_always hdecode h.stored) fates, List.prefix_refl _⟩
  | Call operation nowMs fates =>
      cases hhandle : store.handle with
      | none =>
          refine ⟨log, state, ?_, List.prefix_refl _⟩
          unfold BrokerEvent.apply Store.call
          rw [hhandle]
          exact h
      | some handle =>
          have hprogram : Keeps fromSlice (operation.program fromSlice config nowMs) :=
            operation.keeps hdecode nowMs
          have hkeeps := hprogram _ _ _ (h.held handle hhandle)
          obtain ⟨_, log', state', -, hholds, hmore⟩ := Store.Holds.call hhandle hkeeps fates
          exact ⟨log', state', hholds, hmore⟩

theorem brokerRun_holds (hdecode : BrokerReadsBack fromSlice) (backend : Bool)
    (events : List BrokerEvent) :
    ∃ log state, (brokerRun fromSlice config backend events).Holds (brokerFormat fromSlice)
      BrokerLegal log state :=
  Runs.foldl_invariant (fun _ (store : Store BrokerStateV1) => ∃ log state, store.Holds (brokerFormat fromSlice)
    BrokerLegal log state) ⟨_, _, .empty _ _⟩
    (fun _ event _ ⟨_, _, h⟩ =>
      have ⟨_, _, hholds, _⟩ := event.apply_holds hdecode h; ⟨_, _, hholds⟩) events

section Valid

variable {backend : Bool}

def OwnerAuthorizationBrokerConfigV1.Valid (config : OwnerAuthorizationBrokerConfigV1) : Prop :=
  ¬(config.reservationTtlMs = 0 ∨ config.minimumTerminalRetentionMs = 0)

theorem openBroker_eq (hvalid : config.Valid) :
    openBroker fromSlice config backend = (brokerFormat fromSlice).openJournal backend := by
  unfold openBroker
  rw [(rejectIf_eq_ok (u := ())).mpr hvalid]
  rfl

-- A broker that was configured wrongly is never opened.
theorem brokerRun_invalid (hinvalid : ¬config.Valid) (events : List BrokerEvent) :
    (brokerRun fromSlice config backend events).handle = none := by
  refine Runs.foldl_invariant (fun _ (store : Store BrokerStateV1) => store.handle = none) rfl ?_
    events
  rintro - (fates | ⟨operation, nowMs, fates⟩) store hnone
  · unfold BrokerEvent.apply Store.reopen openBroker
    simp only [rejectIf, OwnerAuthorizationBrokerConfigV1.Valid, not_not] at hinvalid ⊢
    rw [if_pos hinvalid]
    rfl
  · unfold BrokerEvent.apply Store.call
    rw [hnone]
    exact hnone

-- An event without a fault.
def BrokerEvent.Calm : BrokerEvent → Prop
  | .Open fates => fates = []
  | .Call operation _ fates => fates = [] ∧ operation.Completes

theorem BrokerEvent.apply_ready (hdecode : BrokerReadsBack fromSlice) (hvalid : config.Valid)
    {store : Store BrokerStateV1} {event : BrokerEvent} (hcalm : event.Calm)
    (h : store.Holds (brokerFormat fromSlice) BrokerLegal log state)
    (hready : store.Ready backend log) :
    ∃ log' state', (event.apply fromSlice config backend store).Holds (brokerFormat fromSlice)
      BrokerLegal log' state' ∧ (event.apply fromSlice config backend store).Ready backend log' := by
  have hlawful := brokerFormat_lawful hdecode
  cases event with
  | Open fates =>
      obtain rfl : fates = [] := hcalm
      refine ⟨log, state, .reopen (openBroker_always hdecode h.stored) [], ?_⟩
      unfold BrokerEvent.apply
      rw [openBroker_eq hvalid]
      exact hready.reopen hlawful ⟨rfl, rfl⟩ h
  | Call operation nowMs fates =>
      obtain ⟨rfl, hcompletes⟩ := hcalm
      cases hhandle : store.handle with
      | none =>
          refine ⟨log, state, ?_⟩
          unfold BrokerEvent.apply Store.call
          rw [hhandle]
          exact ⟨h, hready⟩
      | some handle =>
          have hheld := h.held handle hhandle
          have hkeeps : Keeps fromSlice (operation.program fromSlice config nowMs) :=
            operation.keeps hdecode nowMs
          obtain ⟨log', state', hholds, -, hready⟩ := hready.call hlawful rfl hhandle
            (hkeeps _ _ _ hheld) (BrokerOperation.spares hdecode hcompletes nowMs _ _ _ hheld)
          exact ⟨log', state', hholds, hready⟩

theorem brokerRun_ready (hdecode : BrokerReadsBack fromSlice) (hvalid : config.Valid)
    {events : List BrokerEvent} (hcalm : ∀ event ∈ events, event.Calm) :
    ∃ log state, (brokerRun fromSlice config backend events).Holds (brokerFormat fromSlice)
      BrokerLegal log state ∧ (brokerRun fromSlice config backend events).Ready backend log := by
  refine Runs.foldl_invariant (fun events (store : Store BrokerStateV1) =>
    (∀ event ∈ events, event.Calm) → ∃ log state, store.Holds (brokerFormat fromSlice) BrokerLegal
      log state ∧ store.Ready backend log) ?_ ?_ events hcalm
  · exact fun _ => ⟨_, _, .empty _ _, fun _ => rfl⟩
  · intro events event store ih hcalm
    obtain ⟨log, state, h, hready⟩ := ih fun event hmem =>
      hcalm event (List.mem_append_left _ hmem)
    exact event.apply_ready hdecode hvalid (hcalm event (by simp)) h hready

end Valid

end M1nd.Mcp
