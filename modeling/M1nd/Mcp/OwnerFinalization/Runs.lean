import M1nd.Mcp.OwnerFinalization.Theorems

namespace M1nd.Mcp

open M1nd.Control
open M1nd.Library
open M1nd.Library.Checks
open M1nd.Library.Durable
open ChainedJournal (Store Traced)

variable {state next : ExternalMutationJournalStateV1}
  {entry later : ExternalMutationJournalEntryV1} {record : ExternalMutationJournalRecordV1}
  {operationId : String}

-- What stays of a committed operation from then on.
structure ExternalMutationJournalEntryV1.Keeps (later entry : ExternalMutationJournalEntryV1) :
    Prop where
  committed : later.IsCommitted
  reservationId : later.reservationId = entry.reservationId
  leaseId : later.leaseId = entry.leaseId
  digest : later.commitRecordDigest = entry.commitRecordDigest

-- An operation of the reservation has been committed by the record of this digest.
def Recorded (state : ExternalMutationJournalStateV1) (reservationId leaseId digest : String) :
    Prop :=
  ∃ (operationId : String) (entry : ExternalMutationJournalEntryV1),
    state.entries[operationId]? = some entry ∧ entry.IsCommitted ∧
    entry.BoundTo reservationId leaseId ∧ entry.commitRecordDigest = some digest

def AllRecorded (state : ExternalMutationJournalStateV1)
    (witnesses : List ExternalMutationCommitWitnessV1) : Prop :=
  ∀ witness ∈ witnesses,
    Recorded state witness.reservationId witness.leaseId witness.journalRecordDigest

theorem legalTransition_committed {previous phase : ExternalMutationJournalPhaseV1}
    (h : legalTransition previous phase = true) (hprevious : previous ≠ .Prepared) :
    phase ≠ .Prepared ∧ phase ≠ .Committed := by
  cases previous <;> cases phase <;> simp_all [legalTransition]

section Grows

variable [Sha256] {decoder : ExternalMutationDecoder}
  {known log : List ExternalMutationJournalRecordV1}

theorem committed_admit (haccept : state.accept record = .ok next)
    (hentry : state.entries[operationId]? = some entry) (hcommitted : entry.IsCommitted) :
    ∃ later, next.entries[operationId]? = some later ∧ later.Keeps entry := by
  obtain ⟨-, hfollows, rfl⟩ := ExternalMutationJournalStateV1.accept_eq_ok.mp haccept
  simp only [Std.ExtTreeMap.getElem?_insert]
  split
  · rename_i heq
    have hid : record.core.entry.operationId = operationId := Std.LawfulEqCmp.eq_of_compare heq
    rw [hid, hentry] at hfollows ⊢
    obtain ⟨hreservation, hlease, -, -, hfields, hlegal⟩ := followsEntry_some.mp hfollows
    obtain ⟨hprepared, hagain⟩ := legalTransition_committed hlegal hcommitted
    have hmatch := commitFieldsMatch_of_follow hfields hagain
    simp only [commitFieldsMatch, Bool.and_eq_true, decide_eq_true_eq] at hmatch
    refine ⟨_, rfl, ?_⟩
    rw [persistedEntry_of_follows hfollows hagain]
    exact ⟨hprepared, hreservation.symm, hlease.symm, hmatch.1.2⟩
  · exact ⟨entry, hentry, hcommitted, rfl, rfl, rfl⟩

theorem committed_grows (h : Traced (externalMutationFormat decoder) AnyRecord known state)
    (h' : Traced (externalMutationFormat decoder) AnyRecord log next) (hmore : known <+: log)
    (hentry : state.entries[operationId]? = some entry) (hcommitted : entry.IsCommitted) :
    ∃ later, next.entries[operationId]? = some later ∧ later.Keeps entry := by
  induction h' with
  | Fresh =>
      obtain rfl := List.prefix_nil.mp hmore
      obtain rfl := h.unique .Fresh
      exact ⟨entry, hentry, hcommitted, rfl, rfl, rfl⟩
  | Next hbefore hlegal haccept ih =>
      obtain rfl | hbelow := List.prefix_concat_iff.mp hmore
      · obtain rfl := h.unique (.Next hbefore hlegal haccept)
        exact ⟨entry, hentry, hcommitted, rfl, rfl, rfl⟩
      · obtain ⟨middle, hmiddle, hkeeps⟩ := ih hbelow
        obtain ⟨last, hlast, hagain⟩ := committed_admit haccept hmiddle hkeeps.committed
        exact ⟨last, hlast, hagain.committed, hagain.reservationId.trans hkeeps.reservationId,
          hagain.leaseId.trans hkeeps.leaseId, hagain.digest.trans hkeeps.digest⟩

theorem Recorded.grows {reservationId leaseId digest : String}
    (hrecorded : Recorded state reservationId leaseId digest)
    (h : Traced (externalMutationFormat decoder) AnyRecord known state)
    (h' : Traced (externalMutationFormat decoder) AnyRecord log next) (hmore : known <+: log) :
    Recorded next reservationId leaseId digest := by
  obtain ⟨operationId, entry, hentry, hcommitted, ⟨hreservation, hlease⟩, hdigest⟩ := hrecorded
  obtain ⟨later, hlater, hkeeps⟩ := committed_grows h h' hmore hentry hcommitted
  exact ⟨operationId, later, hlater, hkeeps.committed,
    ⟨hkeeps.reservationId.trans hreservation, hkeeps.leaseId.trans hlease⟩,
    hkeeps.digest.trans hdigest⟩

end Grows

-- A new committed operation comes from a call of `commit` on a prepared one.
theorem committed_of_filed [Sha256] {operation : ExternalMutationOperation} {nowMs : Nat}
    (hkept : EntriesKept state) (hplan : operation.plan state = .ok (some (entry, nowMs)))
    (hentry : (state.filed operation entry nowMs).entries[operationId]? = some later)
    (hcommitted : later.IsCommitted) :
    ∃ before, state.entries[operationId]? = some before ∧
      later.BoundTo before.reservationId before.leaseId ∧
      (before.IsCommitted ∨ operation.committed = some operationId) := by
  obtain ⟨hfollows, hkeep⟩ := ExternalMutationOperation.plan_follows hkept hplan
  simp only [ExternalMutationJournalStateV1.filed, Std.ExtTreeMap.getElem?_insert] at hentry
  split at hentry
  · rename_i heq
    have hid : entry.operationId = operationId := Std.LawfulEqCmp.eq_of_compare heq
    rw [← hid]
    obtain rfl := Option.some.inj hentry
    have hphase : (operation.keep (externalMutationRecord state entry nowMs).recordDigest
        entry).phase = entry.phase := by
      cases operation <;> rfl
    have hbound : (operation.keep (externalMutationRecord state entry nowMs).recordDigest
        entry).BoundTo entry.reservationId entry.leaseId := by
      cases operation <;> exact ⟨rfl, rfl⟩
    have hlater : entry.phase ≠ .Prepared := by
      rw [← hphase]
      exact hcommitted
    cases hbefore : state.entries[entry.operationId]? with
    | none =>
        rw [hbefore] at hfollows
        exact absurd (by simpa [followsEntry] using hfollows) hlater
    | some before =>
        rw [hbefore] at hfollows
        obtain ⟨hreservation, hlease, -, -, -, hlegal⟩ := followsEntry_some.mp hfollows
        refine ⟨before, rfl, ?_, ?_⟩
        · rw [hreservation, hlease]
          exact hbound
        · by_cases hprepared : before.phase = .Prepared
          · refine .inr ?_
            rw [hprepared] at hlegal
            have hnow : entry.phase = .Committed := by
              cases hphase : entry.phase <;> simp_all [legalTransition]
            cases operation with
            | Commit target outcomeDigest committedAt =>
                simp only [ExternalMutationOperation.plan, ExternalMutationJournalStateV1.commit,
                  bind_eq_ok, exists_unit, pure_eq_ok, Option.some.injEq, Prod.mk.injEq] at hplan
                obtain ⟨-, found, hfound, -, rfl, -⟩ := hplan
                unfold findEntry at hfound
                cases hstored : state.entries[target]? with
                | none =>
                    rw [hstored] at hfound
                    cases hfound
                | some stored =>
                    rw [hstored] at hfound
                    obtain rfl := Except.ok.inj hfound
                    exact congrArg some (hkept target stored hstored).1.symm
            | Prepare reservation digest prepare nowMs =>
                exact absurd ((prepare_follows hplan).1.symm.trans hnow) (by simp)
            | MarkReconciled target receipt result nowMs =>
                exact absurd ((markReconciled_follows hkept hplan).1.symm.trans hnow) (by simp)
            | MarkPublished target result nowMs =>
                exact absurd ((markPublished_follows hkept hplan).1.symm.trans hnow) (by simp)
            | MarkRecoveryRequired target nowMs =>
                exact absurd ((markRecoveryRequired_follows hkept hplan).1.symm.trans hnow) (by simp)
          · exact .inl hprepared
  · exact ⟨later, hentry, ⟨rfl, rfl⟩, .inl hcommitted⟩

end M1nd.Mcp

namespace M1nd.Mcp

open M1nd.Control
open M1nd.Library
open M1nd.Library.Checks
open M1nd.Library.Durable
open ChainedJournal (Store Traced)

variable [Sha256] {fromSlice : BrokerDecoder} {decoder : ExternalMutationDecoder}
  {config : OwnerAuthorizationBrokerConfigV1} {backend : Bool} {owner : Owner} {event : OwnerEvent}
  {log log' : List BrokerJournalRecordV1} {state state' : BrokerStateV1}
  {records records' : List ExternalMutationJournalRecordV1}
  {entries entries' : ExternalMutationJournalStateV1}

-- A lease that is CONSUMED by an external mutation names the record of its COMMIT.
def ConsumedByRecord (state : BrokerStateV1) (entries : ExternalMutationJournalStateV1) : Prop :=
  ∀ (leaseId : String) (lease : OwnerAuthorizationLeaseV1) (terminal : AuthorizationTerminalV1),
    state.leases[leaseId]? = some lease → lease.terminal = some terminal →
    terminal.kind = .ExternalMutationCommitted →
    ∃ reservation, lease.reservation = some reservation ∧
      Recorded entries reservation.reservationId lease.leaseId terminal.outcomeDigest

structure OwnerHolds (fromSlice : BrokerDecoder) (decoder : ExternalMutationDecoder)
    (owner : Owner) (log : List BrokerJournalRecordV1) (state : BrokerStateV1)
    (records : List ExternalMutationJournalRecordV1) (entries : ExternalMutationJournalStateV1) :
    Prop where
  broker : owner.broker.Holds (brokerFormat fromSlice) BrokerLegal log state
  journal : owner.journal.Holds (externalMutationFormat decoder) AnyRecord records entries
  underway : ∀ finalization, owner.finalization = some finalization → Underway state finalization
  recorded : AllRecorded entries owner.commitWitnesses
  consumed : ConsumedByRecord state entries

section Journal

variable {world : ExternalMutationWorld} {operationId : String}

omit [Sha256] in
theorem verifiedCommitWitness_recorded {witness : ExternalMutationCommitWitnessV1}
    (h : entries.verifiedCommitWitness operationId = .ok witness) :
    Recorded entries witness.reservationId witness.leaseId witness.journalRecordDigest := by
  simp only [ExternalMutationJournalStateV1.verifiedCommitWitness, bind_eq_ok, exists_unit,
    rejectIf_eq_ok] at h
  obtain ⟨entry, hfound, hphase, h⟩ := h
  have hfiled : entries.entries[operationId]? = some entry := by
    unfold findEntry at hfound
    cases hstored : entries.entries[operationId]? <;> simp_all
  split at h
  · cases h
  · cases h
  · rename_i digest committedAt hdigest _
    obtain rfl := Except.ok.inj h
    exact ⟨operationId, entry, hfiled, hphase, ⟨rfl, rfl⟩, hdigest⟩

-- A commit that returns is answered with the digest of its own record.
theorem witness_recorded {operation : ExternalMutationOperation}
    {answer : Option (ExternalMutationJournalEntryV1 × String)}
    {witness : ExternalMutationCommitWitnessV1}
    (h : Answers operation entries (.returned answer) entries')
    (hwitness : operation.witness answer = some witness) :
    Recorded entries' witness.reservationId witness.leaseId witness.journalRecordDigest := by
  cases operation with
  | Commit target outcomeDigest committedAt =>
      cases answer with
      | none => cases hwitness
      | some answer =>
          obtain ⟨filed, digest⟩ := answer
          obtain ⟨entry, nowMs, hplan, rfl, rfl, rfl⟩ := h filed digest rfl
          obtain rfl := Option.some.inj hwitness
          simp only [ExternalMutationOperation.plan, ExternalMutationJournalStateV1.commit,
            bind_eq_ok, exists_unit, pure_eq_ok, Option.some.injEq, Prod.mk.injEq] at hplan
          obtain ⟨-, found, -, -, rfl, rfl⟩ := hplan
          exact ⟨found.operationId, _, Std.ExtTreeMap.getElem?_insert_self, by rintro ⟨⟩, ⟨rfl, rfl⟩, rfl⟩
  | _ => cases hwitness

omit [Sha256] in
theorem AllRecorded.append {witnesses more : List ExternalMutationCommitWitnessV1}
    (h : AllRecorded entries witnesses) (hmore : AllRecorded entries more) :
    AllRecorded entries (witnesses ++ more) := by
  intro witness hmem
  exact (List.mem_append.mp hmem).elim (h witness) (hmore witness)

-- One case per event: what is left of the journal.
theorem journal_step (hdecode : ExternalMutationReadsBack decoder)
    (h : owner.journal.Holds (externalMutationFormat decoder) AnyRecord records entries)
    (hrecorded : AllRecorded entries owner.commitWitnesses) :
    ∃ records' entries', (owner.apply fromSlice decoder config backend event).journal.Holds
      (externalMutationFormat decoder) AnyRecord records' entries' ∧
      JournalStep event records entries records' entries' ∧
      AllRecorded entries' (owner.apply fromSlice decoder config backend event).commitWitnesses := by
  cases event with
  | OpenJournal fates =>
      have hopening := @ChainedJournal.openJournal_always _ _ _ _ _ _ _ _ backend
        (externalMutationFormat_lawful hdecode) h.stored
      exact ⟨records, entries, .reopen hopening fates, .Same, hrecorded⟩
  | Journal operation fates =>
      obtain hcall | ⟨o, records', entries', ho, hholds, hmoved, hanswers⟩ :=
        call_left h (fun handle hheld => operation.program_always hdecode hheld) fates
      · refine ⟨records, entries, ?_, .Same, ?_⟩
        · change (owner.journal.call _ fates).2.Holds _ _ _ _
          rw [hcall]
          exact h
        · change AllRecorded entries (owner.callJournal decoder operation fates).commitWitnesses
          unfold Owner.callJournal
          rw [hcall]
          exact hrecorded.append (by simp [AllRecorded])
      · refine ⟨records', entries', hholds, .Moved rfl hmoved, ?_⟩
        have hbefore : AllRecorded entries' owner.commitWitnesses := fun witness hmem =>
          (hrecorded witness hmem).grows h.stored.traced hholds.stored.traced hmoved.grows
        change AllRecorded entries' (owner.callJournal decoder operation fates).commitWitnesses
        unfold Owner.callJournal
        generalize owner.journal.call _ fates = run at ho ⊢
        obtain ⟨outcome, journal⟩ := run
        obtain rfl : outcome = some o := ho
        refine hbefore.append ?_
        intro witness hmem
        cases o with
        | returned answer =>
            exact witness_recorded hanswers (Option.mem_toList.mp hmem)
        | refused error => cases hmem
        | crashed => cases hmem
  | VerifyCommit operationId =>
      refine ⟨records, entries, h, .Same, hrecorded.append ?_⟩
      intro witness hmem
      unfold Owner.ask at hmem
      cases hhandle : owner.journal.handle with
      | none =>
          rw [hhandle] at hmem
          cases hmem
      | some handle =>
          rw [hhandle] at hmem
          obtain ⟨known, hknown, hbehind⟩ := (h.held handle hhandle).behind
          have hwitness : handle.state.verifiedCommitWitness operationId = .ok witness := by
            dsimp only at hmem
            cases hread : handle.state.verifiedCommitWitness operationId <;>
              simp_all [Except.toOption]
          exact (verifiedCommitWitness_recorded hwitness).grows hbehind h.stored.traced hknown
  | _ =>
      refine ⟨records, entries, ?_, .Same, ?_⟩
      · simpa [Owner.apply] using h
      · simpa [Owner.apply] using hrecorded

theorem AllRecorded.step (hrecorded : AllRecorded entries owner.commitWitnesses)
    (h : Traced (externalMutationFormat decoder) AnyRecord records entries)
    (h' : Traced (externalMutationFormat decoder) AnyRecord records' entries')
    (hstep : JournalStep event records entries records' entries') :
    AllRecorded entries' owner.commitWitnesses := by
  cases hstep with
  | Same => exact hrecorded
  | Moved hevent hmoved =>
      exact fun witness hmem => (hrecorded witness hmem).grows h h' hmoved.grows

end Journal

section Consumed

variable {lease : OwnerAuthorizationLeaseV1} {kind : BrokerJournalEventKindV1} {leaseId : String}
  {nowMs : Nat} {witness : ExternalMutationCommitWitnessV1}

theorem filed_leases : (state.filed kind lease nowMs).leases[leaseId]? =
    if lease.leaseId = leaseId then some lease else state.leases[leaseId]? := by
  simp only [BrokerStateV1.filed, Std.ExtTreeMap.getElem?_insert]
  split
  · rename_i heq
    rw [if_pos (Std.LawfulEqCmp.eq_of_compare heq)]
  · rename_i hne
    rw [if_neg]
    rintro rfl
    exact hne Std.ReflCmp.compare_self

omit [Sha256] in
theorem validateExternalMutationWitness_eq_ok
    (h : validateExternalMutationWitness lease witness nowMs = .ok ()) :
    ∃ reservation, lease.reservation = some reservation ∧
      witness.reservationId = reservation.reservationId ∧ witness.leaseId = lease.leaseId := by
  simp only [validateExternalMutationWitness, bind_eq_ok, rejectIf_eq_ok, not_or, not_not] at h
  obtain ⟨reservation, hreservation, hid, hlease, -⟩ := h
  refine ⟨reservation, ?_, hid, hlease⟩
  unfold requireReservation at hreservation
  cases hsome : lease.reservation <;> simp_all

-- A lease that names no external mutation may be filed freely.
theorem ConsumedByRecord.file (h : ConsumedByRecord state entries)
    (hlease : ∀ terminal, lease.terminal = some terminal →
      terminal.kind = .ExternalMutationCommitted → ∃ reservation,
        lease.reservation = some reservation ∧
          Recorded entries reservation.reservationId lease.leaseId terminal.outcomeDigest) :
    ConsumedByRecord (state.filed kind lease nowMs) entries := by
  intro leaseId filed terminal hfiled
  rw [filed_leases] at hfiled
  split at hfiled
  · obtain rfl := Option.some.inj hfiled
    exact hlease terminal
  · exact h leaseId filed terminal hfiled

omit [Sha256] in
theorem consumed_recorded (hrecorded : AllRecorded entries owner.commitWitnesses)
    (hmem : witness ∈ owner.commitWitnesses)
    (hvalid : validateExternalMutationWitness lease witness nowMs = .ok ()) :
    ∀ terminal, (consumedByExternalMutation witness nowMs lease).terminal = some terminal →
      terminal.kind = .ExternalMutationCommitted → ∃ reservation,
        (consumedByExternalMutation witness nowMs lease).reservation = some reservation ∧
          Recorded entries reservation.reservationId
            (consumedByExternalMutation witness nowMs lease).leaseId terminal.outcomeDigest := by
  rintro _ ⟨⟩ -
  obtain ⟨reservation, hreservation, hid, hlease⟩ := validateExternalMutationWitness_eq_ok hvalid
  have hrecord := hrecorded witness hmem
  rw [hid, hlease] at hrecord
  exact ⟨reservation, hreservation, hrecord⟩

-- One case per step of the broker.
theorem ConsumedByRecord.step (h : ConsumedByRecord state entries) (hkept : WellKept state)
    (hrecorded : AllRecorded entries owner.commitWitnesses) (hpermits : owner.Permits event)
    (hstep : BrokerStep owner event state state') : ConsumedByRecord state' entries := by
  cases hstep with
  | Same => exact h
  | Operated hevent hlease =>
      subst hevent
      refine h.file ?_
      cases hlease with
      | Issued hfresh hstate hterminal => simp [hterminal]
      | Reserved hfiled hunused hstate hterminal => simp [hterminal]
      | Completed hfiled hreserved hkind =>
          rintro _ ⟨⟩ hexternal
          exact absurd hexternal hkind
      | ConsumedByWal hfiled hreserved =>
          rintro _ ⟨⟩ hexternal
          cases hexternal
      | ConsumedByExternalMutation hfiled hreserved hoperation hvalid =>
          subst hoperation
          exact consumed_recorded hrecorded hpermits.2 hvalid
      | Aborted hfiled hreserved hkind hcause =>
          rintro _ ⟨⟩ hexternal
          rw [hkind] at hexternal
          cases hexternal
  | Collected hevent hshrunk =>
      intro leaseId lease terminal hlease
      obtain hsame | ⟨hnone, -⟩ := hshrunk leaseId
      · exact h leaseId lease terminal (hsame.symm.trans hlease)
      · rw [hnone] at hlease
        cases hlease
  | Prepared hevent hvalid =>
      obtain ⟨hfiled, -, hreserved, -⟩ := validated_lease hkept hvalid
      have hterminal := terminal_of_shape (hkept _ _ hfiled).2 (.inr hreserved)
      exact h.file (by simp [prepared, hterminal])
  | ConsumedByWal hfinalization hevent =>
      refine h.file ?_
      rintro _ ⟨⟩ hexternal
      cases hexternal
  | ConsumedByExternalMutation hfinalization hevent hvalid =>
      subst hevent
      exact h.file (consumed_recorded hrecorded (hpermits.2 _ rfl) hvalid)

end Consumed

-- What an event leaves of the owner.
theorem OwnerHolds.apply (hbroker : BrokerReadsBack fromSlice)
    (hjournal : ExternalMutationReadsBack decoder)
    (h : OwnerHolds fromSlice decoder owner log state records entries)
    (hpermits : owner.Permits event) :
    ∃ log' state' records' entries', OwnerHolds fromSlice decoder
      (owner.apply fromSlice decoder config backend event) log' state' records' entries' ∧
      BrokerStep owner event state state' ∧ JournalStep event records entries records' entries' := by
  obtain ⟨log', state', hlog, hleases, hunderway⟩ :=
    broker_step h.broker h.underway hbroker hpermits
  obtain ⟨records', entries', hrecords, hentries, hrecorded⟩ := journal_step hjournal h.journal
    h.recorded
  have hbefore := h.recorded.step h.journal.stored.traced hrecords.stored.traced hentries
  refine ⟨log', state', records', entries', ⟨hlog, hrecords, hunderway, hrecorded, ?_⟩, hleases,
    hentries⟩
  refine ConsumedByRecord.step ?_ (wellKept_of_traced h.broker.stored.traced) hbefore hpermits
    hleases
  intro leaseId lease terminal hlease hterminal hkind
  obtain ⟨reservation, hreservation, hrecord⟩ := h.consumed leaseId lease terminal hlease hterminal
    hkind
  refine ⟨reservation, hreservation, ?_⟩
  cases hentries with
  | Same => exact hrecord
  | Moved hevent hmoved =>
      exact hrecord.grows h.journal.stored.traced hrecords.stored.traced hmoved.grows

-- An invariant of a run that each event keeps holds of every owner it leads to.
theorem OwnerRun.invariant (hbroker : BrokerReadsBack fromSlice)
    (hjournal : ExternalMutationReadsBack decoder) {condition : Owner → OwnerEvent → Prop}
    (inv : Owner → BrokerStateV1 → ExternalMutationJournalStateV1 → Prop)
    (hempty : inv .empty ⟨0, none, ∅⟩ ⟨0, none, ∅⟩)
    (hnext : ∀ {owner event log log' state state' records records' entries entries'},
      OwnerHolds fromSlice decoder owner log state records entries →
      OwnerHolds fromSlice decoder (owner.apply fromSlice decoder config backend event) log' state'
        records' entries' →
      inv owner state entries → owner.Permits event → condition owner event →
      BrokerStep owner event state state' → JournalStep event records entries records' entries' →
      inv (owner.apply fromSlice decoder config backend event) state' entries')
    (h : OwnerRun fromSlice decoder config backend condition owner) :
    ∃ log state records entries, OwnerHolds fromSlice decoder owner log state records entries ∧
      inv owner state entries := by
  induction h with
  | Empty =>
      refine ⟨_, _, _, _, ⟨.empty _ _, .empty _ _, underway_idle rfl,
        by simp [AllRecorded, Owner.empty], ?_⟩,
        hempty⟩
      intro leaseId lease terminal hlease
      simp [brokerFormat] at hlease
  | Next h event hpermits hcondition ih =>
      obtain ⟨log, state, records, entries, hholds, hinv⟩ := ih
      obtain ⟨log', state', records', entries', hafter, hleases, hentries⟩ :=
        hholds.apply hbroker hjournal hpermits
      exact ⟨log', state', records', entries', hafter,
        hnext hholds hafter hinv hpermits hcondition hleases hentries⟩

theorem OwnerHolds.recovers (hbroker : BrokerReadsBack fromSlice)
    (hjournal : ExternalMutationReadsBack decoder)
    (h : OwnerHolds fromSlice decoder owner log state records entries) :
    owner.Recovers fromSlice decoder state entries :=
  ⟨⟨_, h.broker.stored.replayFile (brokerFormat_lawful hbroker)⟩,
    ⟨_, h.journal.stored.replayFile (externalMutationFormat_lawful hjournal)⟩⟩

theorem Owner.Recovers.unique {other : BrokerStateV1} {others : ExternalMutationJournalStateV1}
    (h : owner.Recovers fromSlice decoder state entries)
    (h' : owner.Recovers fromSlice decoder other others) : other = state ∧ others = entries := by
  obtain ⟨⟨_, hstate⟩, _, hentries⟩ := h
  obtain ⟨⟨_, hother⟩, _, hothers⟩ := h'
  rw [hstate] at hother
  rw [hentries] at hothers
  cases hother
  cases hothers
  exact ⟨rfl, rfl⟩

end M1nd.Mcp
