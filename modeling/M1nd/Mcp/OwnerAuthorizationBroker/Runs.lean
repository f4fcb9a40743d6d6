import M1nd.Mcp.OwnerAuthorizationBroker.Theorems

namespace M1nd.Mcp

open M1nd.Control
open M1nd.Library
open M1nd.Library.Checks
open M1nd.Library.Durable
open ChainedJournal (Disk Held Left Store Stored Traced)

variable [Sha256] {fromSlice : BrokerDecoder} {config : OwnerAuthorizationBrokerConfigV1}
  {world : BrokerWorld} {log : List BrokerJournalRecordV1} {state next : BrokerStateV1}
  {lease : OwnerAuthorizationLeaseV1} {kind : BrokerJournalEventKindV1} {leaseId : String}
  {nowMs : Nat}

-- serde_json reads back every record it has written.
def BrokerReadsBack (fromSlice : BrokerDecoder) : Prop :=
  ∀ record : BrokerJournalRecordV1, fromSlice (canonicalJson record.toValue) = some record

theorem brokerFormat_lawful (hdecode : BrokerReadsBack fromSlice) :
    (brokerFormat fromSlice).Lawful where
  line _ := Json.newline_not_mem_write _
  nonempty _ := Json.write_ne_nil _
  decode _ record := by
    change (fromSlice (canonicalJson record.toValue)).elim _ _ = _
    rw [hdecode record]
    rfl
  closes h := by
    obtain ⟨-, _, -, rfl⟩ := accept_eq_ok.mp h
    exact ⟨rfl, rfl⟩

theorem wellKept_of_traced (h : Traced (brokerFormat fromSlice) BrokerLegal log state) :
    WellKept state :=
  h.invariant (fun _ state => WellKept state)
    (fun leaseId lease hlease => by simp [brokerFormat] at hlease)
    (fun _ _ _ _ hkept _ haccept => hkept.accept haccept)

abbrev BrokerHeld (fromSlice : BrokerDecoder) (world : BrokerWorld)
    (log : List BrokerJournalRecordV1) (state : BrokerStateV1) : Prop :=
  Held (brokerFormat fromSlice) BrokerLegal world log state

abbrev BrokerLeft (fromSlice : BrokerDecoder) {α : Type}
    (o : Outcome OwnerAuthorizationBrokerError α) (after : BrokerWorld)
    (log : List BrokerJournalRecordV1) (state : BrokerStateV1) : Prop :=
  Left (brokerFormat fromSlice) BrokerLegal o after log state

-- The state once a snapshot is durable.
def BrokerStateV1.filed (state : BrokerStateV1) (kind : BrokerJournalEventKindV1)
    (lease : OwnerAuthorizationLeaseV1) (nowMs : Nat) : BrokerStateV1 :=
  ⟨state.sequence + 1, some (brokerRecord state kind lease.leaseId (some lease) nowMs).recordDigest,
    state.leases.insert lease.leaseId lease⟩

def BrokerStateV1.dropped (state : BrokerStateV1) (leaseId : String) (nowMs : Nat) :
    BrokerStateV1 :=
  ⟨state.sequence + 1, some (brokerRecord state .GcTombstone leaseId none nowMs).recordDigest,
    state.leases.erase leaseId⟩

theorem chainRecord_eq_ok {record : BrokerStateV1 → BrokerJournalRecordV1}
    {keep : BTreeMap OwnerAuthorizationLeaseV1 → BTreeMap OwnerAuthorizationLeaseV1}
    {sealed : BrokerJournalRecordV1} (h : chainRecord record keep state = .ok (sealed, next)) :
    sealed = record state ∧
      next = ⟨state.sequence + 1, some (record state).recordDigest, keep state.leases⟩ := by
  simp only [chainRecord, bind_unit_eq_ok, pure_eq_ok, Prod.mk.injEq] at h
  exact ⟨h.2.1.symm, h.2.2.symm⟩

-- A snapshot that fits is appended or it is not; when the call returns, it is there.
def SnapshotLeft (fromSlice : BrokerDecoder) (world : BrokerWorld)
    (log : List BrokerJournalRecordV1) (state : BrokerStateV1) (kind : BrokerJournalEventKindV1)
    (lease : OwnerAuthorizationLeaseV1) (nowMs : Nat) {α : Type}
    (o : Outcome OwnerAuthorizationBrokerError α) (after : BrokerWorld) : Prop :=
  let more := log ++ [brokerRecord state kind lease.leaseId (some lease) nowMs]
  ((∃ value, o = .returned value) → world.handle.poisoned = false ∧
      after.handle.poisoned = false ∧
      BrokerHeld fromSlice after more (state.filed kind lease nowMs)) ∧
    (BrokerLeft fromSlice o after log state ∨
      world.handle.poisoned = false ∧ BrokerLeft fromSlice o after more (state.filed kind lease nowMs))

theorem appendSnapshot_always (hdecode : BrokerReadsBack fromSlice)
    (h : BrokerHeld fromSlice world log state)
    (hfits : world.handle.poisoned = false → Fits state kind lease) :
    Always (appendSnapshot fromSlice kind lease nowMs) world
      (SnapshotLeft fromSlice world log state kind lease nowMs) := by
  refine .bind (.check ?_ fun error _ => ⟨nofun, .inl h⟩)
  intro _ hshape
  refine .bind ((ChainedJournal.append_always (brokerFormat_lawful hdecode) h ?_).mono ?_)
  · intro record next hlive hmake
    obtain ⟨rfl, rfl⟩ := chainRecord_eq_ok hmake
    obtain ⟨hkind, hfollows, hcontinues⟩ := hfits hlive
    exact ⟨accept_snapshot hshape hkind hfollows, hcontinues⟩
  · rintro (record | error | _) after happended
    · obtain ⟨next, hlive, hmake, hheld, hafter⟩ := happended
      obtain ⟨rfl, rfl⟩ := chainRecord_eq_ok hmake
      exact .pure ⟨fun _ => ⟨hlive, hafter, hheld⟩, .inr ⟨hlive, hheld⟩⟩
    · refine ⟨nofun, happended.imp_right ?_⟩
      rintro ⟨record, next, hlive, hmake, hleft⟩
      obtain ⟨rfl, rfl⟩ := chainRecord_eq_ok hmake
      exact ⟨hlive, hleft⟩
    · refine ⟨nofun, happended.imp_right ?_⟩
      rintro ⟨record, next, hlive, hmake, hleft⟩
      obtain ⟨rfl, rfl⟩ := chainRecord_eq_ok hmake
      exact ⟨hlive, hleft⟩

-- What an operation that decides by a plan leaves: the log as it was, or one snapshot more.
inductive Moved (plan : BrokerStateV1 → LeasePlan) (state : BrokerStateV1) (nowMs : Nat)
    (log : List BrokerJournalRecordV1) : List BrokerJournalRecordV1 → BrokerStateV1 → Prop
  | Same : Moved plan state nowMs log log state
  | Append {kind : BrokerJournalEventKindV1} {lease : OwnerAuthorizationLeaseV1}
      (h : plan state = .ok (.Append kind lease)) :
      Moved plan state nowMs log
        (log ++ [brokerRecord state kind lease.leaseId (some lease) nowMs])
        (state.filed kind lease nowMs)

theorem Moved.grows {plan : BrokerStateV1 → LeasePlan} {log' : List BrokerJournalRecordV1}
    (h : Moved plan state nowMs log log' next) : log <+: log' := by
  cases h with
  | Same => exact List.prefix_refl _
  | Append _ => exact List.prefix_append _ _

theorem perform_always (hdecode : BrokerReadsBack fromSlice)
    (h : BrokerHeld fromSlice world log state) {plan : BrokerStateV1 → LeasePlan}
    (hplan : ∀ kind lease, plan state = .ok (.Append kind lease) → Fits state kind lease) :
    Always (perform fromSlice plan nowMs) world fun o after =>
      (∃ log' state', BrokerLeft fromSlice o after log' state' ∧
        Moved plan state nowMs log log' state') ∧
      ∀ lease, o = .returned lease →
        (plan world.handle.state = .ok (.Keep lease) ∧ after = world) ∨
        ∃ kind, plan state = .ok (.Append kind lease) ∧ after.handle.poisoned = false ∧
          BrokerHeld fromSlice after
            (log ++ [brokerRecord state kind lease.leaseId (some lease) nowMs])
            (state.filed kind lease nowMs) := by
  refine .bind (.get (.bind (.check ?_ fun error _ => ⟨⟨log, state, h, .Same⟩, by simp⟩)))
  intro move hmove
  cases move with
  | Keep kept =>
      refine .pure ⟨⟨log, state, h, .Same⟩, ?_⟩
      rintro _ ⟨⟩
      exact .inl ⟨hmove, rfl⟩
  | Append kind lease =>
      have hdecided : world.handle.poisoned = false → plan state = .ok (.Append kind lease) := by
        intro hlive
        rw [← (h.synced hlive).state]
        exact hmove
      refine .bind ((appendSnapshot_always hdecode h fun hlive =>
        hplan _ _ (hdecided hlive)).mono ?_)
      rintro (_ | error | _) after ⟨hreturned, hleft⟩
      · obtain ⟨hlive, hafter, hheld⟩ := hreturned ⟨(), rfl⟩
        refine .pure ⟨⟨_, _, hheld, .Append (hdecided hlive)⟩, ?_⟩
        rintro _ ⟨⟩
        exact .inr ⟨kind, hdecided hlive, hafter, hheld⟩
      · refine ⟨?_, by simp⟩
        obtain hsame | ⟨hlive, hmore⟩ := hleft
        · exact ⟨_, _, hsame, .Same⟩
        · exact ⟨_, _, hmore, .Append (hdecided hlive)⟩
      · refine ⟨?_, by simp⟩
        obtain hsame | ⟨hlive, hmore⟩ := hleft
        · exact ⟨_, _, hsame, .Same⟩
        · exact ⟨_, _, hmore, .Append (hdecided hlive)⟩

-- The second half of a finalization: the lease stays as the first half left it, or it is
-- consumed with the witness that the callback returned.
inductive Finished {W : Type} (consumed : W → OwnerAuthorizationLeaseV1)
    (valid : W → Except OwnerAuthorizationBrokerError Unit) (commit : Outcome String W)
    (state : BrokerStateV1) (nowMs : Nat) (log : List BrokerJournalRecordV1) :
    List BrokerJournalRecordV1 → BrokerStateV1 → Prop
  | Same : Finished consumed valid commit state nowMs log log state
  | Consumed {witness : W} (hreturned : commit = .returned witness)
      (hvalid : valid witness = .ok ()) :
      Finished consumed valid commit state nowMs log
        (log ++ [brokerRecord state .Consumed (consumed witness).leaseId (some (consumed witness))
          nowMs]) (state.filed .Consumed (consumed witness) nowMs)

section Finish

theorem Finished.grows {W : Type} {consumed : W → OwnerAuthorizationLeaseV1}
    {valid : W → Except OwnerAuthorizationBrokerError Unit} {commit : Outcome String W}
    {log' : List BrokerJournalRecordV1}
    (h : Finished consumed valid commit state nowMs log log' next) : log <+: log' := by
  cases h with
  | Same => exact List.prefix_refl _
  | Consumed _ _ => exact List.prefix_append _ _

omit [Sha256] in
theorem ended_fits {current : OwnerAuthorizationLeaseV1} {last : AuthorizationLeaseStateV1}
    {terminal : AuthorizationTerminalV1} (hfiled : state.leases[current.leaseId]? = some current)
    (hreserved : current.state = .Reserved)
    (hlegal : legalLeaseTransition .Reserved last kind = true) :
    Fits state kind (ended last terminal current) :=
  .following hfiled rfl rfl (by rw [hreserved]; exact hlegal) ⟨rfl, rfl, rfl, rfl, fun _ h => h⟩

theorem finishWal_always (hdecode : BrokerReadsBack fromSlice)
    (h : BrokerHeld fromSlice world log state) (hfiled : state.leases[lease.leaseId]? = some lease)
    (hreserved : lease.state = .Reserved) (commit : Outcome String AuthorityWalCommitWitnessV1) :
    Always (finishWal fromSlice lease commit nowMs) world fun o after =>
      ∃ log' state', BrokerLeft fromSlice o after log' state' ∧
        Finished (fun witness => consumedByWal witness nowMs lease)
          (fun witness => validateWalWitness lease witness nowMs) commit state nowMs log log'
          state' := by
  unfold finishWal
  cases commit with
  | crashed => exact .crash ⟨log, state, h.stored, .Same⟩
  | refused detail => exact .refuse ⟨log, state, h, .Same⟩
  | returned witness =>
      refine .bind (.check ?_ fun error _ => ⟨log, state, h, .Same⟩)
      intro _ hvalid
      refine .bind ((appendSnapshot_always hdecode h fun _ =>
        ended_fits hfiled hreserved rfl).mono ?_)
      rintro (_ | error | _) after ⟨hreturned, hleft⟩
      · exact .pure ⟨_, _, (hreturned ⟨(), rfl⟩).2.2, .Consumed rfl hvalid⟩
      · obtain hsame | ⟨-, hmore⟩ := hleft
        · exact ⟨_, _, hsame, .Same⟩
        · exact ⟨_, _, hmore, .Consumed rfl hvalid⟩
      · obtain hsame | ⟨-, hmore⟩ := hleft
        · exact ⟨_, _, hsame, .Same⟩
        · exact ⟨_, _, hmore, .Consumed rfl hvalid⟩

theorem finishExternalMutation_always (hdecode : BrokerReadsBack fromSlice)
    (h : BrokerHeld fromSlice world log state) (hfiled : state.leases[lease.leaseId]? = some lease)
    (hreserved : lease.state = .Reserved)
    (commit : Outcome String ExternalMutationCommitWitnessV1) :
    Always (finishExternalMutation fromSlice lease commit nowMs) world fun o after =>
      ∃ log' state', BrokerLeft fromSlice o after log' state' ∧
        Finished (fun witness => consumedByExternalMutation witness nowMs lease)
          (fun witness => validateExternalMutationWitness lease witness nowMs) commit state nowMs
          log log' state' := by
  unfold finishExternalMutation
  cases commit with
  | crashed => exact .crash ⟨log, state, h.stored, .Same⟩
  | refused detail => exact .refuse ⟨log, state, h, .Same⟩
  | returned witness =>
      refine .bind (.check ?_ fun error _ => ⟨log, state, h, .Same⟩)
      intro _ hvalid
      refine .bind ((appendSnapshot_always hdecode h fun _ =>
        ended_fits hfiled hreserved rfl).mono ?_)
      rintro (_ | error | _) after ⟨hreturned, hleft⟩
      · exact .pure ⟨_, _, (hreturned ⟨(), rfl⟩).2.2, .Consumed rfl hvalid⟩
      · obtain hsame | ⟨-, hmore⟩ := hleft
        · exact ⟨_, _, hsame, .Same⟩
        · exact ⟨_, _, hmore, .Consumed rfl hvalid⟩
      · obtain hsame | ⟨-, hmore⟩ := hleft
        · exact ⟨_, _, hsame, .Same⟩
        · exact ⟨_, _, hmore, .Consumed rfl hvalid⟩

end Finish

section Gc

-- A lease that gc may drop.
def Droppable (state : BrokerStateV1) (nowMs : Nat) (leaseId : String) : Prop :=
  isBlank leaseId = false ∧ ∃ lease : OwnerAuthorizationLeaseV1,
    state.leases[leaseId]? = some lease ∧ lease.Ended ∧ lease.retainUntil ≤ nowMs

def AllDroppable (state : BrokerStateV1) (nowMs : Nat) (leaseIds : List String) : Prop :=
  leaseIds.Nodup ∧ ∀ leaseId ∈ leaseIds, Droppable state nowMs leaseId

-- Dropping the first leaves the others as they were.
theorem AllDroppable.rest {leaseIds : List String}
    (h : AllDroppable state nowMs (leaseId :: leaseIds)) :
    AllDroppable (state.dropped leaseId nowMs) nowMs leaseIds := by
  obtain ⟨hnodup, hall⟩ := h
  obtain ⟨hfresh, hnodup⟩ := List.nodup_cons.mp hnodup
  refine ⟨hnodup, fun other hother => ?_⟩
  obtain ⟨hblank, lease, hlease, hended, hretain⟩ := hall other (List.mem_cons_of_mem _ hother)
  refine ⟨hblank, lease, ?_, hended, hretain⟩
  change (state.leases.erase leaseId)[other]? = _
  rw [Std.ExtTreeMap.getElem?_erase, if_neg, hlease]
  intro heq
  obtain rfl : leaseId = other := Std.LawfulEqCmp.eq_of_compare heq
  exact hfresh hother

-- Gc drops candidates that have ended, and no other lease.
def Shrunk (leaseIds : List String) (state next : BrokerStateV1) : Prop :=
  ∀ leaseId : String, next.leases[leaseId]? = state.leases[leaseId]? ∨
    next.leases[leaseId]? = none ∧ leaseId ∈ leaseIds ∧ ∃ lease : OwnerAuthorizationLeaseV1,
      state.leases[leaseId]? = some lease ∧ lease.Ended

omit [Sha256] in
theorem Shrunk.mono {fewer leaseIds : List String} (h : Shrunk fewer state next)
    (hsubset : ∀ leaseId ∈ fewer, leaseId ∈ leaseIds) : Shrunk leaseIds state next := by
  intro leaseId
  obtain hsame | ⟨hnone, hmem, hended⟩ := h leaseId
  · exact .inl hsame
  · exact .inr ⟨hnone, hsubset leaseId hmem, hended⟩

omit [Sha256] in
theorem Shrunk.trans {leaseIds : List String} {last : BrokerStateV1}
    (h : Shrunk leaseIds state next) (h' : Shrunk leaseIds next last) :
    Shrunk leaseIds state last := by
  intro leaseId
  obtain hlast | ⟨hnone, hmem, lease, hlease, hended⟩ := h' leaseId
  · rw [hlast]
    exact h leaseId
  · obtain hnext | ⟨hnext, -⟩ := h leaseId
    · exact .inr ⟨hnone, hmem, lease, by rw [← hnext]; exact hlease, hended⟩
    · rw [hnext] at hlease
      cases hlease

theorem shrunk_dropped (h : Droppable state nowMs leaseId) :
    Shrunk [leaseId] state (state.dropped leaseId nowMs) := by
  obtain ⟨-, lease, hlease, hended, -⟩ := h
  intro other
  by_cases hother : leaseId = other
  · subst hother
    exact .inr ⟨Std.ExtTreeMap.getElem?_erase_self, List.mem_singleton_self _, lease, hlease,
      hended⟩
  · refine .inl ?_
    change (state.leases.erase leaseId)[other]? = _
    rw [Std.ExtTreeMap.getElem?_erase, if_neg]
    exact fun heq => hother (Std.LawfulEqCmp.eq_of_compare heq)

theorem appendTombstone_always (hdecode : BrokerReadsBack fromSlice)
    (h : BrokerHeld fromSlice world log state)
    (hdroppable : world.handle.poisoned = false → Droppable state nowMs leaseId) :
    Always (appendTombstone fromSlice leaseId nowMs) world fun o after =>
      (o = .returned () → world.handle.poisoned = false ∧ BrokerHeld fromSlice after
        (log ++ [brokerRecord state .GcTombstone leaseId none nowMs])
        (state.dropped leaseId nowMs)) ∧
      ∃ log' state', BrokerLeft fromSlice o after log' state' ∧ log <+: log' ∧
        Shrunk [leaseId] state state' := by
  have hsame : Shrunk [leaseId] state state := fun _ => .inl rfl
  refine .bind ((ChainedJournal.append_always (brokerFormat_lawful hdecode) h ?_).mono ?_)
  · intro record next hlive hmake
    obtain ⟨rfl, rfl⟩ := chainRecord_eq_ok hmake
    obtain ⟨hblank, lease, hlease, hended, hretain⟩ := hdroppable hlive
    refine ⟨accept_tombstone hblank hlease, ?_⟩
    intro previous hprevious
    obtain rfl : lease = previous := Option.some.inj (hlease.symm.trans hprevious)
    exact ⟨hended, hretain⟩
  · rintro (record | error | _) after happended
    · obtain ⟨next, hlive, hmake, hheld, -⟩ := happended
      obtain ⟨rfl, rfl⟩ := chainRecord_eq_ok hmake
      exact .pure ⟨fun _ => ⟨hlive, hheld⟩, _, _, hheld, List.prefix_append _ _,
        shrunk_dropped (hdroppable hlive)⟩
    · refine ⟨nofun, ?_⟩
      obtain hleft | ⟨record, next, hlive, hmake, hleft⟩ := happended
      · exact ⟨_, _, hleft, List.prefix_refl _, hsame⟩
      · obtain ⟨rfl, rfl⟩ := chainRecord_eq_ok hmake
        exact ⟨_, _, hleft, List.prefix_append _ _, shrunk_dropped (hdroppable hlive)⟩
    · refine ⟨nofun, ?_⟩
      obtain hleft | ⟨record, next, hlive, hmake, hleft⟩ := happended
      · exact ⟨_, _, hleft, List.prefix_refl _, hsame⟩
      · obtain ⟨rfl, rfl⟩ := chainRecord_eq_ok hmake
        exact ⟨_, _, hleft, List.prefix_append _ _, shrunk_dropped (hdroppable hlive)⟩

theorem appendTombstones_always (hdecode : BrokerReadsBack fromSlice) (leaseIds : List String)
    (h : BrokerHeld fromSlice world log state)
    (hdroppable : world.handle.poisoned = false → AllDroppable state nowMs leaseIds) :
    Always (appendTombstones fromSlice nowMs leaseIds) world fun o after =>
      ∃ log' state', BrokerLeft fromSlice o after log' state' ∧ log <+: log' ∧
        Shrunk leaseIds state state' := by
  induction leaseIds generalizing world log state with
  | nil => exact .pure ⟨log, state, h, List.prefix_refl _, fun _ => .inl rfl⟩
  | cons leaseId leaseIds ih =>
      refine .bind ((appendTombstone_always hdecode h fun hlive =>
        (hdroppable hlive).2 leaseId List.mem_cons_self).mono ?_)
      rintro (_ | error | _) after ⟨hreturned, hleft⟩
      · obtain ⟨hlive, hheld⟩ := hreturned rfl
        have hdropped : Shrunk (leaseId :: leaseIds) state (state.dropped leaseId nowMs) :=
          (shrunk_dropped ((hdroppable hlive).2 leaseId List.mem_cons_self)).mono (by simp)
        have hrest := (hdroppable hlive).rest
        refine (ih hheld ?_).mono ?_
        · exact fun _ => hrest
        · rintro o last ⟨log', state', hlast, hmore, hshrunk⟩
          exact ⟨log', state', hlast, (List.prefix_append _ _).trans hmore,
            hdropped.trans (hshrunk.mono fun _ => List.mem_cons_of_mem _)⟩
      · obtain ⟨log', state', hlast, hmore, hshrunk⟩ := hleft
        exact ⟨log', state', hlast, hmore, hshrunk.mono (by simp)⟩
      · obtain ⟨log', state', hlast, hmore, hshrunk⟩ := hleft
        exact ⟨log', state', hlast, hmore, hshrunk.mono (by simp)⟩

-- A poisoned handle refuses the first append.
theorem appendTombstones_poisoned (h : BrokerHeld fromSlice world log state)
    (hdead : ¬world.handle.poisoned = false) {leaseIds : List String} :
    Always (appendTombstones fromSlice nowMs leaseIds) world fun o after =>
      BrokerLeft fromSlice o after log state := by
  cases leaseIds with
  | nil => exact .pure h
  | cons leaseId leaseIds =>
      refine .bind (.bind (.bind (.get (.bind (.check ?_ fun error _ => h)))))
      intro _ hlive
      exact absurd (by simpa using hlive) hdead

omit [Sha256] in
theorem gcCandidates_unreferenced (hkept : WellKept state)
    {unreferenced : OwnerAuthorizationLeaseV1 → Bool}
    (hmem : leaseId ∈ state.gcCandidates nowMs unreferenced)
    (hlease : state.leases[leaseId]? = some lease) : unreferenced lease = true := by
  obtain ⟨⟨filed, candidate⟩, hpair, rfl⟩ := List.mem_map.mp hmem
  obtain ⟨hfiled, hcandidate⟩ := List.mem_filter.mp hpair
  have hfiled := Std.ExtTreeMap.mem_toList_iff_getElem?_eq_some.mp hfiled
  obtain ⟨hid, -⟩ := hkept filed candidate hfiled
  obtain rfl : candidate = lease := by
    dsimp only at hlease
    rw [hid, hfiled] at hlease
    exact Option.some.inj hlease
  simp only [Bool.and_eq_true] at hcandidate
  exact hcandidate.2

omit [Sha256] in
theorem gcCandidates_droppable (hkept : WellKept state)
    {unreferenced : OwnerAuthorizationLeaseV1 → Bool} :
    AllDroppable state nowMs (state.gcCandidates nowMs unreferenced) := by
  have hids : state.gcCandidates nowMs unreferenced =
      (state.leases.toList.filter fun pair =>
        (pair.2.state = .Consumed || pair.2.state = .Aborted) && nowMs ≥ pair.2.retainUntil &&
          unreferenced pair.2).map Prod.fst := by
    refine List.map_congr_left ?_
    rintro ⟨leaseId, lease⟩ hmem
    have hfiled := Std.ExtTreeMap.mem_toList_iff_getElem?_eq_some.mp (List.mem_filter.mp hmem).1
    exact (hkept leaseId lease hfiled).1
  rw [hids]
  constructor
  · refine List.Nodup.of_map (fun leaseId => leaseId) ?_
    rw [List.map_id']
    refine List.pairwise_map.mpr ?_
    refine (Std.ExtTreeMap.distinct_keys_toList.filter _).imp ?_
    exact fun hdistinct heq => hdistinct (by rw [heq]; exact Std.ReflCmp.compare_self)
  · intro leaseId hmem
    obtain ⟨⟨filed, lease⟩, hpair, rfl⟩ := List.mem_map.mp hmem
    obtain ⟨hfiled, hcandidate⟩ := List.mem_filter.mp hpair
    have hfiled := Std.ExtTreeMap.mem_toList_iff_getElem?_eq_some.mp hfiled
    obtain ⟨rfl, hshape⟩ := hkept filed lease hfiled
    simp only [Bool.and_eq_true, Bool.or_eq_true, decide_eq_true_eq] at hcandidate
    exact ⟨not_isBlank_of_shape hshape, lease, hfiled, hcandidate.1.1, hcandidate.1.2⟩

theorem gc_always (hdecode : BrokerReadsBack fromSlice) (h : BrokerHeld fromSlice world log state)
    (unreferenced : OwnerAuthorizationLeaseV1 → Bool) :
    Always (gc fromSlice nowMs unreferenced) world fun o after =>
      ∃ log' state', BrokerLeft fromSlice o after log' state' ∧ log <+: log' ∧
        (state' = state ∨ Shrunk (state.gcCandidates nowMs unreferenced) state state') := by
  by_cases hlive : world.handle.poisoned = false
  · have hstate := (h.synced hlive).state
    have hkept := wellKept_of_traced h.stored.traced
    refine .bind (.get (.bind ((appendTombstones_always hdecode
      (world.handle.state.gcCandidates nowMs unreferenced) h ?_).mono ?_)))
    · intro _
      rw [hstate]
      exact gcCandidates_droppable hkept
    · rw [hstate]
      rintro (_ | error | _) after ⟨log', state', hleft, hmore, hshrunk⟩
      · exact .pure ⟨log', state', hleft, hmore, .inr hshrunk⟩
      · exact ⟨log', state', hleft, hmore, .inr hshrunk⟩
      · exact ⟨log', state', hleft, hmore, .inr hshrunk⟩
  · refine .bind (.get (.bind ((appendTombstones_poisoned h hlive).mono ?_)))
    rintro (_ | error | _) after hleft
    · exact .pure ⟨log, state, hleft, List.prefix_refl _, .inl rfl⟩
    · exact ⟨log, state, hleft, List.prefix_refl _, .inl rfl⟩
    · exact ⟨log, state, hleft, List.prefix_refl _, .inl rfl⟩

end Gc

end M1nd.Mcp
