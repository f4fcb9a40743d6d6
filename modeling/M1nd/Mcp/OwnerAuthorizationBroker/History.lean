import M1nd.Mcp.OwnerAuthorizationBroker.Journal
import Mathlib.Logic.Function.Basic

namespace M1nd.Mcp

open M1nd.Control
open M1nd.Library
open M1nd.Library.Checks
open M1nd.Library.Durable
open ChainedJournal (Disk Stored Traced lineEnd)

-- What the records of a journal say of one lease: its snapshots, oldest first. A tombstone
-- ends a history; the id may be issued again after it.
def leaseHistory (leaseId : String) (log : List BrokerJournalRecordV1) :
    List OwnerAuthorizationLeaseV1 :=
  log.foldl (fun history record =>
    if record.core.leaseId = leaseId then
      record.core.lease.elim [] fun lease => history ++ [lease]
    else history) []

-- The way of one lease: UNUSED, then RESERVED, then at most once CONSUMED or ABORTED.
inductive OneWay : List AuthorizationLeaseStateV1 → Prop
  | Issued : OneWay [.Unused]
  | Reserved (again : Nat) : OneWay (.Unused :: List.replicate (again + 1) .Reserved)
  | Ended (again : Nat) {last : AuthorizationLeaseStateV1}
      (h : last = .Consumed ∨ last = .Aborted) :
      OneWay (.Unused :: List.replicate (again + 1) .Reserved ++ [last])

structure LeaseCourse (history : List OwnerAuthorizationLeaseV1) : Prop where
  states : OneWay (history.map OwnerAuthorizationLeaseV1.state)
  chain : history.IsChain fun previous next =>
    next.revision = previous.revision + 1 ∧ next.Continues previous

-- Gc takes a lease out once it has ended and its time of retention is over.
def GcInTime (log : List BrokerJournalRecordV1) : Prop :=
  ∀ before record after, log = before ++ record :: after → record.core.lease = none →
    ∃ lease, (leaseHistory record.core.leaseId before).getLast? = some lease ∧ lease.Ended ∧
      lease.retainUntil ≤ record.core.recordedAt

variable {log : List BrokerJournalRecordV1} {record : BrokerJournalRecordV1}
  {history : List OwnerAuthorizationLeaseV1} {lease previous : OwnerAuthorizationLeaseV1}
  {leaseId : String} {state next : BrokerStateV1} {kind : BrokerJournalEventKindV1}

theorem leaseHistory_concat : leaseHistory leaseId (log ++ [record]) =
    if record.core.leaseId = leaseId then
      record.core.lease.elim [] fun lease => leaseHistory leaseId log ++ [lease]
    else leaseHistory leaseId log := by
  simp [leaseHistory]

-- A legal move from the last state goes on along the way.
theorem OneWay.move {states : List AuthorizationLeaseStateV1}
    {last state : AuthorizationLeaseStateV1} (h : OneWay states) (hlast : states.getLast? = some last)
    (hlegal : legalLeaseTransition last state kind = true) : OneWay (states ++ [state]) := by
  cases h with
  | Issued =>
      obtain rfl : .Unused = last := Option.some.inj hlast
      cases state <;> cases kind <;> cases hlegal
      exact .Reserved 0
  | Reserved again =>
      rw [List.replicate_succ', ← List.cons_append, List.getLast?_concat] at hlast
      obtain rfl := Option.some.inj hlast
      cases state <;> cases kind <;> cases hlegal
      · rw [List.cons_append, ← List.replicate_succ']
        exact .Reserved (again + 1)
      · exact .Ended again (.inl rfl)
      · exact .Ended again (.inr rfl)
  | Ended again h =>
      rw [List.getLast?_concat] at hlast
      obtain rfl := Option.some.inj hlast
      obtain rfl | rfl := h <;> cases state <;> cases kind <;> cases hlegal

theorem LeaseCourse.issued (hunused : lease.state = .Unused) : LeaseCourse [lease] where
  states := by
    rw [List.map_singleton, hunused]
    exact .Issued
  chain := .singleton lease

theorem LeaseCourse.follow (h : LeaseCourse history) (hlast : history.getLast? = some previous)
    (hrevision : lease.revision = previous.revision + 1)
    (hlegal : legalLeaseTransition previous.state lease.state kind = true)
    (hcontinues : lease.Continues previous) : LeaseCourse (history ++ [lease]) where
  states := by
    rw [List.map_append, List.map_singleton]
    refine h.states.move ?_ hlegal
    rw [List.getLast?_map, hlast]
    rfl
  chain := by
    refine h.chain.append (.singleton lease) ?_
    intro last hmem other hother
    obtain rfl : lease = other := by simpa using hother
    obtain rfl : previous = last := by
      rw [hlast] at hmem
      simpa using hmem
    exact ⟨hrevision, hcontinues⟩

section Journal

variable [Sha256] {fromSlice : BrokerDecoder}

-- The leases in memory are the last snapshots of the histories that have not ended.
structure Recounts (log : List BrokerJournalRecordV1) (state : BrokerStateV1) : Prop where
  last : ∀ leaseId : String, state.leases[leaseId]? = (leaseHistory leaseId log).getLast?
  course : ∀ leaseId, leaseHistory leaseId log ≠ [] → LeaseCourse (leaseHistory leaseId log)
  gc : GcInTime log

theorem tombstone_iff_of_validate {sequence : Nat} {digest : Option String}
    (h : record.validate sequence digest = .ok ()) :
    record.core.eventKind = .GcTombstone ↔ record.core.lease = none := by
  simp only [BrokerJournalRecordV1.validate, bind_unit_eq_ok] at h
  obtain ⟨-, -, hlease⟩ := h
  cases hkind : record.core.eventKind <;> simpa [hkind] using hlease

omit [Sha256] in
theorem GcInTime.concat (h : GcInTime log) (hrecord : record.core.lease = none →
      ∃ lease, (leaseHistory record.core.leaseId log).getLast? = some lease ∧ lease.Ended ∧
        lease.retainUntil ≤ record.core.recordedAt) : GcInTime (log ++ [record]) := by
  intro before other after hlog hnone
  obtain rfl | ⟨after, last, rfl⟩ := List.eq_nil_or_concat after
  · obtain ⟨rfl, hsame⟩ := List.append_inj' hlog rfl
    obtain rfl : record = other := by simpa using hsame
    exact hrecord hnone
  · have hsplit : log ++ [record] = (before ++ other :: after) ++ [last] := by simpa using hlog
    obtain ⟨hbefore, -⟩ := List.append_inj' hsplit rfl
    exact h before other after hbefore hnone

theorem Recounts.accept (h : Recounts log state) (hlegal : BrokerLegal state record)
    (haccept : state.accept record = .ok next) : Recounts (log ++ [record]) next := by
  obtain ⟨hvalid, leases, happly, rfl⟩ := accept_eq_ok.mp haccept
  have htombstone := tombstone_iff_of_validate hvalid
  obtain ⟨hkind, rfl, previous, hprevious⟩ | ⟨hkind, lease, hlease, hid, -, hfollows, rfl⟩ :=
    applyReplayedRecord_eq_ok happly
  · have hnone := htombstone.mp hkind
    obtain ⟨hended, hretain⟩ : previous.Ended ∧ previous.retainUntil ≤ record.core.recordedAt := by
      have hgc := hlegal previous hprevious
      rw [hnone] at hgc
      exact hgc
    refine ⟨fun leaseId => ?_, fun leaseId hne => ?_, h.gc.concat fun _ => ?_⟩
    · rw [leaseHistory_concat, hnone, Std.ExtTreeMap.getElem?_erase]
      by_cases hsame : record.core.leaseId = leaseId
      · rw [if_pos hsame, if_pos (by rw [hsame]; exact Std.ReflCmp.compare_self)]
        rfl
      · rw [if_neg hsame, if_neg fun heq => hsame (Std.LawfulEqCmp.eq_of_compare heq)]
        exact h.last leaseId
    · rw [leaseHistory_concat, hnone] at hne ⊢
      by_cases hsame : record.core.leaseId = leaseId
      · rw [if_pos hsame] at hne
        exact absurd rfl hne
      · rw [if_neg hsame] at hne ⊢
        exact h.course leaseId hne
    · exact ⟨previous, by rw [← h.last]; exact hprevious, hended, hretain⟩
  · refine ⟨fun leaseId => ?_, fun leaseId hne => ?_, h.gc.concat fun hnone => ?_⟩
    · rw [leaseHistory_concat, hlease, Std.ExtTreeMap.getElem?_insert, hid]
      by_cases hsame : record.core.leaseId = leaseId
      · rw [if_pos hsame, if_pos (by rw [hsame]; exact Std.ReflCmp.compare_self)]
        exact List.getLast?_concat.symm
      · rw [if_neg hsame, if_neg fun heq => hsame (Std.LawfulEqCmp.eq_of_compare heq)]
        exact h.last leaseId
    · rw [leaseHistory_concat, hlease] at hne ⊢
      by_cases hsame : record.core.leaseId = leaseId
      · subst hsame
        rw [if_pos rfl]
        change LeaseCourse (leaseHistory record.core.leaseId log ++ [lease])
        unfold Follows at hfollows
        rw [hid] at hfollows
        cases hprevious : state.leases[record.core.leaseId]? with
        | none =>
            rw [hprevious] at hfollows
            rw [h.last, List.getLast?_eq_none_iff] at hprevious
            rw [hprevious]
            exact .issued hfollows.2
        | some previous =>
            rw [hprevious] at hfollows
            have hcontinues := hlegal previous hprevious
            rw [hlease] at hcontinues
            rw [h.last] at hprevious
            refine (h.course _ fun hnil => ?_).follow hprevious hfollows.1 hfollows.2 hcontinues
            rw [hnil] at hprevious
            cases hprevious
      · rw [if_neg hsame] at hne ⊢
        exact h.course leaseId hne
    · rw [hlease] at hnone
      cases hnone

theorem recounts_of_traced (h : Traced (brokerFormat fromSlice) BrokerLegal log state) :
    Recounts log state := by
  refine h.invariant Recounts ⟨fun leaseId => ?_, fun leaseId hne => absurd rfl hne, ?_⟩
    fun _ _ _ _ hrecounts hlegal haccept => hrecounts.accept hlegal haccept
  · simp [brokerFormat, leaseHistory]
  · intro before record after hlog
    simp at hlog

section Run

variable (fromSlice : BrokerDecoder) (config : OwnerAuthorizationBrokerConfigV1) (backend : Bool)
  (events : List BrokerEvent)

-- What a run of the broker leaves: the journal file holds the log and at most a torn tail, it
-- replays, its leases went their way, and opening it again gives the handle there is, unless a
-- fault has spoilt that handle.
structure Recounted (log : List BrokerJournalRecordV1) : Prop where
  file : ∃ tail, (brokerRun fromSlice config backend events).disk.log =
    ChainedJournal.logBytes (brokerFormat fromSlice) log ++ tail ∧ lineEnd ∉ tail
  replays : ∃ state, (brokerFormat fromSlice).replayFile
      (brokerRun fromSlice config backend events).disk.log =
        .ok (state, (ChainedJournal.logBytes (brokerFormat fromSlice) log).length) ∧
    ∀ leaseId : String, state.leases[leaseId]? = (leaseHistory leaseId log).getLast?
  course : ∀ leaseId, leaseHistory leaseId log ≠ [] → LeaseCourse (leaseHistory leaseId log)
  gc : GcInTime log
  reopens : ∀ handle, (brokerRun fromSlice config backend events).handle = some handle →
    handle.poisoned = false →
      Ends (openBroker fromSlice config handle.protectedHead.isSome) []
        (brokerRun fromSlice config backend events).disk (.returned handle) []
        (brokerRun fromSlice config backend events).disk ∧
      ∀ leaseId : String, handle.state.leases[leaseId]? = (leaseHistory leaseId log).getLast?
  calm : (∀ event ∈ events, event.Calm) → log.length + 1 < 2 ^ 64 →
    ∀ handle, (brokerRun fromSlice config backend events).handle = some handle →
      handle.poisoned = false ∧ handle.protectedHead.isSome = backend

end Run

variable {config : OwnerAuthorizationBrokerConfigV1} {backend : Bool} {events : List BrokerEvent}

theorem recounted_of_holds (hdecode : BrokerReadsBack fromSlice)
    (h : (brokerRun fromSlice config backend events).Holds (brokerFormat fromSlice) BrokerLegal log
      state)
    (hcalm : (∀ event ∈ events, event.Calm) → log.length + 1 < 2 ^ 64 →
      ∀ handle, (brokerRun fromSlice config backend events).handle = some handle →
        handle.poisoned = false ∧ handle.protectedHead.isSome = backend) :
    Recounted fromSlice config backend events log := by
  have hlawful := brokerFormat_lawful hdecode
  have hrecounts := recounts_of_traced h.stored.traced
  refine ⟨h.stored.bytes, ⟨state, h.stored.replayFile hlawful, hrecounts.last⟩, hrecounts.course,
    hrecounts.gc, fun handle hhandle hlive => ?_, hcalm⟩
  have hvalid : config.Valid := by
    by_contra hinvalid
    rw [brokerRun_invalid hinvalid] at hhandle
    cases hhandle
  have hheld := h.held handle hhandle
  have hsynced := hheld.synced hlive
  refine ⟨?_, fun leaseId => ?_⟩
  · rw [openBroker_eq hvalid]
    exact ChainedJournal.openJournal_ends hlawful hheld hlive
  · rw [show handle.state = state from hsynced.state]
    exact hrecounts.last leaseId

-- Whatever operations, faults, crashes and reopenings a run is made of.
theorem brokerRun_recounted (hdecode : BrokerReadsBack fromSlice)
    (config : OwnerAuthorizationBrokerConfigV1) (backend : Bool) (events : List BrokerEvent) :
    ∃ log, Recounted fromSlice config backend events log := by
  by_cases hready : config.Valid ∧ ∀ event ∈ events, event.Calm
  · obtain ⟨hvalid, hcalm⟩ := hready
    obtain ⟨log, state, h, hready⟩ := brokerRun_ready hdecode hvalid hcalm
    refine ⟨log, recounted_of_holds hdecode h fun _ hroom handle hhandle => ?_⟩
    specialize hready hroom
    rw [hhandle] at hready
    exact hready
  · obtain ⟨log, state, h⟩ := brokerRun_holds hdecode backend events
    refine ⟨log, recounted_of_holds hdecode h fun hcalm _ handle hhandle => ?_⟩
    by_cases hvalid : config.Valid
    · exact absurd ⟨hvalid, hcalm⟩ hready
    · rw [brokerRun_invalid hvalid] at hhandle
      cases hhandle

end Journal

theorem partialInv_brokerReadsBack :
    BrokerReadsBack (Function.partialInv fun record => canonicalJson record.toValue) :=
  fun record => Function.partialInv_left canonicalJson_record_injective record

-- A broker that is opened, asked for a lease it does not have, and opened again.
theorem brokerRun_recounted_once :
    letI := standardSha256
    ∃ log, Recounted (Function.partialInv fun record => canonicalJson record.toValue) ⟨1000, 1000⟩
      true [.Open [], .Call (.RecoverReserved "lease" none) 5 [], .Open []] log :=
  letI := standardSha256
  brokerRun_recounted partialInv_brokerReadsBack _ _ _

end M1nd.Mcp
