import M1nd.Mcp.RuntimeJobs.Replay
import M1nd.Mcp.RuntimeJobs.Supervision

namespace M1nd.Mcp

open M1nd.Control
open M1nd.Library.Checks
open M1nd.Library.Durable
open M1nd.Library.Json (Bytes)

section Index

variable {entries : List (String × RuntimeJobV1)} {idempotency after : BTreeMap String}

theorem indexIdempotency_eq_ok {entry : String × RuntimeJobV1}
    (h : indexIdempotency idempotency entry = .ok after) :
    after = idempotency.insert entry.2.idempotencyKey entry.1 := by
  unfold indexIdempotency at h
  split at h
  · exact (Except.ok.inj h).symm
  · cases h

-- The keys of the jobs of a journal that opens are all taken.
theorem foldlM_indexIdempotency_mem (h : entries.foldlM indexIdempotency idempotency = .ok after) :
    (∀ key ∈ idempotency, key ∈ after) ∧ ∀ entry ∈ entries, entry.2.idempotencyKey ∈ after := by
  induction entries generalizing idempotency with
  | nil =>
      obtain rfl := Except.ok.inj h
      exact ⟨fun _ => id, by simp⟩
  | cons entry entries ih =>
      rw [List.foldlM_cons] at h
      obtain ⟨middle, hmiddle, hrest⟩ := bind_eq_ok.mp h
      obtain ⟨hkept, hentries⟩ := ih hrest
      obtain rfl := indexIdempotency_eq_ok hmiddle
      refine ⟨fun key hkey => hkept key ?_, fun other hother => ?_⟩
      · rw [Std.ExtTreeMap.mem_insert]
        exact .inr hkey
      · obtain rfl | hother := List.mem_cons.mp hother
        · refine hkept _ ?_
          rw [Std.ExtTreeMap.mem_insert]
          exact .inl Std.ReflCmp.compare_self
        · exact hentries other hother

theorem foldlM_indexIdempotency_ok (idempotency : BTreeMap String)
    (hnodup : entries.Pairwise fun first second => first.2.idempotencyKey ≠ second.2.idempotencyKey)
    (hnew : ∀ entry ∈ entries, entry.2.idempotencyKey ∉ idempotency) :
    ∃ after, entries.foldlM indexIdempotency idempotency = .ok after := by
  induction entries generalizing idempotency with
  | nil => exact ⟨idempotency, rfl⟩
  | cons entry entries ih =>
      obtain ⟨hhead, htail⟩ := List.pairwise_cons.mp hnodup
      have hfirst : indexIdempotency idempotency entry =
          .ok (idempotency.insert entry.2.idempotencyKey entry.1) := by
        unfold indexIdempotency
        rw [Std.ExtTreeMap.getElem?_eq_none (hnew entry List.mem_cons_self)]
        rfl
      rw [List.foldlM_cons, hfirst]
      refine ih _ htail fun other hother hmem => ?_
      rw [Std.ExtTreeMap.mem_insert] at hmem
      obtain hsame | hmem := hmem
      · exact hhead other hother (Std.LawfulEqCmp.eq_of_compare hsame)
      · exact hnew other (List.mem_cons_of_mem _ hother) hmem

end Index

section Opening

variable [Sha256] {fromSlice : RuntimeJobDecoder} {file : Bytes} {registry : RegistryState}
  {log : List RuntimeJobJournalRecordV1} {replay : JobReplay} {maxInFlight : Nat}

-- A process that opens the journal knows what the journal tells.
theorem openRegistry_rebuilt (hdecode : RuntimeJobReadsBack fromSlice) (h : Kept fromSlice file)
    (hopen : openRegistry fromSlice maxInFlight file = .ok registry) :
    Rebuilt fromSlice registry ∧ registry.poisoned = false := by
  obtain ⟨log, replay, tail, hfiled, hreplayed⟩ := h
  obtain ⟨rfl, hfile, hsafe, -⟩ := openRegistry_spec hdecode hfiled hopen
  refine ⟨?_, hsafe⟩
  obtain ⟨offset, hjournal⟩ := hreplayed.journal hfiled
  simp only [openRegistry, hjournal, bind_eq_ok, exists_unit, pure_eq_ok, Except.ok.injEq] at hopen
  obtain ⟨-, _, rfl, idempotency, hindex, rfl⟩ := hopen
  have hjobs : ∀ jobId : String, replay.jobs[jobId]? =
      ((replay.jobs.map fun _ job => (⟨job, false⟩ : JobEntry))[jobId]?).map JobEntry.job := by
    intro jobId
    rw [Std.ExtTreeMap.getElem?_map]
    cases replay.jobs[jobId]? <;> rfl
  refine rebuilt_of_filed hreplayed ⟨hjobs, rfl, rfl, fun jobId job hjob => ?_⟩ hfiled
  have hentry : (jobId, job) ∈ replay.jobs.toList :=
    Std.ExtTreeMap.mem_toList_iff_getElem?_eq_some.mpr ((hjobs jobId).trans hjob)
  exact (foldlM_indexIdempotency_mem hindex).2 _ hentry

-- A journal of whole lines that was kept opens.
theorem openRegistry_ok (hreplayed : Replayed fromSlice log replay) (hfiled : Filed file log [])
    (hlimit : maxInFlight ≠ 0) :
    ∃ registry, openRegistry fromSlice maxInFlight file = .ok registry := by
  obtain ⟨offset, hjournal⟩ := hreplayed.journal hfiled
  have hdistinct : replay.jobs.toList.Pairwise
      fun first second => first.2.idempotencyKey ≠ second.2.idempotencyKey := by
    refine List.Pairwise.imp_of_mem ?_ Std.ExtTreeMap.distinct_keys_toList
    rintro ⟨jobId, job⟩ ⟨other, twin⟩ hjob htwin hdifferent hsame
    rw [Std.ExtTreeMap.mem_toList_iff_getElem?_eq_some] at hjob htwin
    obtain rfl := hreplayed.distinct jobId other job twin hjob htwin hsame
    exact hdifferent Std.ReflCmp.compare_self
  obtain ⟨idempotency, hindex⟩ := foldlM_indexIdempotency_ok ∅ hdistinct (by simp)
  exact ⟨_, bind_eq_ok.mpr ⟨(), rejectIf_eq_ok.mpr hlimit,
    bind_eq_ok.mpr ⟨_, hjournal, bind_eq_ok.mpr ⟨idempotency, hindex, rfl⟩⟩⟩⟩

end Opening

-- What a restart makes of a job that it finds interrupted.
structure FailedClosed (job failed : RuntimeJobV1) : Prop where
  identity : sameJobIdentity job failed = true
  state : failed.state = .Failed
  code : failed.terminalResult.map RuntimeJobTerminalResultV1.code =
    some (if job.commitInProgress then "restart_interrupted_commit_ambiguous"
      else "restart_interrupted")

def FailNext (current next : RuntimeJobV1) : Prop :=
  CancelNext current next ∨ ∃ result, result.Shaped ∧ TransitionNext .Failed (some result) current next

section Closing

variable [Sha256] {fromSlice : RuntimeJobDecoder} {registry after : RegistryState}
  {R : RuntimeJobV1 → RuntimeJobV1 → Prop} {jobId : String} {jobIds : List String}
  {job current next : RuntimeJobV1}

omit [Sha256] in
theorem FailNext.recordable (hshaped : current.Shaped) (h : FailNext current next) :
    Recordable current next := by
  obtain h | ⟨result, hresult, h⟩ := h
  · exact h.recordable hshaped
  · refine h.recordable hshaped ?_
    rintro _ ⟨⟩
    exact hresult

omit [Sha256] in
theorem sameJobIdentity_refl (job : RuntimeJobV1) : sameJobIdentity job job = true :=
  sameJobIdentity_iff.mpr ⟨rfl, rfl, rfl, rfl, rfl, rfl, rfl⟩

omit [Sha256] in
theorem sameJobIdentity_trans {a b c : RuntimeJobV1} (hab : sameJobIdentity a b = true)
    (hbc : sameJobIdentity b c = true) : sameJobIdentity a c = true := by
  simp only [sameJobIdentity_iff] at hab hbc ⊢
  simp only [hab, hbc, and_self]

-- A job keeps its identity through the snapshots of a call.
theorem Leads.identity (hdecode : RuntimeJobReadsBack fromSlice) (h : Leads R jobId registry after)
    (hrebuilt : Rebuilt fromSlice registry)
    (hR : ∀ current next, current.Shaped → R current next → Recordable current next)
    (hjob : after.job? jobId = some job) :
    ∃ before, registry.job? jobId = some before ∧ sameJobIdentity before job = true := by
  induction h generalizing job with
  | refl => exact ⟨job, hjob, sameJobIdentity_refl job⟩
  | token _ ih =>
      rw [cancelToken_job] at hjob
      exact ih hjob
  | append h _ hcurrent hid hnext ih =>
      have hshaped := (h.rebuilt hdecode hrebuilt hR).shaped hcurrent
      rw [appended_job, if_pos hid, hcurrent, Option.map_some, Option.some.injEq] at hjob
      subst hjob
      obtain ⟨before, hbefore, hidentity⟩ := ih hcurrent
      exact ⟨before, hbefore, sameJobIdentity_trans hidentity (hR _ _ hshaped hnext).identity⟩
  | fail _ _ _ _ _ _ ih => exact ih hjob

-- One interrupted job: what the call appends, and what the job is when the call returns.
structure Closes (jobId : String) (registry : RegistryState) (o : Outcome RuntimeJobError Unit)
    (after : RegistryState) : Prop where
  leads : LeadsTo FailNext jobId registry o after
  failed : o = .returned () → ∀ job, registry.job? jobId = some job →
    ∃ failed, after.job? jobId = some failed ∧ failed.state = .Failed ∧
      failed.terminalResult.map RuntimeJobTerminalResultV1.code =
        some (if job.commitInProgress then "restart_interrupted_commit_ambiguous"
          else "restart_interrupted")

theorem transition_closes {reason : String} {flag : Bool} {clock : Clock}
    {result : RuntimeJobTerminalResultV1} (hjob : registry.job? jobId = some job)
    (hleads : Leads FailNext jobId registry after) (hkeyed : Keyed after)
    (hshaped : result.Shaped) (hcode : result.code =
      if job.commitInProgress then "restart_interrupted_commit_ambiguous" else "restart_interrupted") :
    Always (transition jobId .Failed reason flag (some result) clock) after
      (Closes jobId registry) := by
  refine (transition_leads jobId .Failed reason flag (some result) clock hkeyed).mono ?_
  rintro o last ⟨hmore, hdone⟩
  have hfail : LeadsTo FailNext jobId after o last :=
    hmore.mono fun _ _ hnext => .inr ⟨result, hshaped, hnext⟩
  refine ⟨hfail.trans hleads, fun ho other hother => ?_⟩
  obtain ⟨failed, hfailed, hstate, hresult⟩ := hdone ho
  refine ⟨failed, hfailed, hstate, ?_⟩
  rw [← Option.some.inj (hjob.symm.trans hother), hresult, ← hcode, Option.map_some]

theorem failClosed_closes {ticks : Nat → Clock} (hkeyed : Keyed registry) :
    Always (failClosed jobId ticks) registry (Closes jobId registry) := by
  refine snapshot_bind (fun _ => ⟨.refl, nofun⟩) fun job hjob => ?_
  refine .bind (.check (fun finishedAt _ => ?_) fun _ _ => ⟨.refl, nofun⟩)
  have hcommit := (observableJob_fields (ticks 0) job).2
  have hresult : ∀ result : RuntimeJobTerminalResultV1, result = (
      if (observableJob (ticks 0) job).commitInProgress then
        resultOf "restart_interrupted_commit_ambiguous"
          "restart found a durable commit reservation; external commit outcome was not inferred"
          finishedAt
      else resultOf "restart_interrupted"
        "process restart interrupted a non-terminal job; no commit was inferred" finishedAt) →
      result.Shaped ∧ result.code =
        if job.commitInProgress then "restart_interrupted_commit_ambiguous"
        else "restart_interrupted" := by
    rintro _ rfl
    rw [hcommit]
    cases job.commitInProgress with
    | false => exact ⟨resultOf_shaped (by decide), rfl⟩
    | true => exact ⟨resultOf_shaped (by decide), rfl⟩
  obtain ⟨hshaped, hcode⟩ := hresult _ rfl
  dsimp only
  split
  · refine .bind ((requestCancel_leads hkeyed).mono ?_)
    rintro (_ | error | _) after hleads
    · have hcancelled : Leads FailNext jobId registry after := Leads.mono hleads fun _ _ => .inl
      exact transition_closes hjob hcancelled (hcancelled.keyed hkeyed) hshaped hcode
    · exact ⟨(hleads.mono fun _ _ => .inl).outcome (by simp), nofun⟩
    · exact ⟨(hleads.mono fun _ _ => .inl).outcome (by simp), nofun⟩
  · exact transition_closes hjob .refl hkeyed hshaped hcode

-- What a restart leaves of the jobs and of the journal.
structure Restarts (fromSlice : RuntimeJobDecoder) (jobIds : List String) (registry : RegistryState)
    (o : Outcome RuntimeJobError Unit) (after : RegistryState) : Prop where
  rebuilt : o ≠ .crashed → Rebuilt fromSlice after
  kept : Kept fromSlice after.journal.file
  others : o = .returned () → ∀ jobId, jobId ∉ jobIds → after.job? jobId = registry.job? jobId
  failed : o = .returned () → ∀ jobId ∈ jobIds, ∀ job, registry.job? jobId = some job →
    ∃ failed, after.job? jobId = some failed ∧ FailedClosed job failed

theorem Rebuilt.keyed (h : Rebuilt fromSlice registry) : Keyed registry := by
  intro jobId job hjob
  obtain ⟨log, replay, tail, hrebuilds⟩ := h
  exact hrebuilds.replayed.keyed jobId job ((hrebuilds.matched.jobs jobId).trans hjob)

theorem failClosed_restarts {ticks : Nat → Clock} (hdecode : RuntimeJobReadsBack fromSlice)
    (h : Rebuilt fromSlice registry) :
    Always (failClosed jobId ticks) registry (Restarts fromSlice [jobId] registry) := by
  refine (failClosed_closes h.keyed).mono ?_
  rintro o after ⟨hleads, hdone⟩
  have hR : ∀ current next, RuntimeJobV1.Shaped current → FailNext current next → Recordable current next :=
    fun _ _ hshaped hnext => hnext.recordable hshaped
  obtain ⟨hrebuilt, hkept⟩ := hleads.rebuilt hdecode h hR
  refine ⟨hrebuilt, hkept, fun ho other hother => ?_, fun ho other hother job hjob => ?_⟩
  · have hreturned : Leads FailNext jobId registry after := hleads.leads (by rw [ho]; nofun)
    exact hreturned.elsewhere fun hsame => hother (by simp [hsame])
  · obtain rfl := List.mem_singleton.mp hother
    obtain ⟨failed, hfailed, hstate, hcode⟩ := hdone ho job hjob
    have hreturned : Leads FailNext other registry after := hleads.leads (by rw [ho]; nofun)
    obtain ⟨before, hbefore, hidentity⟩ := hreturned.identity hdecode h hR hfailed
    obtain rfl : job = before := Option.some.inj (hjob.symm.trans hbefore)
    exact ⟨failed, hfailed, hidentity, hstate, hcode⟩

-- Every job is failed once, from what it was when the journal was opened.
theorem failClosedAll_restarts {ticks : String → Nat → Clock} (hdecode : RuntimeJobReadsBack fromSlice)
    (h : Rebuilt fromSlice registry) (hnodup : jobIds.Nodup) :
    Always (failClosedAll ticks jobIds) registry (Restarts fromSlice jobIds registry) := by
  induction jobIds generalizing registry with
  | nil => exact .pure ⟨fun _ => h, h.kept, fun _ _ _ => rfl, fun _ _ hmem => nomatch hmem⟩
  | cons first jobIds ih =>
      obtain ⟨hfirst, hrest⟩ := List.nodup_cons.mp hnodup
      refine .bind ((failClosed_restarts hdecode h).mono ?_)
      rintro (_ | error | _) after hafter
      · refine (ih (hafter.rebuilt nofun) hrest).mono ?_
        intro o last hlast
        refine ⟨hlast.rebuilt, hlast.kept, fun ho jobId hjobId => ?_, fun ho jobId hjobId job hjob => ?_⟩
        · obtain ⟨hne, hmem⟩ := List.ne_and_not_mem_of_not_mem_cons hjobId
          rw [hlast.others ho jobId hmem, hafter.others rfl jobId (by simpa using hne)]
        · obtain rfl | hmem := List.mem_cons.mp hjobId
          · obtain ⟨failed, hfailed, hclosed⟩ := hafter.failed rfl jobId (by simp) job hjob
            exact ⟨failed, (hlast.others ho jobId hfirst).trans hfailed, hclosed⟩
          · have hother : jobId ≠ first := by
              rintro rfl
              exact hfirst hmem
            rw [← hafter.others rfl jobId (by simpa using hother)] at hjob
            exact hlast.failed ho jobId hmem job hjob
      · exact ⟨fun _ => hafter.rebuilt nofun, hafter.kept, nofun, nofun⟩
      · exact ⟨fun ho => absurd rfl ho, hafter.kept, nofun, nofun⟩

theorem dropAll_rebuilt {clock : String → Clock} (hdecode : RuntimeJobReadsBack fromSlice)
    (h : Rebuilt fromSlice registry) :
    Always (dropAll clock jobIds) registry fun o after =>
      (o ≠ .crashed → Rebuilt fromSlice after) ∧ Kept fromSlice after.journal.file := by
  induction jobIds generalizing registry with
  | nil => exact .pure ⟨fun _ => h, h.kept⟩
  | cons first jobIds ih =>
      refine .bind (.orElse ((requestCancel_leads h.keyed).mono ?_))
      intro o after hleads
      obtain ⟨hrebuilt, hkept⟩ :=
        hleads.rebuilt hdecode h fun _ _ hshaped hnext => hnext.recordable hshaped
      cases o with
      | returned => exact ih (hrebuilt nofun)
      | refused error => exact .pure (ih (hrebuilt nofun))
      | crashed => exact ⟨fun ho => absurd rfl ho, hkept⟩

theorem Rebuilt.close (h : Rebuilt fromSlice registry) : Rebuilt fromSlice registry.close := by
  obtain ⟨log, replay, tail, hreplayed, hmatched, hbytes, hcut, hkept⟩ := h
  exact ⟨log, replay, tail, hreplayed, ⟨hmatched.jobs, hmatched.sequence, hmatched.digest,
    hmatched.indexed⟩, hbytes, hcut, hkept⟩

omit [Sha256] in
theorem activeJobs_nodup (registry : RegistryState) : registry.activeJobs.Nodup := by
  refine List.Pairwise.map _ ?_ (Std.ExtTreeMap.distinct_keys_toList.sublist List.filter_sublist)
  rintro ⟨first, entry⟩ ⟨second, twin⟩ hdifferent rfl
  exact hdifferent Std.ReflCmp.compare_self

theorem failClosedInterruptedJobs_restarts {ticks : String → Nat → Clock}
    (hdecode : RuntimeJobReadsBack fromSlice) (h : Rebuilt fromSlice registry) :
    Always (failClosedInterruptedJobs ticks) registry
      (Restarts fromSlice registry.activeJobs registry) := by
  refine .bind (.get (.orElse ((failClosedAll_restarts hdecode h (activeJobs_nodup _)).mono ?_)))
  rintro (_ | error | _) after hafter
  · exact hafter
  · refine .bind (.get (.bind (.modify (.bind ?_))))
    refine (dropAll_rebuilt hdecode (hafter.rebuilt nofun).close).mono ?_
    rintro (_ | other | _) last ⟨hrebuilt, hkept⟩
    · exact .refuse ⟨fun _ => hrebuilt nofun, hkept, nofun, nofun⟩
    · exact ⟨fun _ => hrebuilt nofun, hkept, nofun, nofun⟩
    · exact ⟨fun ho => absurd rfl ho, hkept, nofun, nofun⟩
  · exact hafter

end Closing

section Calm

variable [Sha256] {fromSlice : RuntimeJobDecoder} {registry : RegistryState} {jobId : String}
  {jobIds : List String} {job : RuntimeJobV1} {ticks : Nat → Clock}

-- Without a fault, a legal snapshot is appended.

theorem appendThenReplace_calm (hsafe : registry.poisoned = false) (hjob : registry.job? jobId = some job)
    {next : RuntimeJobV1} (hid : next.jobId = jobId) :
    Ends (appendThenReplace next) [] registry (.returned ()) [] (registry.appended next) := by
  obtain ⟨after, hends, -⟩ := appendThenReplace_ends hsafe next
  have hleads := hends.always (appendThenReplace_leads (R := fun _ _ => True) next hjob hid trivial)
  obtain ⟨-, rfl⟩ := hleads.2.2 rfl
  exact hends

theorem transition_calm (hsafe : registry.poisoned = false) (hjob : registry.job? jobId = some job)
    (hid : job.jobId = jobId) {reason : String} {flag : Bool} {result : RuntimeJobTerminalResultV1}
    {clock : Clock} {now : Nat} (hclock : clock = .ok now)
    (hvalid : validTransition job.state .Failed = true) :
    Ends (transition jobId .Failed reason flag (some result) clock) [] registry (.returned ()) []
      (registry.appended (job.moved .Failed reason flag (some result) now)) := by
  subst hclock
  refine .bind (findJob_ends hjob) (.bind (.check_passed (by simp)) ?_)
  refine .bind (.check_passed (by simp [hvalid])) (.bind (.check_passed (by simp [RuntimeJobState.isTerminal])) ?_)
  exact .bind (.check rfl) (appendThenReplace_calm hsafe hjob hid)

theorem requestCancel_calm (hsafe : registry.poisoned = false) (hjob : registry.job? jobId = some job)
    (hid : job.jobId = jobId) (hrunning : job.state = .Running) (hfree : job.commitInProgress = false)
    {reason : String} {flag : Bool} {clock : Clock} {now : Nat} (hclock : clock = .ok now) :
    Ends (requestCancel jobId reason flag clock) [] registry (.returned ()) []
      ((registry.appended (job.cancelling reason flag now)).cancelToken jobId) := by
  subst hclock
  refine .bind (findJob_ends hjob) ?_
  rw [hrunning, if_neg (by decide)]
  refine .bind (.check_passed (by simp [hfree])) ?_
  rw [if_neg (by decide)]
  exact .bind (.check rfl) (.bind (appendThenReplace_calm hsafe hjob hid) .modify)

theorem failClosed_calm (hsafe : registry.poisoned = false) (hjob : registry.job? jobId = some job)
    (hid : job.jobId = jobId) (hactive : job.state.isTerminal = false)
    (hclock : ∀ place, ∃ now, ticks place = .ok now) :
    Calm (failClosed jobId ticks) registry fun o after =>
      o = .returned () ∧ after.poisoned = false := by
  obtain ⟨finishedAt, hfinished⟩ := hclock 1
  obtain ⟨cancelledAt, hcancelled⟩ := hclock 2
  obtain ⟨failedAt, hfailed⟩ := hclock 3
  obtain ⟨hstate, hcommit⟩ := observableJob_fields (ticks 0) job
  have hsnapshot : Ends (snapshot jobId (ticks 0)) [] registry
      (.returned (observableJob (ticks 0) job)) [] registry := .bind (findJob_ends hjob) .pure
  have hread : nowUnixMs (ticks 1) = .ok finishedAt := by
    rw [hfinished]
    rfl
  refine .bind (.ends hsnapshot (.bind (.ends (.check hread) ?_)))
  dsimp only
  rw [hstate, hcommit]
  split
  · rename_i hrunning
    have hfree : job.commitInProgress = false := by simpa using hrunning.2
    have hkept : ∀ reason flag,
        ((registry.appended (job.cancelling reason flag cancelledAt)).cancelToken jobId).poisoned =
          false := fun _ _ => hsafe
    have hknown : ∀ reason flag,
        ((registry.appended (job.cancelling reason flag cancelledAt)).cancelToken jobId).job? jobId =
          some (job.cancelling reason flag cancelledAt) := by
      intro reason flag
      rw [cancelToken_job]
      exact appended_known hjob hid
    refine .bind (.ends (requestCancel_calm hsafe hjob hid hrunning.1 hfree hcancelled) ?_)
    exact .ends (transition_calm (hkept _ _) (hknown _ _) hid hfailed rfl) ⟨rfl, hsafe⟩
  · refine .ends (transition_calm hsafe hjob hid hfailed ?_) ⟨rfl, hsafe⟩
    cases hkind : job.state <;> rw [hkind] at hactive <;> first | rfl | cases hactive

-- Without a fault, and with a clock that can be read, every interrupted job is failed.
theorem failClosedAll_calm {ticks : String → Nat → Clock} (hdecode : RuntimeJobReadsBack fromSlice)
    (h : Rebuilt fromSlice registry) (hsafe : registry.poisoned = false) (hnodup : jobIds.Nodup)
    (hactive : ∀ jobId ∈ jobIds, ∃ job, registry.job? jobId = some job ∧ job.state.isTerminal = false)
    (hclock : ∀ jobId place, ∃ now, ticks jobId place = .ok now) :
    ∃ after, Ends (failClosedAll ticks jobIds) [] registry (.returned ()) [] after := by
  induction jobIds generalizing registry with
  | nil => exact ⟨registry, .pure⟩
  | cons first jobIds ih =>
      obtain ⟨hfirst, hrest⟩ := List.nodup_cons.mp hnodup
      obtain ⟨job, hjob, hopen⟩ := hactive first List.mem_cons_self
      obtain ⟨_, after, hends, rfl, hafter⟩ :=
        failClosed_calm hsafe hjob (h.keyed _ _ hjob) hopen (hclock first)
      have hrestarts := hends.always (failClosed_restarts hdecode h)
      have hkept : ∀ jobId ∈ jobIds, after.job? jobId = registry.job? jobId := by
        intro jobId hmem
        refine hrestarts.others rfl jobId ?_
        rw [List.mem_singleton]
        rintro rfl
        exact hfirst hmem
      obtain ⟨last, hlast⟩ := ih (hrestarts.rebuilt nofun) hafter hrest fun jobId hmem => by
        rw [hkept jobId hmem]
        exact hactive jobId (List.mem_cons_of_mem _ hmem)
      exact ⟨last, .bind hends hlast⟩

end Calm

end M1nd.Mcp
