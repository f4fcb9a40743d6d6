import M1nd.Mcp.RuntimeJobs.Snapshots

namespace M1nd.Mcp

open M1nd.Control
open M1nd.Library
open M1nd.Library.Checks
open M1nd.Library.Durable
open M1nd.Library.Framing
open M1nd.Library.Json (Bytes)
open ChainedJournal (lineEnd)

section Shapes

variable {ν : Type} {job first current next : RuntimeJobV1} {request : RuntimeJobRequestV1}
  {target : RuntimeJobState} {result : Option RuntimeJobTerminalResultV1}
  {prepared : Except RuntimeJobFailure ν} {outcome : CommitOutcome} {now : Nat}

-- The code of a terminal result that replay accepts.
def ValidCode (code : String) : Prop :=
  validateIdentifier "terminal.code" code = .ok ()

instance (code : String) : Decidable (ValidCode code) :=
  inferInstanceAs (Decidable (_ = _))

structure RuntimeJobTerminalResultV1.Shaped (result : RuntimeJobTerminalResultV1) : Prop where
  schema : result.schema = RUNTIME_JOB_TERMINAL_RESULT_SCHEMA
  code : ValidCode result.code

structure RuntimeJobV1.Shaped (job : RuntimeJobV1) : Prop where
  schema : job.schema = RUNTIME_JOB_SCHEMA
  jobId : validateIdentifier "job_id" job.jobId = .ok ()
  idempotencyKey : validateIdentifier "idempotency_key" job.idempotencyKey = .ok ()
  binding : validateJobBinding job.binding = .ok ()
  ended : job.state.isTerminal = job.terminalResult.isSome
  reserved : job.commitInProgress = true → job.state = .Running
  result : ∀ result, job.terminalResult = some result → result.Shaped

theorem validateJobShape_eq_ok : validateJobShape job = .ok () ↔ job.Shaped := by
  simp only [validateJobShape, bind_eq_ok, exists_unit, rejectIf_eq_ok]
  constructor
  · rintro ⟨hschema, hid, hkey, hbinding, hended, hreserved, hterminal⟩
    refine ⟨not_not.mp hschema, hid, hkey, hbinding, by simpa using hended, fun hcommit => ?_, ?_⟩
    · by_contra hrunning
      exact hreserved ⟨hcommit, hrunning⟩
    · intro result hresult
      simp only [hresult, bind_eq_ok, exists_unit, rejectIf_eq_ok, not_not] at hterminal
      exact ⟨hterminal.1, hterminal.2⟩
  · intro h
    refine ⟨not_not.mpr h.schema, h.jobId, h.idempotencyKey, h.binding, not_not.mpr h.ended,
      fun hcommit => hcommit.2 (h.reserved hcommit.1), ?_⟩
    cases hresult : job.terminalResult with
    | none => rfl
    | some result =>
        simp only [bind_eq_ok, exists_unit, rejectIf_eq_ok, not_not]
        exact ⟨(h.result result hresult).schema, (h.result result hresult).code⟩

theorem resultOf_shaped {code message : String} (h : ValidCode code) :
    (resultOf code message now).Shaped :=
  ⟨rfl, h⟩

-- A snapshot that replay accepts after the one before it.
structure Recordable (current next : RuntimeJobV1) : Prop where
  shaped : next.Shaped
  revision : next.revision = saturatingSucc current.revision
  identity : sameJobIdentity current next = true
  legal : validSnapshotTransition current next = true
  overdue : current.runningAfterTimeout = true → next.runningAfterTimeout = true

theorem sameJobIdentity_iff : sameJobIdentity current next = true ↔
    current.schema = next.schema ∧ current.jobId = next.jobId ∧
      current.idempotencyKey = next.idempotencyKey ∧ current.binding = next.binding ∧
      current.snapshotRevision = next.snapshotRevision ∧
      current.deadlineUnixMs = next.deadlineUnixMs ∧
      current.registeredAtUnixMs = next.registeredAtUnixMs := by
  simp only [sameJobIdentity, Bool.and_eq_true, decide_eq_true_eq, and_assoc]

-- The checks on the parts that a snapshot takes over from the one before it.
theorem RuntimeJobV1.Shaped.follow (h : current.Shaped) (hid : sameJobIdentity current next = true)
    (hended : next.state.isTerminal = next.terminalResult.isSome)
    (hreserved : next.commitInProgress = true → next.state = .Running)
    (hresult : ∀ result, next.terminalResult = some result → result.Shaped) : next.Shaped := by
  obtain ⟨hschema, hjob, hkey, hbinding, -⟩ := sameJobIdentity_iff.mp hid
  refine ⟨hschema ▸ h.schema, hjob ▸ h.jobId, hkey ▸ h.idempotencyKey, hbinding ▸ h.binding, hended,
    hreserved, hresult⟩

theorem CancelNext.recordable (hshaped : current.Shaped) (h : CancelNext current next) :
    Recordable current next := by
  obtain ⟨hactive, hfree, reason, flag, now, hagain, rfl⟩ := h
  have hended := hshaped.ended
  rw [hactive] at hended
  have hid : sameJobIdentity current (current.cancelling reason flag now) = true := by
    simp [sameJobIdentity, RuntimeJobV1.cancelling]
  refine ⟨hshaped.follow hid hended (fun hcommit => ?_) hshaped.result, rfl, hid, ?_, fun hoverdue => ?_⟩
  · rw [show (current.cancelling reason flag now).commitInProgress = false from hfree] at hcommit
    cases hcommit
  · cases hstate : current.state <;> rw [hstate] at hactive hagain <;>
      simp_all [validSnapshotTransition, validTransition, RuntimeJobV1.cancelling,
        RuntimeJobState.isTerminal]
  · simp [RuntimeJobV1.cancelling, hoverdue]

theorem TransitionNext.recordable (hshaped : current.Shaped)
    (hresult : ∀ terminal, result = some terminal → terminal.Shaped)
    (h : TransitionNext target result current next) : Recordable current next := by
  obtain ⟨hcommit, hvalid, hended, reason, flag, now, rfl⟩ := h
  have hid : sameJobIdentity current (current.moved target reason flag result now) = true := by
    simp [sameJobIdentity, RuntimeJobV1.moved]
  -- A reserved commit leaves only the ends of a running job.
  have hreserved : current.commitInProgress = true → target = .Succeeded ∨ target = .Failed := by
    intro hreserved
    rw [hshaped.reserved hreserved] at hvalid
    cases target <;> simp_all [validTransition]
  have hfree : (current.moved target reason flag result now).commitInProgress = false := by
    cases hflag : current.commitInProgress with
    | false => simp [RuntimeJobV1.moved, hflag]
    | true =>
        obtain rfl | rfl := hreserved hflag
        · simp [RuntimeJobV1.moved, RuntimeJobState.isTerminal]
        · simp [RuntimeJobV1.moved, RuntimeJobState.isTerminal]
  refine ⟨hshaped.follow hid hended (fun hcommit => ?_) hresult, rfl, hid, ?_, fun hoverdue => ?_⟩
  · rw [hfree] at hcommit
    cases hcommit
  · unfold validSnapshotTransition
    rw [hfree]
    cases hflag : current.commitInProgress with
    | false => simp [RuntimeJobV1.moved, hvalid]
    | true =>
        obtain rfl | rfl := hreserved hflag
        · simp [RuntimeJobV1.moved, hshaped.reserved hflag]
        · simp [RuntimeJobV1.moved, hshaped.reserved hflag]
  · simp [RuntimeJobV1.moved, hoverdue]

-- A prepared result that is dropped ends a job that is being cancelled.
theorem discarded_recordable (hshaped : current.Shaped) (hstate : current.state = .Cancelling)
    (timedOut : Bool) : Recordable current (current.discarded timedOut now) := by
  have hid : sameJobIdentity current (current.discarded timedOut now) = true := by
    simp [sameJobIdentity, RuntimeJobV1.discarded]
  have hfree : current.commitInProgress = false := by
    by_contra hcommit
    rw [Bool.not_eq_false] at hcommit
    rw [hshaped.reserved hcommit] at hstate
    cases hstate
  refine ⟨hshaped.follow hid rfl nofun ?_, rfl, hid, ?_, id⟩
  · rintro _ ⟨⟩
    refine resultOf_shaped ?_
    cases timedOut <;> decide
  · simp [validSnapshotTransition, RuntimeJobV1.discarded, hfree, hstate, validTransition]

theorem FinishNext.recordable (hfirst : first.Shaped) (hshaped : current.Shaped)
    (hfree : first.commitInProgress = false) (hstarted : first.state ≠ .Pending)
    (hactive : first.state.isTerminal = true → now < first.deadlineUnixMs)
    (hcode : ∀ failure, prepared = .error failure → first.state = .Running →
      now < first.deadlineUnixMs → ValidCode failure.code)
    (h : FinishNext first prepared now current next) : Recordable current next := by
  obtain ⟨hlate, ⟨rfl, hrunning, reason, rfl⟩ | ⟨hkind, rfl⟩⟩ |
    ⟨hrunning, hintime, rfl, ⟨failure, rfl, rfl⟩ | rfl⟩ := h
  · refine CancelNext.recordable hfirst ⟨?_, hfree, reason, _, now, fun hcancelling => ?_, rfl⟩
    · rw [hrunning]
      rfl
    · rw [hrunning] at hcancelling
      cases hcancelling
  · refine discarded_recordable hshaped ?_ _
    obtain ⟨rfl, hother⟩ | ⟨hcancelling, -⟩ := hkind
    · obtain hcancelling | hlate := hlate
      · exact hcancelling
      · cases hstate : current.state <;> simp_all [RuntimeJobState.isTerminal] <;> omega
    · exact hcancelling
  · have hid : sameJobIdentity current (current.preparationFailed failure now) = true := by
      simp [sameJobIdentity, RuntimeJobV1.preparationFailed]
    refine ⟨hshaped.follow hid rfl (by rintro ⟨⟩) ?_, rfl, hid, ?_, id⟩
    · rintro _ ⟨⟩
      exact resultOf_shaped (hcode failure rfl hrunning hintime)
    · simp [validSnapshotTransition, RuntimeJobV1.preparationFailed, hfree, hrunning, validTransition]
  · have hid : sameJobIdentity current (current.commitReserved now) = true := by
      simp [sameJobIdentity, RuntimeJobV1.commitReserved]
    refine ⟨hshaped.follow hid hshaped.ended (fun _ => hrunning) hshaped.result, rfl, hid, ?_, id⟩
    simp [validSnapshotTransition, RuntimeJobV1.commitReserved, hfree, hrunning]

theorem CommitNext.recordable (hshaped : current.Shaped) (hcode : ValidCode (outcome.result now).code)
    (h : CommitNext outcome now current next) : Recordable current next := by
  obtain ⟨hrunning, hcommit, rfl⟩ := h
  have hid : sameJobIdentity current (current.committed outcome now) = true := by
    simp [sameJobIdentity, RuntimeJobV1.committed]
  have hended : outcome.state.isTerminal = true := by
    cases outcome <;> rfl
  have hresult : (outcome.result now).Shaped := ⟨by cases outcome <;> rfl, hcode⟩
  refine ⟨hshaped.follow hid hended (by rintro ⟨⟩) ?_, rfl, hid, ?_, fun hoverdue => ?_⟩
  · rintro _ ⟨⟩
    exact hresult
  · cases outcome <;> simp [validSnapshotTransition, RuntimeJobV1.committed, hrunning, hcommit,
      CommitOutcome.state]
  · simp [RuntimeJobV1.committed, hoverdue]

-- The first snapshot of a request that is valid.
theorem pending_shaped (h : validateJobRequest request = .ok ()) : (request.pending now).Shaped := by
  simp only [validateJobRequest, bind_eq_ok, exists_unit] at h
  obtain ⟨hid, hkey, hbinding, -⟩ := h
  exact ⟨rfl, hid, hkey, hbinding, rfl, by rintro ⟨⟩, by rintro _ ⟨⟩⟩

end Shapes

section Logs

variable [Sha256] {fromSlice : RuntimeJobDecoder} {log : List RuntimeJobJournalRecordV1}
  {replay : JobReplay} {next : RuntimeJobV1}

-- What replay knows once it has accepted the records of a journal.
structure Replayed (fromSlice : RuntimeJobDecoder) (log : List RuntimeJobJournalRecordV1)
    (replay : JobReplay) : Prop where
  accepted : Runs.replay (JobReplay.readLine fromSlice) JobReplay.fresh
    (log.map RuntimeJobJournalRecordV1.toVec) = .ok replay
  keyed : ∀ (jobId : String) job, replay.jobs[jobId]? = some job → job.jobId = jobId
  shaped : ∀ (jobId : String) job, replay.jobs[jobId]? = some job → job.Shaped
  distinct : ∀ (jobId other : String) job twin, replay.jobs[jobId]? = some job →
    replay.jobs[other]? = some twin → job.idempotencyKey = twin.idempotencyKey → jobId = other

-- The snapshot goes on from what was replayed: it is the next one of its job, or the first.
def Admits (replay : JobReplay) (next : RuntimeJobV1) : Prop :=
  (∃ current, replay.jobs[next.jobId]? = some current ∧ Recordable current next) ∨
    (replay.jobs[next.jobId]? = none ∧ next.Shaped ∧ next.revision = 0 ∧ next.state = .Pending ∧
      next.commitInProgress = false ∧ ∀ (jobId : String) job, replay.jobs[jobId]? = some job →
        job.idempotencyKey ≠ next.idempotencyKey)

theorem Replayed.nil : Replayed fromSlice [] JobReplay.fresh :=
  ⟨rfl, by simp [JobReplay.fresh], by simp [JobReplay.fresh], by simp [JobReplay.fresh]⟩

omit [Sha256] in
theorem Admits.shaped (h : Admits replay next) : next.Shaped := by
  obtain ⟨current, -, hnext⟩ | ⟨-, hshaped, -⟩ := h
  · exact hnext.shaped
  · exact hshaped

omit [Sha256] in
theorem Admits.applied (h : Admits replay next) (offset : Nat) :
    applyReplayedJob replay.jobs next offset = .ok (replay.jobs.insert next.jobId next) := by
  unfold applyReplayedJob
  obtain ⟨current, hcurrent, hnext⟩ | ⟨hnone, -, hrevision, hpending, hfree, -⟩ := h
  · simp only [hcurrent, bind_eq_ok, exists_unit, rejectIf_eq_ok]
    refine ⟨not_not.mpr hnext.revision, ?_, ?_, ?_, rfl⟩
    · rw [hnext.identity]
      simp
    · rw [hnext.legal]
      simp
    · rintro ⟨hoverdue, hregressed⟩
      rw [hnext.overdue hoverdue] at hregressed
      cases hregressed
  · simp only [hnone, bind_eq_ok, exists_unit, rejectIf_eq_ok]
    refine ⟨?_, rfl⟩
    rw [hrevision, hpending, hfree]
    simp

theorem readLine_new (hdecode : RuntimeJobReadsBack fromSlice) (h : Admits replay next) :
    ∃ offset, replay.readLine fromSlice
        (RuntimeJobJournalRecordV1.new replay.expectedSequence replay.previousDigest next).toVec =
      .ok {
        jobs := replay.jobs.insert next.jobId next
        expectedSequence := saturatingSucc replay.expectedSequence
        previousDigest := some (RuntimeJobJournalRecordV1.new replay.expectedSequence
          replay.previousDigest next).recordDigest
        offset } := by
  refine ⟨min (replay.offset + ((RuntimeJobJournalRecordV1.new replay.expectedSequence
    replay.previousDigest next).toVec.length + 1)) (2 ^ 64 - 1), ?_⟩
  rw [JobReplay.readLine, if_neg (toVec_ne_nil _), hdecode]
  simp only [Option.elim_some, bind_eq_ok, exists_unit, rejectIf_eq_ok]
  exact ⟨_, rfl, not_not.mpr rfl, not_not.mpr rfl, not_not.mpr rfl, not_not.mpr rfl,
    validateJobShape_eq_ok.mpr h.shaped, _, h.applied _, rfl⟩

-- One more record keeps what replay knows.
theorem Replayed.concat (hdecode : RuntimeJobReadsBack fromSlice) (h : Replayed fromSlice log replay)
    (hnext : Admits replay next) :
    ∃ offset, Replayed fromSlice
      (log ++ [.new replay.expectedSequence replay.previousDigest next]) {
        jobs := replay.jobs.insert next.jobId next
        expectedSequence := saturatingSucc replay.expectedSequence
        previousDigest := some (RuntimeJobJournalRecordV1.new replay.expectedSequence
          replay.previousDigest next).recordDigest
        offset } := by
  obtain ⟨offset, hread⟩ := readLine_new hdecode hnext
  have hinsert : ∀ (jobId : String) job, (replay.jobs.insert next.jobId next)[jobId]? = some job →
      (jobId = next.jobId ∧ job = next) ∨ (jobId ≠ next.jobId ∧ replay.jobs[jobId]? = some job) := by
    intro jobId job hjob
    rw [Std.ExtTreeMap.getElem?_insert] at hjob
    split at hjob
    · rename_i hsame
      exact .inl ⟨(Std.LawfulEqCmp.eq_of_compare hsame).symm, (Option.some.inj hjob).symm⟩
    · rename_i hother
      refine .inr ⟨fun hsame => hother ?_, hjob⟩
      rw [hsame]
      exact Std.ReflCmp.compare_self
  -- No other job has the key of the next snapshot.
  have hkey : ∀ (jobId : String) job, replay.jobs[jobId]? = some job → jobId ≠ next.jobId →
      job.idempotencyKey ≠ next.idempotencyKey := by
    intro jobId job hjob hother hsame
    obtain ⟨current, hcurrent, hrecordable⟩ | ⟨-, -, -, -, -, hnew⟩ := hnext
    · have hidentity := (sameJobIdentity_iff.mp hrecordable.identity).2.2.1
      exact hother (h.distinct jobId next.jobId job current hjob hcurrent (hsame.trans hidentity.symm))
    · exact hnew jobId job hjob hsame
  refine ⟨offset, ?_, fun jobId job hjob => ?_, fun jobId job hjob => ?_,
    fun jobId other job twin hjob htwin hsame => ?_⟩
  · rw [List.map_append, List.map_singleton, Runs.replay_concat_eq_ok]
    exact ⟨replay, h.accepted, hread⟩
  · obtain ⟨rfl, rfl⟩ | ⟨-, hjob⟩ := hinsert jobId job hjob
    · rfl
    · exact h.keyed jobId job hjob
  · obtain ⟨-, rfl⟩ | ⟨-, hjob⟩ := hinsert jobId job hjob
    · exact hnext.shaped
    · exact h.shaped jobId job hjob
  · obtain ⟨rfl, rfl⟩ | ⟨hneJob, hold⟩ := hinsert jobId job hjob
    · obtain ⟨rfl, -⟩ | ⟨hneTwin, htold⟩ := hinsert other twin htwin
      · rfl
      · exact absurd hsame.symm (hkey other twin htold hneTwin)
    · obtain ⟨rfl, rfl⟩ | ⟨-, htold⟩ := hinsert other twin htwin
      · exact absurd hsame (hkey jobId job hold hneJob)
      · exact h.distinct jobId other job twin hold htold hsame

-- What replay accepts is well formed, whoever wrote it.

theorem readLine_shaped {line : Bytes} {last : JobReplay}
    (h : replay.readLine fromSlice line = .ok last)
    (hshaped : ∀ (jobId : String) job, replay.jobs[jobId]? = some job → job.Shaped) :
    ∀ (jobId : String) job, last.jobs[jobId]? = some job → job.Shaped := by
  unfold JobReplay.readLine at h
  split at h
  · obtain rfl := Except.ok.inj h
    exact hshaped
  · obtain ⟨record, -, h⟩ := bind_eq_ok.mp h
    simp only [bind_eq_ok, exists_unit, pure_eq_ok] at h
    obtain ⟨-, -, -, -, hrecord, jobs, hjobs, rfl⟩ := h
    obtain rfl := applyReplayedJob_eq_ok hjobs
    intro jobId job hjob
    rw [Std.ExtTreeMap.getElem?_insert] at hjob
    split at hjob
    · rw [← Option.some.inj hjob]
      exact validateJobShape_eq_ok.mp hrecord
    · exact hshaped jobId job hjob

theorem replayJobJournal_shaped {file : Bytes} (h : replayJobJournal fromSlice file = .ok replay)
    {jobId : String} {job : RuntimeJobV1} (hjob : replay.jobs[jobId]? = some job) : job.Shaped := by
  have hfresh : ∀ (jobId : String) job, JobReplay.fresh.jobs[jobId]? = some job → job.Shaped := by
    simp [JobReplay.fresh]
  unfold replayJobJournal at h
  split at h
  · obtain rfl := Except.ok.inj h
    exact hfresh jobId job hjob
  · split at h
    · cases h
    · refine Runs.replay_invariant
        (fun _ replay => ∀ (jobId : String) job, replay.jobs[jobId]? = some job → job.Shaped) hfresh ?_
        h jobId job hjob
      exact fun _ _ _ _ hshaped hread => readLine_shaped hread hshaped

end Logs

end M1nd.Mcp

namespace M1nd.Mcp

open M1nd.Control
open M1nd.Library
open M1nd.Library.Checks
open M1nd.Library.Durable
open M1nd.Library.Framing
open M1nd.Library.Json (Bytes)
open ChainedJournal (lineEnd)

section Registry

variable [Sha256] {fromSlice : RuntimeJobDecoder} {file tail : Bytes}
  {log : List RuntimeJobJournalRecordV1} {replay : JobReplay} {registry after : RegistryState}
  {R : RuntimeJobV1 → RuntimeJobV1 → Prop} {jobId : String} {current next : RuntimeJobV1}

-- The handle knows what replay knows.
structure Matches (replay : JobReplay) (registry : RegistryState) : Prop where
  jobs : ∀ jobId : String, replay.jobs[jobId]? = registry.job? jobId
  sequence : replay.expectedSequence = registry.journal.nextSequence
  digest : replay.previousDigest = registry.journal.lastDigest
  indexed : ∀ jobId job, registry.job? jobId = some job → job.idempotencyKey ∈ registry.idempotency

-- A journal that replay accepts, but for a line that was cut.
def Kept (fromSlice : RuntimeJobDecoder) (file : Bytes) : Prop :=
  ∃ log replay tail, Filed file log tail ∧ Replayed fromSlice log replay

-- The whole lines of the journal rebuild what the handle knows. What follows them was left by
-- the append that failed.
structure Rebuilds (fromSlice : RuntimeJobDecoder) (registry : RegistryState)
    (log : List RuntimeJobJournalRecordV1) (replay : JobReplay) (tail : Bytes) : Prop where
  replayed : Replayed fromSlice log replay
  matched : Matches replay registry
  bytes : ∃ whole, registry.journal.file = whole ++ tail ∧ Filed whole log []
  cut : registry.poisoned = false → tail = []
  kept : Kept fromSlice registry.journal.file

def Rebuilt (fromSlice : RuntimeJobDecoder) (registry : RegistryState) : Prop :=
  ∃ log replay tail, Rebuilds fromSlice registry log replay tail

-- The bytes that replay reads.
theorem Replayed.journal (h : Replayed fromSlice log replay) (hfile : Filed file log []) :
    ∃ offset, replayJobJournal fromSlice file = .ok { replay with offset } := by
  unfold replayJobJournal
  split
  · rename_i hempty
    have hsplit := hfile.splitOn
    rw [hempty] at hsplit
    cases log with
    | nil =>
        obtain rfl : JobReplay.fresh = replay := Except.ok.inj h.accepted
        exact ⟨0, rfl⟩
    | cons record log => simp at hsplit
  · rename_i hsome
    have hends : file.getLast? = some lineEnd := by
      have hbytes := hfile.bytes
      cases log using List.reverseRecOn with
      | nil => exact absurd hbytes hsome
      | append_singleton log record =>
          rw [hbytes, List.map_append, List.map_singleton, frames_concat]
          simp
    rw [if_neg (not_not.mpr hends)]
    refine ⟨saturatingSucc replay.offset, ?_⟩
    rw [hfile.splitOn, Runs.replay_concat_eq_ok]
    exact ⟨replay, h.accepted, rfl⟩

theorem Rebuilds.filed (h : Rebuilds fromSlice registry log replay tail)
    (hsafe : registry.poisoned = false) : Filed registry.journal.file log [] := by
  obtain ⟨whole, hfile, hfiled⟩ := h.bytes
  rw [hfile, h.cut hsafe, List.append_nil]
  exact hfiled

-- The snapshots that a handle appends are the ones that replay admits.
omit [Sha256] in
theorem Matches.admits (h : Matches replay registry) (hjob : registry.job? next.jobId = some current)
    (hnext : Recordable current next) : Admits replay next :=
  .inl ⟨current, (h.jobs _).trans hjob, hnext⟩

omit [Sha256] in
theorem Matches.admits_pending (h : Matches replay registry) {request : RuntimeJobRequestV1} (now : Nat)
    (hvalid : validateJobRequest request = .ok ()) (hnew : request.jobId ∉ registry.jobs)
    (hkey : request.idempotencyKey ∉ registry.idempotency) : Admits replay (request.pending now) := by
  refine .inr ⟨?_, pending_shaped hvalid, rfl, rfl, rfl, fun jobId job hjob hsame => hkey ?_⟩
  · rw [h.jobs, RegistryState.job?]
    exact Option.map_eq_none_iff.mpr (Std.ExtTreeMap.getElem?_eq_none hnew)
  · rw [h.jobs] at hjob
    have hindexed := h.indexed jobId job hjob
    rwa [hsame] at hindexed

-- The record that the handle appends is the one that replay asks for.
theorem Rebuilds.concat (hdecode : RuntimeJobReadsBack fromSlice)
    (h : Rebuilds fromSlice registry log replay tail) (hnext : Admits replay next) :
    ∃ offset, Replayed fromSlice (log ++ [registry.nextRecord next])
      ⟨replay.jobs.insert next.jobId next, saturatingSucc registry.journal.nextSequence,
        some (registry.nextRecord next).recordDigest, offset⟩ := by
  have hlast := h.replayed.concat hdecode hnext
  rw [h.matched.sequence, h.matched.digest] at hlast
  exact hlast

-- What was left by an append that failed: a part of a line, or a record that the handle does
-- not know of.
theorem Rebuilds.torn (hdecode : RuntimeJobReadsBack fromSlice)
    (h : Rebuilds fromSlice registry log replay tail) (hsafe : registry.poisoned = false)
    (hnext : Admits replay next) (reached : Nat) :
    Rebuilt fromSlice (registry.torn next reached).poison ∧
      Kept fromSlice (registry.torn next reached).journal.file := by
  have hfiled := h.filed hsafe
  have hkept : Kept fromSlice (registry.torn next reached).journal.file := by
    obtain hwhole | hcut := hfiled.append (registry.nextRecord next) reached
    · obtain ⟨offset, hlast⟩ := h.concat hdecode hnext
      exact ⟨_, _, [], hwhole, hlast⟩
    · exact ⟨log, replay, _, hcut, h.replayed⟩
  refine ⟨⟨log, replay, _, h.replayed, ?_, ⟨_, rfl, hfiled⟩, nofun, hkept⟩, hkept⟩
  exact ⟨h.matched.jobs, h.matched.sequence, h.matched.digest, h.matched.indexed⟩

theorem rebuilt_of_filed (hreplayed : Replayed fromSlice log replay) (hmatched : Matches replay registry)
    (hfiled : Filed registry.journal.file log []) : Rebuilt fromSlice registry :=
  ⟨log, replay, [], hreplayed, hmatched, ⟨_, (List.append_nil _).symm, hfiled⟩, fun _ => rfl,
    log, replay, [], hfiled, hreplayed⟩

theorem Rebuilds.appended (hdecode : RuntimeJobReadsBack fromSlice)
    (h : Rebuilds fromSlice registry log replay tail) (hsafe : registry.poisoned = false)
    (hjob : registry.job? next.jobId = some current) (hnext : Recordable current next) :
    Rebuilt fromSlice (registry.appended next) := by
  obtain ⟨offset, hlast⟩ := h.concat hdecode (h.matched.admits hjob hnext)
  have hfiled : Filed (registry.appended next).journal.file (log ++ [registry.nextRecord next]) [] :=
    (h.filed hsafe).concat
  refine rebuilt_of_filed hlast ⟨fun jobId => ?_, rfl, rfl, fun jobId job hfound => ?_⟩ hfiled
  · rw [appended_job, Std.ExtTreeMap.getElem?_insert]
    by_cases hid : next.jobId = jobId
    · subst hid
      simp [hjob]
    · simp [hid, h.matched.jobs]
  · rw [appended_job] at hfound
    split at hfound
    · rename_i hid
      obtain ⟨_, -, rfl⟩ := Option.map_eq_some_iff.mp hfound
      rw [← (sameJobIdentity_iff.mp hnext.identity).2.2.1]
      exact h.matched.indexed _ current hjob
    · exact h.matched.indexed jobId job hfound

theorem Rebuilds.registered (hdecode : RuntimeJobReadsBack fromSlice)
    (h : Rebuilds fromSlice registry log replay tail) (hsafe : registry.poisoned = false)
    (hnext : Admits replay next) :
    Rebuilt fromSlice (registry.registered next) := by
  obtain ⟨offset, hlast⟩ := h.concat hdecode hnext
  have hfiled : Filed (registry.registered next).journal.file (log ++ [registry.nextRecord next]) [] :=
    (h.filed hsafe).concat
  refine rebuilt_of_filed hlast ⟨fun jobId => ?_, rfl, rfl, fun jobId job hfound => ?_⟩ hfiled
  · rw [registered_job, Std.ExtTreeMap.getElem?_insert]
    by_cases hid : next.jobId = jobId
    · simp [hid]
    · simp [hid, h.matched.jobs]
  · change job.idempotencyKey ∈ registry.idempotency.insert next.idempotencyKey next.jobId
    rw [registered_job] at hfound
    rw [Std.ExtTreeMap.mem_insert]
    split at hfound
    · obtain rfl := Option.some.inj hfound
      exact .inl Std.ReflCmp.compare_self
    · exact .inr (h.matched.indexed jobId job hfound)

-- The jobs that the handle knows have passed the checks of replay.
theorem Rebuilt.shaped (h : Rebuilt fromSlice registry) (hjob : registry.job? jobId = some current) :
    current.Shaped := by
  obtain ⟨log, replay, tail, hrebuilds⟩ := h
  exact hrebuilds.replayed.shaped jobId current ((hrebuilds.matched.jobs jobId).trans hjob)

theorem Rebuilt.kept (h : Rebuilt fromSlice registry) : Kept fromSlice registry.journal.file := by
  obtain ⟨log, replay, tail, hrebuilds⟩ := h
  exact hrebuilds.kept

theorem Rebuilt.cancelToken (h : Rebuilt fromSlice registry) :
    Rebuilt fromSlice (registry.cancelToken jobId) := by
  obtain ⟨log, replay, tail, hreplayed, hmatched, hbytes, hcut, hkept⟩ := h
  refine ⟨log, replay, tail, hreplayed, ?_, hbytes, hcut, hkept⟩
  refine ⟨fun other => ?_, hmatched.sequence, hmatched.digest, fun other job hjob => ?_⟩
  · rw [cancelToken_job, hmatched.jobs]
  · rw [cancelToken_job] at hjob
    exact hmatched.indexed other job hjob

-- A call that appends only snapshots which replay accepts keeps the journal in step.
theorem Leads.rebuilt (hdecode : RuntimeJobReadsBack fromSlice) (h : Leads R jobId registry after)
    (hrebuilt : Rebuilt fromSlice registry)
    (hR : ∀ current next, current.Shaped → R current next → Recordable current next) :
    Rebuilt fromSlice after := by
  induction h with
  | refl => exact hrebuilt
  | token _ ih => exact ih.cancelToken
  | append _ hsafe hjob hid hnext ih =>
      have hshaped := ih.shaped hjob
      obtain ⟨log, replay, tail, hrebuilds⟩ := ih
      exact hrebuilds.appended hdecode hsafe (hid ▸ hjob) (hR _ _ hshaped hnext)
  | fail _ hsafe hjob hid hnext reached ih =>
      have hshaped := ih.shaped hjob
      obtain ⟨log, replay, tail, hrebuilds⟩ := ih
      have hadmits := hrebuilds.matched.admits (hid ▸ hjob) (hR _ _ hshaped hnext)
      exact (hrebuilds.torn hdecode hsafe hadmits reached).1

theorem LeadsTo.rebuilt {α : Type} {o : Outcome RuntimeJobError α}
    (hdecode : RuntimeJobReadsBack fromSlice) (h : LeadsTo R jobId registry o after)
    (hrebuilt : Rebuilt fromSlice registry)
    (hR : ∀ current next, current.Shaped → R current next → Recordable current next) :
    (o ≠ .crashed → Rebuilt fromSlice after) ∧ Kept fromSlice after.journal.file := by
  cases o with
  | returned | refused =>
      have hafter := Leads.rebuilt hdecode h hrebuilt hR
      exact ⟨fun _ => hafter, hafter.kept⟩
  | crashed =>
      obtain ⟨last, current, next, reached, hleads, hsafe, hjob, hid, hnext, rfl⟩ := h
      refine ⟨fun ho => absurd rfl ho, ?_⟩
      have hlast := hleads.rebuilt hdecode hrebuilt hR
      have hshaped := hlast.shaped hjob
      obtain ⟨log, replay, tail, hrebuilds⟩ := hlast
      have hadmits := hrebuilds.matched.admits (hid ▸ hjob) (hR _ _ hshaped hnext)
      exact (hrebuilds.torn hdecode hsafe hadmits reached).2

end Registry

end M1nd.Mcp
