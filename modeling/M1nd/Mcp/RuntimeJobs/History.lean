import M1nd.Control.AuthorityWal
import M1nd.Mcp.RuntimeJobs.Threads

namespace M1nd.Mcp

open M1nd.Control
open M1nd.Library
open M1nd.Library.Checks
open M1nd.Library.Framing
open M1nd.Library.Json (Bytes)
open ChainedJournal (lineEnd)

-- serde_json reads back every record that it wrote.
def RuntimeJobReadsBack (fromSlice : RuntimeJobDecoder) : Prop :=
  ∀ record : RuntimeJobJournalRecordV1, fromSlice record.toVec = some record

-- The snapshots that are whole in the journal, in order.
def durableJobs (fromSlice : RuntimeJobDecoder) (file : Bytes) : List RuntimeJobV1 :=
  ((file.splitOn lineEnd).dropLast.filterMap fromSlice).map RuntimeJobJournalRecordV1.job

def snapshotsOf (jobId : String) (jobs : List RuntimeJobV1) : List RuntimeJobV1 :=
  jobs.filter fun job => job.jobId = jobId

abbrev history (jobId : String) (log : List RuntimeJobJournalRecordV1) : List RuntimeJobV1 :=
  snapshotsOf jobId (log.map RuntimeJobJournalRecordV1.job)

-- The journal holds these records, and at most the cut line of a failed append.
structure Filed (file : Bytes) (log : List RuntimeJobJournalRecordV1) (tail : Bytes) : Prop where
  bytes : file = frames lineEnd (log.map RuntimeJobJournalRecordV1.toVec) ++ tail
  cut : lineEnd ∉ tail

-- How two snapshots of one job follow each other, with any number of snapshots in between.
structure Ahead (earlier later : RuntimeJobV1) : Prop where
  reserved : earlier.commitInProgress = true →
    (later.state = .Succeeded ∨ later.state = .Failed) ∧ later.commitInProgress = false
  last : earlier.state ≠ .Succeeded ∧ earlier.state ≠ .Failed
  cancelled : earlier.state = .Cancelled →
    later.state = .Cancelled ∧ later.commitInProgress = false
  cancelling : earlier.state = .Cancelling →
    (later.state = .Cancelling ∨ later.state = .Cancelled ∨ later.state = .Failed) ∧
      later.commitInProgress = false

-- Only a running job has a commit reserved.
def RuntimeJobV1.Sound (job : RuntimeJobV1) : Prop :=
  job.commitInProgress = true → job.state = .Running

-- The snapshots of every job went their way.
structure Orderly (log : List RuntimeJobJournalRecordV1) : Prop where
  pairwise : ∀ jobId, (history jobId log).Pairwise Ahead
  sound : ∀ record ∈ log, record.job.Sound

variable {file tail : Bytes} {log more : List RuntimeJobJournalRecordV1}
  {record : RuntimeJobJournalRecordV1} {jobId : String} {job current next : RuntimeJobV1}

theorem Ahead.trans {a b c : RuntimeJobV1} (hab : Ahead a b) (hbc : Ahead b c) : Ahead a c where
  reserved h := by
    obtain ⟨hended | hended, -⟩ := hab.reserved h
    · exact absurd hended hbc.last.1
    · exact absurd hended hbc.last.2
  last := hab.last
  cancelled h := hbc.cancelled (hab.cancelled h).1
  cancelling h := by
    obtain ⟨hcancelling | hcancelled | hfailed, -⟩ := hab.cancelling h
    · exact hbc.cancelling hcancelling
    · obtain ⟨hstate, hreserved⟩ := hbc.cancelled hcancelled
      exact ⟨.inr (.inl hstate), hreserved⟩
    · exact absurd hfailed hbc.last.2

instance : IsTrans RuntimeJobV1 Ahead := ⟨fun _ _ _ => Ahead.trans⟩

theorem lineEnd_not_mem_toVec (record : RuntimeJobJournalRecordV1) : lineEnd ∉ record.toVec :=
  Json.newline_not_mem_write _

theorem toVec_ne_nil (record : RuntimeJobJournalRecordV1) : record.toVec ≠ [] := by
  simp [RuntimeJobJournalRecordV1.toVec, RuntimeJobJournalRecordV1.toValue, Json.Value.write]

theorem lines_lawful (log : List RuntimeJobJournalRecordV1) :
    ∀ line ∈ log.map RuntimeJobJournalRecordV1.toVec, lineEnd ∉ line := by
  intro line hline
  obtain ⟨record, -, rfl⟩ := List.mem_map.mp hline
  exact lineEnd_not_mem_toVec record

-- The history of a job.

@[simp]
theorem history_nil : history jobId [] = [] := rfl

theorem history_append : history jobId (log ++ more) = history jobId log ++ history jobId more := by
  simp [history, snapshotsOf]

theorem history_concat : history jobId (log ++ [record]) =
    history jobId log ++ if record.job.jobId = jobId then [record.job] else [] := by
  rw [history_append]
  by_cases hid : record.job.jobId = jobId <;> simp [history, snapshotsOf, hid]

theorem mem_history : job ∈ history jobId log ↔ (∃ record ∈ log, record.job = job) ∧
    job.jobId = jobId := by
  simp [history, snapshotsOf]

theorem Orderly.nil : Orderly [] where
  pairwise _ := by simp
  sound := by simp

theorem Orderly.of_append (h : Orderly (log ++ more)) : Orderly log where
  pairwise jobId := by
    have hall := h.pairwise jobId
    rw [history_append] at hall
    exact (List.pairwise_append.mp hall).1
  sound record hrecord := h.sound record (List.mem_append_left _ hrecord)

-- The next snapshot of a job comes after its last one.
theorem Orderly.concat (h : Orderly log) (hsound : record.job.Sound)
    (hnext : ∀ current, (history record.job.jobId log).getLast? = some current →
      Ahead current record.job) :
    Orderly (log ++ [record]) where
  pairwise jobId := by
    rw [history_concat]
    split
    · rename_i hid
      subst hid
      cases hlast : (history record.job.jobId log).getLast? with
      | none =>
          rw [List.getLast?_eq_none_iff.mp hlast]
          exact List.pairwise_singleton _ _
      | some current =>
          exact Runs.pairwise_concat (h.pairwise _) hlast (hnext current hlast)
    · rw [List.append_nil]
      exact h.pairwise jobId
  sound other hother := by
    obtain hlog | hrecord := List.mem_append.mp hother
    · exact h.sound other hlog
    · rw [List.mem_singleton.mp hrecord]
      exact hsound

-- What a reserved snapshot says of the other snapshots of its job.
theorem Orderly.reserved (h : Orderly log) {reserved other : RuntimeJobV1}
    (hreserved : reserved ∈ history jobId log) (hcommit : reserved.commitInProgress = true)
    (hother : other ∈ history jobId log) :
    other.state ≠ .Cancelling ∧ other.state ≠ .Cancelled := by
  obtain ⟨⟨record, hrecord, rfl⟩, -⟩ := mem_history.mp hreserved
  have hrunning := h.sound record hrecord hcommit
  obtain ⟨before, after, hsplit⟩ := List.append_of_mem hreserved
  have hall := h.pairwise jobId
  rw [hsplit, List.pairwise_append, List.pairwise_cons] at hall
  obtain ⟨-, ⟨hafter, -⟩, hbefore⟩ := hall
  rw [hsplit, List.mem_append, List.mem_cons] at hother
  obtain hother | rfl | hother := hother
  · have hahead := hbefore _ hother record.job List.mem_cons_self
    constructor
    · intro hstate
      have hfree := (hahead.cancelling hstate).2
      rw [hcommit] at hfree
      cases hfree
    · intro hstate
      have hfree := (hahead.cancelled hstate).2
      rw [hcommit] at hfree
      cases hfree
  · rw [hrunning]
    exact ⟨nofun, nofun⟩
  · obtain ⟨hended | hended, -⟩ := (hafter _ hother).reserved hcommit <;> rw [hended] <;>
      exact ⟨nofun, nofun⟩

-- The bytes of the journal.

theorem Filed.nil : Filed [] [] [] := ⟨rfl, by simp⟩

-- An append that is cut leaves the whole record, or a part of its line.
theorem Filed.append (h : Filed file log []) (record : RuntimeJobJournalRecordV1) (reached : Nat) :
    Filed (file ++ (record.toVec ++ [lineEnd]).take reached) (log ++ [record]) [] ∨
      Filed (file ++ (record.toVec ++ [lineEnd]).take reached) log
        ((record.toVec ++ [lineEnd]).take reached) := by
  have hbytes := h.bytes
  rw [List.append_nil] at hbytes
  obtain hwhole | hcut := take_frame (lineEnd_not_mem_toVec record) reached
  · left
    rw [hwhole]
    refine ⟨?_, by simp⟩
    rw [hbytes, List.map_append, List.map_singleton, frames_concat, List.append_nil]
  · exact .inr ⟨by rw [hbytes], hcut⟩

theorem Filed.concat (h : Filed file log []) :
    Filed (file ++ (record.toVec ++ [lineEnd])) (log ++ [record]) [] := by
  have hbytes := h.bytes
  rw [List.append_nil] at hbytes
  refine ⟨?_, by simp⟩
  rw [hbytes, List.map_append, List.map_singleton, frames_concat, List.append_nil]

theorem Filed.splitOn (h : Filed file log tail) :
    file.splitOn lineEnd = log.map RuntimeJobJournalRecordV1.toVec ++ [tail] := by
  rw [h.bytes]
  exact splitOn_frames_append (lines_lawful log) h.cut

variable {fromSlice : RuntimeJobDecoder}

theorem RuntimeJobReadsBack.filterMap (hdecode : RuntimeJobReadsBack fromSlice) :
    (log.map RuntimeJobJournalRecordV1.toVec).filterMap fromSlice = log := by
  induction log with
  | nil => rfl
  | cons record log ih => rw [List.map_cons, List.filterMap_cons, hdecode, ih]

theorem Filed.durableJobs (hdecode : RuntimeJobReadsBack fromSlice) (h : Filed file log tail) :
    durableJobs fromSlice file = log.map RuntimeJobJournalRecordV1.job := by
  rw [Mcp.durableJobs, h.splitOn, List.dropLast_concat, hdecode.filterMap]

-- Replay.

section Replay

variable [Sha256] {replay last : JobReplay} {registry : RegistryState} {maxInFlight : Nat}

omit [Sha256] in
theorem applyReplayedJob_eq_ok {jobs jobs' : BTreeMap RuntimeJobV1} {offset : Nat}
    (h : applyReplayedJob jobs job offset = .ok jobs') : jobs' = jobs.insert job.jobId job := by
  unfold applyReplayedJob at h
  split at h <;> simp only [bind_unit_eq_ok, pure_eq_ok] at h
  · exact h.2.symm
  · exact h.2.2.2.2.symm

theorem readLine_toVec (hdecode : RuntimeJobReadsBack fromSlice)
    (h : replay.readLine fromSlice record.toVec = .ok last) :
    last.jobs = replay.jobs.insert record.job.jobId record.job := by
  have hread := hdecode record
  rw [JobReplay.readLine, if_neg (toVec_ne_nil record), hread] at h
  obtain ⟨read, hsame, h⟩ := bind_eq_ok.mp h
  obtain rfl : record = read := Except.ok.inj hsame
  simp only [bind_eq_ok, exists_unit, pure_eq_ok] at h
  obtain ⟨-, -, -, -, -, jobs, hjobs, rfl⟩ := h
  exact applyReplayedJob_eq_ok hjobs

-- Replay keeps the last snapshot of each job.
theorem replay_jobs (hdecode : RuntimeJobReadsBack fromSlice)
    (h : Runs.replay (JobReplay.readLine fromSlice) JobReplay.fresh
      (log.map RuntimeJobJournalRecordV1.toVec) = .ok replay) (jobId : String) :
    replay.jobs[jobId]? = (history jobId log).getLast? := by
  induction log using List.reverseRecOn generalizing replay with
  | nil =>
      obtain rfl : JobReplay.fresh = replay := Except.ok.inj h
      simp [JobReplay.fresh]
  | append_singleton log record ih =>
      rw [List.map_append, List.map_singleton, Runs.replay_concat_eq_ok] at h
      obtain ⟨before, hbefore, hlast⟩ := h
      rw [readLine_toVec hdecode hlast, Std.ExtTreeMap.getElem?_insert, history_concat]
      by_cases hid : record.job.jobId = jobId
      · simp [hid]
      · simp [hid, ih hbefore]

theorem replayJobJournal_jobs (hdecode : RuntimeJobReadsBack fromSlice) (hfile : Filed file log tail)
    (h : replayJobJournal fromSlice file = .ok replay) :
    tail = [] ∧ ∀ jobId : String, replay.jobs[jobId]? = (history jobId log).getLast? := by
  unfold replayJobJournal at h
  split at h
  · rename_i hempty
    obtain rfl := Except.ok.inj h
    have hsplit := hfile.splitOn
    rw [hempty] at hsplit
    cases log with
    | nil =>
        obtain rfl : ([] : Bytes) = tail := by simpa using hsplit
        exact ⟨rfl, fun _ => by simp [JobReplay.fresh]⟩
    | cons record log => simp at hsplit
  · split at h
    · cases h
    · rename_i hends
      have htail : tail = [] := by
        cases tail with
        | nil => rfl
        | cons byte tail =>
            refine absurd ?_ hfile.cut
            rw [hfile.bytes, List.getLast?_append_cons, not_not] at hends
            exact List.mem_of_getLast? hends
      subst htail
      rw [hfile.splitOn, Runs.replay_concat_eq_ok] at h
      obtain ⟨before, hbefore, hlast⟩ := h
      rw [JobReplay.readLine, if_pos rfl] at hlast
      obtain rfl := Except.ok.inj hlast
      exact ⟨rfl, fun jobId => replay_jobs hdecode hbefore jobId⟩

-- What a process knows of the jobs right after it has read the journal.
theorem openRegistry_spec (hdecode : RuntimeJobReadsBack fromSlice) (hfile : Filed file log tail)
    (h : openRegistry fromSlice maxInFlight file = .ok registry) :
    tail = [] ∧ registry.journal.file = file ∧ registry.poisoned = false ∧
      ∀ jobId : String, (registry.jobs[jobId]?).map JobEntry.job = (history jobId log).getLast? := by
  simp only [openRegistry, bind_eq_ok, exists_unit, pure_eq_ok] at h
  obtain ⟨-, replay, hreplay, idempotency, -, rfl⟩ := h
  obtain ⟨htail, hjobs⟩ := replayJobJournal_jobs hdecode hfile hreplay
  refine ⟨htail, rfl, rfl, fun jobId => ?_⟩
  rw [← hjobs, Std.ExtTreeMap.getElem?_map]
  cases replay.jobs[jobId]? <;> rfl

end Replay

end M1nd.Mcp

namespace M1nd.Mcp

open M1nd.Control
open M1nd.Library.Json (Value)

-- Different records are written differently.

theorem RuntimeJobState.name_injective : Function.Injective RuntimeJobState.name := by
  intro a b h
  cases a <;> cases b <;> first | rfl | exact absurd h (by decide)

theorem Ingress.name_injective : Function.Injective Ingress.name := by
  intro a b h
  cases a <;> cases b <;> first | rfl | exact absurd h (by decide)

theorem effectName_injective : Function.Injective Effect.name := by
  intro a b h
  cases a <;> cases b <;> first | rfl | exact absurd h (by decide)

theorem effectSet_injective : Function.Injective (nameSet Effect.name) := by
  intro a b h
  have hname : Function.Injective fun effect : Effect => Value.string effect.name :=
    fun _ _ hsame => effectName_injective (Value.string.inj hsame)
  exact Std.ExtTreeSet.toList_inj.mp (List.map_injective_iff.mpr hname (Value.array.inj h))

theorem RuntimeJobAuthorityBindingV1.toValue_injective :
    Function.Injective RuntimeJobAuthorityBindingV1.toValue := by
  intro a b h
  simp only [toValue, Value.object.injEq, List.cons.injEq, Prod.mk.injEq, true_and, and_true,
    Value.string.injEq, Value.ofNat_inj, optionalString_injective.eq_iff,
    AuthorityVariant.name_injective.eq_iff] at h
  exact RuntimeJobAuthorityBindingV1.ext_iff.mpr h

theorem RuntimeJobBindingV1.toValue_injective :
    Function.Injective RuntimeJobBindingV1.toValue := by
  intro a b h
  simp only [toValue, Value.object.injEq, List.cons.injEq, Prod.mk.injEq, true_and, and_true,
    Value.string.injEq, Ingress.name_injective.eq_iff, effectSet_injective.eq_iff,
    RuntimeJobAuthorityBindingV1.toValue_injective.eq_iff] at h
  exact RuntimeJobBindingV1.ext_iff.mpr h

theorem RuntimeJobTerminalResultV1.toValue_injective :
    Function.Injective RuntimeJobTerminalResultV1.toValue := by
  intro a b h
  simp only [toValue, Value.object.injEq, List.cons.injEq, Prod.mk.injEq, true_and, and_true,
    Value.string.injEq, Value.ofNat_inj, optionalString_injective.eq_iff] at h
  exact RuntimeJobTerminalResultV1.ext_iff.mpr h

theorem optionalResult_injective :
    Function.Injective (Value.ofOption RuntimeJobTerminalResultV1.toValue) := by
  intro a b h
  cases a with
  | none =>
      cases b with
      | none => rfl
      | some result => exact nomatch h
  | some result =>
      cases b with
      | none => exact nomatch h
      | some other => exact congrArg some (RuntimeJobTerminalResultV1.toValue_injective h)

theorem RuntimeJobV1.toValue_injective : Function.Injective RuntimeJobV1.toValue := by
  intro a b h
  simp only [toValue, Value.object.injEq, List.cons.injEq, Prod.mk.injEq, true_and, and_true,
    Value.string.injEq, Value.bool.injEq, Value.ofNat_inj, optionalString_injective.eq_iff,
    RuntimeJobState.name_injective.eq_iff, optionalResult_injective.eq_iff,
    RuntimeJobBindingV1.toValue_injective.eq_iff] at h
  exact RuntimeJobV1.ext_iff.mpr h

theorem RuntimeJobJournalRecordV1.toValue_injective :
    Function.Injective RuntimeJobJournalRecordV1.toValue := by
  intro a b h
  simp only [toValue, coreMembers, List.cons_append, List.nil_append, Value.object.injEq,
    List.cons.injEq, Prod.mk.injEq, true_and, and_true, Value.string.injEq, Value.ofNat_inj,
    optionalString_injective.eq_iff, RuntimeJobV1.toValue_injective.eq_iff] at h
  exact RuntimeJobJournalRecordV1.ext_iff.mpr h

theorem partialInv_runtimeJobReadsBack :
    RuntimeJobReadsBack (Function.partialInv RuntimeJobJournalRecordV1.toVec) :=
  fun record => Function.partialInv_left
    (Library.Json.write_injective.comp RuntimeJobJournalRecordV1.toValue_injective) record

end M1nd.Mcp
