import M1nd.Mcp.RuntimeJobs.Moves

namespace M1nd.Mcp

open M1nd.Control
open M1nd.Library.Checks
open M1nd.Library.Durable

variable {α β : Type} {registry after last : RegistryState}
  {log log' log'' : List RuntimeJobJournalRecordV1} {allowed : RuntimeJobV1 → Prop}
  {jobId : String} {job : RuntimeJobV1} {ticks : Nat → Clock} {jobIds : List String}
  {o : Outcome RuntimeJobError α}

-- What a process that opens the journal does to it, over all its jobs.
structure RegistryMoved (registry : RegistryState) (log : List RuntimeJobJournalRecordV1)
    (o : Outcome RuntimeJobError α) (after : RegistryState)
    (log' : List RuntimeJobJournalRecordV1) : Prop where
  grown : log <+: log'
  file : registry.journal.file <+: after.journal.file
  filed : ∃ tail, Filed after.journal.file log' tail
  orderly : Orderly log'
  durably : o ≠ .crashed → Durably after log'
  inStep : o ≠ .crashed → after.poisoned = false → InStep after log'

theorem Advanced.moved (h : Advanced allowed jobId registry log o after log') :
    RegistryMoved registry log o after log' :=
  ⟨h.grown.isPrefix, h.file, h.filed, h.orderly, h.durably, h.inStep⟩

theorem RegistryMoved.tracks (h : RegistryMoved registry log o after log') (ho : o ≠ .crashed) :
    Tracks after log' :=
  ⟨h.filed, h.orderly, h.durably ho, h.inStep ho⟩

theorem RegistryMoved.trans {o' : Outcome RuntimeJobError β} (h : RegistryMoved registry log o after log')
    (h' : RegistryMoved after log' o' last log'') : RegistryMoved registry log o' last log'' :=
  ⟨h.grown.trans h'.grown, h.file.trans h'.file, h'.filed, h'.orderly, h'.durably, h'.inStep⟩

theorem RegistryMoved.outcome {o' : Outcome RuntimeJobError β} (h : RegistryMoved registry log o after log')
    (ho : o' ≠ .crashed → o ≠ .crashed) : RegistryMoved registry log o' after log' :=
  { h with
    durably := fun hrest => h.durably (ho hrest)
    inStep := fun hrest => h.inStep (ho hrest) }

theorem Tracks.moved (h : Tracks registry log) : RegistryMoved registry log o registry log :=
  (h.refl : Advanced (fun _ => True) "" registry log o registry log).moved

theorem mem_activeJobs : jobId ∈ registry.activeJobs ↔
    ∃ job, registry.job? jobId = some job ∧ job.state.isTerminal = false := by
  simp only [RegistryState.activeJobs, List.mem_map, List.mem_filter, Bool.not_eq_true',
    RegistryState.job?, Option.map_eq_some_iff]
  constructor
  · rintro ⟨⟨id, entry⟩, ⟨hentry, hactive⟩, rfl⟩
    exact ⟨_, ⟨entry, Std.ExtTreeMap.mem_toList_iff_getElem?_eq_some.mp hentry, rfl⟩, hactive⟩
  · rintro ⟨_, ⟨entry, hentry, rfl⟩, hactive⟩
    exact ⟨(jobId, entry), ⟨Std.ExtTreeMap.mem_toList_iff_getElem?_eq_some.mpr hentry, hactive⟩, rfl⟩

section Opening

variable [Sha256]

-- A job that is failed closed is over, and no other job has moved.
theorem failClosed_spec (h : Tracks registry log) :
    Always (failClosed jobId ticks) registry fun o after =>
      JobAdvances (fun _ => True) jobId registry log o after ∧
        (o = .returned () → ∃ job, after.job? jobId = some job ∧ job.state = .Failed) := by
  have hidle : ∀ error : RuntimeJobError, JobAdvances (fun _ => True) jobId registry log
      (.refused error : Outcome RuntimeJobError Unit) registry := fun _ => ⟨log, h.refl⟩
  have hrest : ∀ registry' log' (o : Outcome RuntimeJobError Unit) reason flag result clock,
      Advanced (fun _ => True) jobId registry log o registry' log' → o ≠ .crashed →
      Always (transition jobId .Failed reason flag result clock) registry' fun o after =>
        JobAdvances (fun _ => True) jobId registry log o after ∧
          (o = .returned () → ∃ job, after.job? jobId = some job ∧ job.state = .Failed) := by
    intro registry' log' o reason flag result clock hadvanced ho
    refine (transition_spec (hadvanced.tracks ho)).mono ?_
    rintro o' after ⟨⟨last, hafter⟩, hfailed⟩
    exact ⟨⟨last, hadvanced.trans (hafter.mono fun _ _ => trivial)⟩, fun hdone => (hfailed hdone).2⟩
  refine snapshot_bind (fun _ => ⟨hidle _, nofun⟩) fun job hjob => ?_
  refine .bind (.check (fun finishedAt _ => ?_) fun _ _ => ⟨hidle _, nofun⟩)
  dsimp only
  split
  · refine .bind ((requestCancel_spec h).mono ?_)
    rintro (_ | error | _) after ⟨log', hafter⟩
    · exact hrest _ log' (.returned ()) _ _ _ _ (hafter.mono fun _ _ => trivial) nofun
    · exact ⟨⟨log', hafter.mono fun _ _ => trivial⟩, nofun⟩
    · exact ⟨⟨log', hafter.mono fun _ _ => trivial⟩, nofun⟩
  · exact hrest _ log (.returned ()) _ _ _ _ h.refl nofun

theorem failClosedAll_spec {ticks : String → Nat → Clock} (h : Tracks registry log) :
    Always (failClosedAll ticks jobIds) registry fun o after =>
      (∃ log', RegistryMoved registry log o after log') ∧
        (o = .returned () → ∀ jobId job, after.job? jobId = some job →
          job.state.isTerminal = false → registry.job? jobId = some job ∧ jobId ∉ jobIds) := by
  induction jobIds generalizing registry log with
  | nil => exact .pure ⟨⟨log, h.moved⟩, fun _ jobId job hjob _ => ⟨hjob, List.not_mem_nil⟩⟩
  | cons first jobIds ih =>
      refine .bind ((failClosed_spec h).mono ?_)
      rintro (_ | error | _) after ⟨⟨log', hafter⟩, hfailed⟩
      · refine (ih (hafter.tracks nofun)).mono ?_
        rintro o last ⟨⟨log'', hlast⟩, hactive⟩
        refine ⟨⟨log'', hafter.moved.trans hlast⟩, fun hdone jobId job hjob hopen => ?_⟩
        obtain ⟨hbefore, hmem⟩ := hactive hdone jobId job hjob hopen
        have hother : jobId ≠ first := by
          rintro rfl
          obtain ⟨failed, hsame, hstate⟩ := hfailed rfl
          obtain rfl : failed = job := Option.some.inj (hsame.symm.trans hbefore)
          rw [hstate] at hopen
          cases hopen
        exact ⟨(hafter.elsewhere jobId hother).symm.trans hbefore,
          List.not_mem_cons_of_ne_of_not_mem hother hmem⟩
      · exact ⟨⟨log', hafter.moved⟩, nofun⟩
      · exact ⟨⟨log', hafter.moved⟩, nofun⟩

theorem dropRequested_spec {clock : Clock} (h : Tracks registry log) :
    Always (dropRequested jobId clock) registry fun o after =>
      JobAdvances (FreeIn .Cancelling) jobId registry log o after := by
  refine .orElse ((requestCancel_spec h).mono ?_)
  rintro (_ | error | _) after ⟨log', hafter⟩
  · exact ⟨log', hafter⟩
  · exact .pure ⟨log', hafter.outcome nofun⟩
  · exact ⟨log', hafter⟩

theorem dropAll_spec {clock : String → Clock} (h : Tracks registry log) :
    Always (dropAll clock jobIds) registry fun o after => ∃ log', RegistryMoved registry log o after log' := by
  induction jobIds generalizing registry log with
  | nil => exact .pure ⟨log, h.moved⟩
  | cons first jobIds ih =>
      refine .bind ((dropRequested_spec h).mono ?_)
      rintro (_ | error | _) after ⟨log', hafter⟩
      · refine (ih (hafter.tracks nofun)).mono ?_
        rintro o last ⟨log'', hlast⟩
        exact ⟨log'', hafter.moved.trans hlast⟩
      · exact ⟨log', hafter.moved⟩
      · exact ⟨log', hafter.moved⟩

-- A registry that opens has no job left that is not over.
theorem failClosedInterruptedJobs_spec {ticks : String → Nat → Clock} (h : Tracks registry log) :
    Always (failClosedInterruptedJobs ticks) registry fun o after =>
      (∃ log', RegistryMoved registry log o after log') ∧
        (o = .returned () → ∀ jobId job, after.job? jobId = some job →
          job.state.isTerminal = true) := by
  refine .bind (.get (.orElse ((failClosedAll_spec h).mono ?_)))
  rintro (_ | error | _) after ⟨⟨log', hafter⟩, hactive⟩
  · refine ⟨⟨log', hafter⟩, fun hdone jobId job hjob => ?_⟩
    by_contra hopen
    rw [Bool.not_eq_true] at hopen
    obtain ⟨hbefore, hmem⟩ := hactive hdone jobId job hjob hopen
    exact hmem (mem_activeJobs.mpr ⟨job, hbefore, hopen⟩)
  · refine .bind (.get (.bind (.modify ?_)))
    have htracks : Tracks after.close log' := by
      have hclosed := hafter.tracks nofun
      exact ⟨hclosed.filed, hclosed.orderly, hclosed.durably, fun hsafe => ⟨(hclosed.inStep hsafe).filed,
        (hclosed.inStep hsafe).jobs⟩⟩
    have hclose : RegistryMoved registry log (.returned () : Outcome RuntimeJobError Unit) after.close log' :=
      ⟨hafter.grown, hafter.file, htracks.filed, htracks.orderly, fun _ => htracks.durably,
        fun _ => htracks.inStep⟩
    refine .bind ((dropAll_spec htracks).mono ?_)
    rintro (_ | error' | _) last ⟨log'', hlast⟩
    · exact .refuse ⟨⟨log'', (hclose.trans hlast).outcome nofun⟩, nofun⟩
    · exact ⟨⟨log'', hclose.trans hlast⟩, nofun⟩
    · exact ⟨⟨log'', hclose.trans hlast⟩, nofun⟩
  · exact ⟨⟨log', hafter⟩, nofun⟩

end Opening

end M1nd.Mcp

namespace M1nd.Mcp

open M1nd.Control
open M1nd.Library.Checks
open M1nd.Library.Durable
open M1nd.Library.Json (Bytes)

variable {ν α : Type} {registry after : RegistryState}
  {log log' : List RuntimeJobJournalRecordV1} {allowed : RuntimeJobV1 → Prop}
  {jobId : String} {job : RuntimeJobV1} {ticks : Nat → Clock} {turn : Turn ν}
  {o : Outcome RuntimeJobError α} {invocations invocations' : List Invocation}
  {workers : List (Worker ν)} {worker : Worker ν} {phase : WorkerPhase ν} {closer : Closer}
  {index : Nat} {file : Bytes}

-- The worker owns the reservation of its job.
def WorkerPhase.Owns : WorkerPhase ν → Prop
  | .Reserved _ _ | .Committed _ _ => True
  | _ => False

def Uninvoked (jobId : String) (invocations : List Invocation) : Prop :=
  ∀ invocation ∈ invocations, invocation.jobId ≠ jobId

-- What the phase of a worker says of the history of its job and of its commit.
def WorkerPhase.Holds (invocations : List Invocation) (log : List RuntimeJobJournalRecordV1)
    (jobId : String) : WorkerPhase ν → Prop
  | .Reserved _ _ => Uninvoked jobId invocations ∧
      ∃ job ∈ history jobId log, job.commitInProgress = true
  | .Committed _ _ | .Ended => True
  | _ => Uninvoked jobId invocations ∧ Unclaimed jobId log

structure WorkersHold (workers : List (Worker ν)) (registry : RegistryState)
    (log : List RuntimeJobJournalRecordV1) (invocations : List Invocation) : Prop where
  nodup : (workers.map Worker.jobId).Nodup
  known : ∀ worker ∈ workers, history worker.jobId log ≠ []
  phases : ∀ worker ∈ workers, worker.phase.Holds invocations log worker.jobId
  owned : registry.poisoned = false → ∀ jobId job, registry.job? jobId = some job →
    job.commitInProgress = true → ∃ worker ∈ workers, worker.jobId = jobId ∧ worker.phase.Owns

-- What one step of a worker comes to.
def StepsTo (jobId : String) (invocations : List Invocation) (after : RegistryState)
    (log' : List RuntimeJobJournalRecordV1) : Outcome RuntimeJobError (WorkerPhase ν) → Prop
  | .returned phase => phase.Holds invocations log' jobId ∧ (phase.Owns ∨ Released after jobId)
  | .refused _ => Released after jobId
  | .crashed => True

theorem Grown.history_ne_nil (h : Grown allowed jobId log log') {other : String}
    (hne : history other log ≠ []) : history other log' ≠ [] := by
  obtain ⟨more, rfl, -⟩ := h
  rw [history_append]
  exact List.append_ne_nil_of_left_ne_nil hne _

-- A phase holds on, once the other threads leave the end of the job to its worker.
theorem WorkerPhase.Holds.grown {other : String} (h : phase.Holds invocations log other)
    (hgrown : Grown allowed jobId log log')
    (hallowed : other = jobId → ∀ job, allowed job → Undecided job)
    (hinvocations : Uninvoked other invocations → Uninvoked other invocations') :
    phase.Holds invocations' log' other := by
  have hreserved : (∃ job ∈ history other log, job.commitInProgress = true) →
      ∃ job ∈ history other log', job.commitInProgress = true :=
    fun ⟨job, hjob, hcommit⟩ => ⟨job, hgrown.history_subset hjob, hcommit⟩
  have hunclaimed : Unclaimed other log → Unclaimed other log' := by
    intro hold job hjob
    obtain hjob | ⟨hsame, hnew⟩ := hgrown.mem hjob
    · exact hold job hjob
    · exact hallowed hsame job hnew
  cases phase with
  | Reserved value now => exact ⟨hinvocations h.1, hreserved h.2⟩
  | Committed now outcome => trivial
  | Ended => trivial
  | _ => exact ⟨hinvocations h.1, hunclaimed h.2⟩

-- A worker that does not own a reservation has none: no other thread reserves for its job.
theorem WorkersHold.released (h : WorkersHold workers registry log invocations)
    (hworker : worker ∈ workers) (howns : ¬worker.phase.Owns) : Released registry worker.jobId := by
  intro hsafe job hjob
  by_contra hcommit
  rw [Free, Bool.not_eq_false] at hcommit
  obtain ⟨owner, howner, hid, howned⟩ := h.owned hsafe _ job hjob hcommit
  obtain rfl : owner = worker := List.inj_on_of_nodup_map h.nodup howner hworker hid
  exact howns howned

-- The other threads append only snapshots that leave the end of a job to its worker.
theorem WorkersHold.undecided (h : WorkersHold workers registry log invocations)
    (htracks : Tracks registry log) (hafter : Advanced Undecided jobId registry log o after log')
    (ho : o ≠ .crashed) : WorkersHold workers after log' invocations where
  nodup := h.nodup
  known worker hworker := hafter.grown.history_ne_nil (h.known worker hworker)
  phases worker hworker := (h.phases worker hworker).grown hafter.grown (fun _ _ => id) id
  owned := by
    intro hsafe other job hjob hcommit
    have hbefore : registry.poisoned = false := by
      by_contra hpoisoned
      rw [Bool.not_eq_false] at hpoisoned
      rw [hafter.poisoned hpoisoned] at hsafe
      cases hsafe
    have hlast := (hafter.inStep ho hsafe).jobs other
    rw [hjob] at hlast
    obtain hold | ⟨-, hfree, -⟩ := hafter.grown.getLast hlast.symm
    · exact h.owned hbefore other job (((htracks.inStep hbefore).jobs other).trans hold) hcommit
    · rw [hfree] at hcommit
      cases hcommit

-- The workers that are not at work.
theorem mem_set_worker {next other : Worker ν} (hnodup : (workers.map Worker.jobId).Nodup)
    (hworker : workers[index]? = some worker) (hother : other ∈ workers.set index next) :
    other = next ∨ (other ∈ workers ∧ other.jobId ≠ worker.jobId) := by
  obtain ⟨place, hplace⟩ := List.mem_iff_getElem?.mp hother
  rw [List.getElem?_set] at hplace
  by_cases hindex : index = place
  · rw [if_pos hindex] at hplace
    split at hplace
    · exact .inl (Option.some.inj hplace).symm
    · cases hplace
  · rw [if_neg hindex] at hplace
    refine .inr ⟨List.mem_of_getElem? hplace, fun hid => hindex ?_⟩
    have hbound : index < (workers.map Worker.jobId).length := by
      rw [List.length_map]
      exact (List.getElem?_eq_some_iff.mp hworker).1
    refine (List.getElem?_inj hbound hnodup).mp ?_
    rw [List.getElem?_map, List.getElem?_map, hworker, hplace, Option.map_some, Option.map_some, hid]

theorem mem_set_of_ne {next other : Worker ν} (hworker : workers[index]? = some worker)
    (hother : other ∈ workers) (hne : other ≠ worker) : other ∈ workers.set index next := by
  obtain ⟨place, hplace⟩ := List.mem_iff_getElem?.mp hother
  have hindex : index ≠ place := by
    rintro rfl
    exact hne (Option.some.inj (hplace.symm.trans hworker))
  refine List.mem_iff_getElem?.mpr ⟨place, ?_⟩
  rw [List.getElem?_set, if_neg hindex, hplace]

theorem WorkersHold.step (h : WorkersHold workers registry log invocations)
    (hworker : workers[index]? = some worker)
    (hafter : Advanced allowed worker.jobId registry log o after log')
    (hphase : phase.Holds invocations' log' worker.jobId)
    (howns : phase.Owns ∨ Released after worker.jobId)
    (hinvocations : ∀ invocation ∈ invocations', invocation ∈ invocations ∨
      invocation.jobId = worker.jobId) :
    WorkersHold (workers.set index ⟨worker.jobId, phase⟩) after log' invocations' := by
  have hmem := List.mem_of_getElem? hworker
  have hbound : index < workers.length := (List.getElem?_eq_some_iff.mp hworker).1
  refine ⟨?_, fun other hother => ?_, fun other hother => ?_, fun hsafe other job hjob hcommit => ?_⟩
  · have hsame : (workers.set index ⟨worker.jobId, phase⟩).map Worker.jobId =
        workers.map Worker.jobId := by
      rw [List.map_set]
      refine List.ext_getElem? fun place => ?_
      rw [List.getElem?_set, List.getElem?_map]
      split
      · rename_i hindex
        subst hindex
        rw [if_pos (by rw [List.length_map]; exact hbound), hworker, Option.map_some]
      · rfl
    rw [hsame]
    exact h.nodup
  · obtain rfl | ⟨hother, -⟩ := mem_set_worker h.nodup hworker hother
    · exact hafter.grown.history_ne_nil (h.known worker hmem)
    · exact hafter.grown.history_ne_nil (h.known other hother)
  · obtain rfl | ⟨hother, hid⟩ := mem_set_worker h.nodup hworker hother
    · exact hphase
    · refine (h.phases other hother).grown hafter.grown (fun hsame => absurd hsame hid) ?_
      intro huninvoked invocation hinvocation
      obtain hold | hnew := hinvocations invocation hinvocation
      · exact huninvoked invocation hold
      · rw [hnew]
        exact Ne.symm hid
  · by_cases hid : other = worker.jobId
    · subst hid
      obtain hphaseOwns | hreleased := howns
      · exact ⟨⟨worker.jobId, phase⟩, List.mem_set hbound _, rfl, hphaseOwns⟩
      · have hfree := hreleased hsafe job hjob
        rw [hfree] at hcommit
        cases hcommit
    · rw [hafter.elsewhere other hid] at hjob
      have hbefore : registry.poisoned = false := by
        by_contra hpoisoned
        rw [Bool.not_eq_false] at hpoisoned
        rw [hafter.poisoned hpoisoned] at hsafe
        cases hsafe
      obtain ⟨owner, howner, rfl, howned⟩ := h.owned hbefore other job hjob hcommit
      have hne : owner ≠ worker := by
        rintro rfl
        exact hid rfl
      exact ⟨owner, mem_set_of_ne hworker howner hne, rfl, howned⟩

end M1nd.Mcp
