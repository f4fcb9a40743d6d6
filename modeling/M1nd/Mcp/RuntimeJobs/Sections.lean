import M1nd.Mcp.RuntimeJobs.History

namespace M1nd.Mcp

open M1nd.Control
open M1nd.Library.Checks
open M1nd.Library.Durable
open M1nd.Library.Json (Bytes)
open ChainedJournal (lineEnd)

def RegistryState.job? (registry : RegistryState) (jobId : String) : Option RuntimeJobV1 :=
  (registry.jobs[jobId]?).map JobEntry.job

-- What a call adds to the journal: snapshots of one job, all of them of one kind.
def Grown (allowed : RuntimeJobV1 → Prop) (jobId : String)
    (log log' : List RuntimeJobJournalRecordV1) : Prop :=
  ∃ more, log' = log ++ more ∧ ∀ record ∈ more, record.job.jobId = jobId ∧ allowed record.job

-- The handle knows the last snapshot of every job.
structure InStep (registry : RegistryState) (log : List RuntimeJobJournalRecordV1) : Prop where
  filed : Filed registry.journal.file log []
  jobs : ∀ jobId, registry.job? jobId = (history jobId log).getLast?

-- Every job that the handle knows is one of the durable snapshots.
def Durably (registry : RegistryState) (log : List RuntimeJobJournalRecordV1) : Prop :=
  ∀ jobId job, registry.job? jobId = some job → job ∈ history jobId log

-- A handle that is not poisoned is in step with its journal.
structure Tracks (registry : RegistryState) (log : List RuntimeJobJournalRecordV1) : Prop where
  filed : ∃ tail, Filed registry.journal.file log tail
  orderly : Orderly log
  durably : Durably registry log
  inStep : registry.poisoned = false → InStep registry log

-- A critical section that works on one job.
structure Advanced {α : Type} (allowed : RuntimeJobV1 → Prop) (jobId : String)
    (registry : RegistryState) (log : List RuntimeJobJournalRecordV1)
    (o : Outcome RuntimeJobError α) (after : RegistryState)
    (log' : List RuntimeJobJournalRecordV1) : Prop where
  grown : Grown allowed jobId log log'
  file : registry.journal.file <+: after.journal.file
  filed : ∃ tail, Filed after.journal.file log' tail
  orderly : Orderly log'
  durably : o ≠ .crashed → Durably after log'
  inStep : o ≠ .crashed → after.poisoned = false → InStep after log'
  elsewhere : ∀ other, other ≠ jobId → after.job? other = registry.job? other
  poisoned : registry.poisoned = true → after.poisoned = true

-- The snapshot that a call is about to append fits the job it is about.
structure Due (allowed : RuntimeJobV1 → Prop) (jobId : String) (registry : RegistryState)
    (next : RuntimeJobV1) : Prop where
  id : next.jobId = jobId
  sound : next.Sound
  kind : allowed next
  ahead : ∃ current, registry.job? jobId = some current ∧ Ahead current next

variable {α β : Type} {registry after last : RegistryState}
  {log log' log'' : List RuntimeJobJournalRecordV1} {allowed weaker : RuntimeJobV1 → Prop}
  {jobId other reason : String} {job current next : RuntimeJobV1} {o : Outcome RuntimeJobError α}
  {target : RuntimeJobState} {clock : Clock}

theorem Grown.refl : Grown allowed jobId log log := ⟨[], by simp, by simp⟩

theorem Grown.trans (h : Grown allowed jobId log log') (h' : Grown allowed jobId log' log'') :
    Grown allowed jobId log log'' := by
  obtain ⟨more, rfl, hmore⟩ := h
  obtain ⟨rest, rfl, hrest⟩ := h'
  refine ⟨more ++ rest, List.append_assoc _ _ _, fun record hrecord => ?_⟩
  obtain hrecord | hrecord := List.mem_append.mp hrecord
  · exact hmore record hrecord
  · exact hrest record hrecord

theorem Grown.mono (h : Grown allowed jobId log log') (hallowed : ∀ job, allowed job → weaker job) :
    Grown weaker jobId log log' := by
  obtain ⟨more, rfl, hmore⟩ := h
  exact ⟨more, rfl, fun record hrecord => ⟨(hmore record hrecord).1, hallowed _ (hmore record hrecord).2⟩⟩

theorem Grown.mem (h : Grown allowed jobId log log') (hjob : job ∈ history other log') :
    job ∈ history other log ∨ (other = jobId ∧ allowed job) := by
  obtain ⟨more, rfl, hmore⟩ := h
  rw [history_append, List.mem_append] at hjob
  refine hjob.imp_right fun hjob => ?_
  obtain ⟨⟨record, hrecord, rfl⟩, hid⟩ := mem_history.mp hjob
  exact ⟨hid.symm.trans (hmore record hrecord).1, (hmore record hrecord).2⟩

theorem Grown.history_subset (h : Grown allowed jobId log log') (hjob : job ∈ history other log) :
    job ∈ history other log' := by
  obtain ⟨more, rfl, -⟩ := h
  rw [history_append]
  exact List.mem_append_left _ hjob

theorem InStep.durably (h : InStep registry log) : Durably registry log := by
  intro jobId job hjob
  rw [h.jobs] at hjob
  exact List.mem_of_getLast? hjob

-- A handle keeps its jobs while the journal grows.
theorem Grown.durably (h : Grown allowed jobId log log') (hbefore : Durably registry log)
    (hjobs : ∀ other, after.job? other = registry.job? other) : Durably after log' := by
  intro other job hjob
  rw [hjobs] at hjob
  exact h.history_subset (hbefore other job hjob)

theorem Grown.isPrefix (h : Grown allowed jobId log log') : log <+: log' := by
  obtain ⟨more, rfl, -⟩ := h
  exact List.prefix_append _ _

-- The last snapshot of a job is an old one, or of the kind that was added.
theorem Grown.getLast (h : Grown allowed jobId log log')
    (hlast : (history other log').getLast? = some job) :
    (history other log).getLast? = some job ∨ (other = jobId ∧ allowed job) := by
  obtain ⟨more, rfl, hmore⟩ := h
  rw [history_append] at hlast
  cases hrest : history other more with
  | nil =>
      rw [hrest, List.append_nil] at hlast
      exact .inl hlast
  | cons first rest =>
      rw [hrest, List.getLast?_append_cons] at hlast
      have hjob : job ∈ history other more := by
        rw [hrest]
        exact List.mem_of_getLast? hlast
      obtain ⟨⟨record, hrecord, rfl⟩, hid⟩ := mem_history.mp hjob
      exact .inr ⟨hid.symm.trans (hmore record hrecord).1, (hmore record hrecord).2⟩

-- A call that changes nothing the journal is about.
theorem Tracks.idle (h : Tracks registry log) (hfile : after.journal.file = registry.journal.file)
    (hpoisoned : after.poisoned = registry.poisoned)
    (hjobs : ∀ other, after.job? other = registry.job? other) :
    Advanced allowed jobId registry log o after log where
  grown := .refl
  file := hfile ▸ List.prefix_refl _
  filed := by rw [hfile]; exact h.filed
  orderly := h.orderly
  durably _ other job hjob := h.durably other job (by rw [← hjobs, hjob])
  inStep _ hfree := by
    obtain ⟨hfiled, hstep⟩ := h.inStep (hpoisoned ▸ hfree)
    exact ⟨by rw [hfile]; exact hfiled, fun other => by rw [hjobs, hstep]⟩
  elsewhere other _ := hjobs other
  poisoned hfree := by rw [hpoisoned, hfree]

theorem Tracks.refl (h : Tracks registry log) : Advanced allowed jobId registry log o registry log :=
  h.idle rfl rfl fun _ => rfl

theorem Advanced.tracks (h : Advanced allowed jobId registry log o after log') (ho : o ≠ .crashed) :
    Tracks after log' where
  filed := h.filed
  orderly := h.orderly
  durably := h.durably ho
  inStep := h.inStep ho

theorem Advanced.trans {o' : Outcome RuntimeJobError β}
    (h : Advanced allowed jobId registry log o after log')
    (h' : Advanced allowed jobId after log' o' last log'') :
    Advanced allowed jobId registry log o' last log'' where
  grown := h.grown.trans h'.grown
  file := h.file.trans h'.file
  filed := h'.filed
  orderly := h'.orderly
  durably := h'.durably
  inStep := h'.inStep
  elsewhere other hother := (h'.elsewhere other hother).trans (h.elsewhere other hother)
  poisoned hfree := h'.poisoned (h.poisoned hfree)

theorem Advanced.mono (h : Advanced allowed jobId registry log o after log')
    (hallowed : ∀ job, allowed job → weaker job) :
    Advanced weaker jobId registry log o after log' :=
  { h with grown := h.grown.mono hallowed }

theorem Advanced.outcome {o' : Outcome RuntimeJobError β}
    (h : Advanced allowed jobId registry log o after log') (ho : o' ≠ .crashed → o ≠ .crashed) :
    Advanced allowed jobId registry log o' after log' :=
  { h with
    durably := fun hrest => h.durably (ho hrest)
    inStep := fun hrest => h.inStep (ho hrest) }

-- The job a handle knows is the last snapshot of its history.
theorem Tracks.known (h : Tracks registry log) (hfree : registry.poisoned = false)
    (hjob : registry.job? jobId = some job) :
    (history jobId log).getLast? = some job ∧ job ∈ history jobId log ∧ job.jobId = jobId ∧
      job.Sound := by
  have hlast := (h.inStep hfree).jobs jobId
  rw [hjob] at hlast
  have hmem := List.mem_of_getLast? hlast.symm
  obtain ⟨⟨record, hrecord, rfl⟩, hid⟩ := mem_history.mp hmem
  exact ⟨hlast.symm, hmem, hid, h.orderly.sound record hrecord⟩

-- The fields of the registry that each of its updates keeps.

@[simp]
theorem replaceJob_job (next : RuntimeJobV1) (registry : RegistryState) (jobId : String) :
    (registry.replaceJob next).job? jobId =
      if next.jobId = jobId then (registry.job? jobId).map fun _ => next
      else registry.job? jobId := by
  simp only [RegistryState.job?, RegistryState.replaceJob, Std.ExtTreeMap.getElem?_modify,
    Std.LawfulEqCmp.compare_eq_iff_eq]
  split
  · rename_i hid
    subst hid
    rw [Option.map_map, Option.map_map]
    rfl
  · rfl

@[simp]
theorem cancelToken_job (registry : RegistryState) (jobId other : String) :
    (registry.cancelToken jobId).job? other = registry.job? other := by
  simp only [RegistryState.job?, RegistryState.cancelToken, Std.ExtTreeMap.getElem?_modify,
    Std.LawfulEqCmp.compare_eq_iff_eq]
  split
  · rename_i hid
    subst hid
    rw [Option.map_map]
    rfl
  · rfl

@[simp]
theorem register_job (job : RuntimeJobV1) (registry : RegistryState) (other : String) :
    (registry.register job).job? other =
      if job.jobId = other then some job else registry.job? other := by
  simp only [RegistryState.job?, RegistryState.register, Std.ExtTreeMap.getElem?_insert,
    Std.LawfulEqCmp.compare_eq_iff_eq]
  split <;> rfl

end M1nd.Mcp

namespace M1nd.Mcp

open M1nd.Control
open M1nd.Library.Checks
open M1nd.Library.Durable
open M1nd.Library.Json (Bytes)
open ChainedJournal (lineEnd)

variable [Sha256] {α : Type} {registry after : RegistryState}
  {log log' : List RuntimeJobJournalRecordV1} {allowed : RuntimeJobV1 → Prop}
  {jobId reason : String} {job current next : RuntimeJobV1} {target : RuntimeJobState}
  {flag : Bool} {result : Option RuntimeJobTerminalResultV1} {clock : Clock} {now : Nat}

-- A call about one job leaves a log in which only that job has moved.
def JobAdvances (allowed : RuntimeJobV1 → Prop) (jobId : String) (registry : RegistryState)
    (log : List RuntimeJobJournalRecordV1) (o : Outcome RuntimeJobError α) (after : RegistryState) :
    Prop :=
  ∃ log', Advanced allowed jobId registry log o after log'

-- Looking a job up.

omit [Sha256] in
theorem findJob_always {post : Outcome RuntimeJobError RuntimeJobV1 → RegistryState → Prop}
    (hunknown : registry.job? jobId = none → post (.refused (.UnknownJob jobId)) registry)
    (hknown : ∀ job, registry.job? jobId = some job → post (.returned job) registry) :
    Always (findJob jobId) registry post := by
  refine .bind (.get ?_)
  unfold RegistryState.job? at hunknown hknown
  cases hentry : registry.jobs[jobId]? with
  | none =>
      simp only [hentry]
      exact .refuse (hunknown (by rw [hentry]; rfl))
  | some entry =>
      simp only [hentry]
      exact .pure (hknown _ (by rw [hentry]; rfl))

omit [Sha256] in
theorem snapshot_always {post : Outcome RuntimeJobError RuntimeJobV1 → RegistryState → Prop}
    (hunknown : registry.job? jobId = none → post (.refused (.UnknownJob jobId)) registry)
    (hknown : ∀ job, registry.job? jobId = some job →
      post (.returned (observableJob clock job)) registry) :
    Always (snapshot jobId clock) registry post :=
  .bind (findJob_always hunknown fun job hjob => .pure (hknown job hjob))

omit [Sha256] in
theorem findJob_bind {follow : RuntimeJobV1 → JobProgram α}
    {post : Outcome RuntimeJobError α → RegistryState → Prop}
    (hunknown : registry.job? jobId = none → post (.refused (.UnknownJob jobId)) registry)
    (hknown : ∀ job, registry.job? jobId = some job → Always (follow job) registry post) :
    Always (findJob jobId >>= follow) registry post :=
  .bind (findJob_always hunknown hknown)

omit [Sha256] in
theorem snapshot_bind {follow : RuntimeJobV1 → JobProgram α}
    {post : Outcome RuntimeJobError α → RegistryState → Prop}
    (hunknown : registry.job? jobId = none → post (.refused (.UnknownJob jobId)) registry)
    (hknown : ∀ job, registry.job? jobId = some job →
      Always (follow (observableJob clock job)) registry post) :
    Always (snapshot jobId clock >>= follow) registry post :=
  .bind (snapshot_always hunknown hknown)

omit [Sha256] in
theorem observableJob_fields (clock : Clock) (job : RuntimeJobV1) :
    (observableJob clock job).state = job.state ∧
      (observableJob clock job).commitInProgress = job.commitInProgress := by
  unfold observableJob
  split <;> exact ⟨rfl, rfl⟩

-- Appending to the journal.

theorem nextRecord_job (registry : RegistryState) (job : RuntimeJobV1) :
    (registry.nextRecord job).job = job := rfl

omit [Sha256] in
theorem job_of_jobs (h : after.jobs = registry.jobs) (other : String) :
    after.job? other = registry.job? other := by
  rw [RegistryState.job?, h, RegistryState.job?]

-- The snapshot is durable, or the handle is poisoned, or the process is gone.
theorem appendJournal_spec (h : Tracks registry log) (hfree : registry.poisoned = false)
    (hid : next.jobId = jobId) (hallowed : allowed next)
    (horderly : Orderly (log ++ [registry.nextRecord next])) :
    Always (appendJournal next) registry fun o after =>
      after.jobs = registry.jobs ∧
        (o = .returned () → after.poisoned = false ∧
          Filed after.journal.file (log ++ [registry.nextRecord next]) [] ∧
          registry.journal.file <+: after.journal.file) ∧
        (o ≠ .returned () → (o ≠ .crashed → after.poisoned = true) ∧
          ∀ {β : Type} (o' : Outcome RuntimeJobError β), (o' ≠ .crashed → o ≠ .crashed) →
            JobAdvances allowed jobId registry log o' after) := by
  have hfiled := (h.inStep hfree).filed
  have hgrown : Grown allowed jobId log (log ++ [registry.nextRecord next]) := by
    refine ⟨_, rfl, fun record hrecord => ?_⟩
    rw [List.mem_singleton.mp hrecord]
    exact ⟨hid, hallowed⟩
  have hpart : ∀ (o : Outcome RuntimeJobError Unit) (after : RegistryState) (reached : Nat),
      after.jobs = registry.jobs → (o ≠ .crashed → after.poisoned = true) →
      after.journal.file = registry.journal.file ++
        ((registry.nextRecord next).toVec ++ [lineEnd]).take reached →
      ∀ {β : Type} (o' : Outcome RuntimeJobError β), (o' ≠ .crashed → o ≠ .crashed) →
        JobAdvances allowed jobId registry log o' after := by
    intro o after reached hjobs hpoison hfile β o' ho
    have hlost : o' ≠ .crashed → after.poisoned = false → False := by
      intro hrest hsafe
      rw [hpoison (ho hrest)] at hsafe
      cases hsafe
    have hkeep : registry.poisoned = true → after.poisoned = true := by
      rw [hfree]
      exact nofun
    obtain hwhole | hcut := hfiled.append (registry.nextRecord next) reached
    · exact ⟨_, hgrown, ⟨_, hfile.symm⟩, ⟨_, by rw [hfile]; exact hwhole⟩, horderly,
        fun _ => hgrown.durably h.durably (job_of_jobs hjobs),
        fun hrest hsafe => absurd hsafe (hlost hrest), fun other _ => job_of_jobs hjobs other, hkeep⟩
    · exact ⟨log, .refl, ⟨_, hfile.symm⟩, ⟨_, by rw [hfile]; exact hcut⟩, h.orderly,
        fun _ => Grown.durably (.refl : Grown allowed jobId log log) h.durably (job_of_jobs hjobs),
        fun hrest hsafe => absurd hsafe (hlost hrest), fun other _ => job_of_jobs hjobs other, hkeep⟩
  refine .bind (.get (.bind (.orElse (.step ?_ ?_ ?_))))
  · exact .modify ⟨rfl, fun _ => ⟨hfree, hfiled.concat, List.prefix_append _ _⟩,
      fun hne => absurd rfl hne⟩
  · intro reached
    refine .bind (.modify (.refuse ⟨rfl, nofun, fun _ => ⟨fun _ => rfl, ?_⟩⟩))
    intro β o' ho
    refine hpart (.refused .Io) _ reached ?_ ?_ ?_ o' ho
    · rfl
    · exact fun _ => rfl
    · rfl
  · intro reached
    refine ⟨rfl, nofun, fun _ => ⟨fun ho => absurd rfl ho, ?_⟩⟩
    intro β o' ho
    refine hpart .crashed _ reached ?_ ?_ ?_ o' ho
    · rfl
    · exact fun ho => absurd rfl ho
    · rfl

-- The one way a registered job moves: the snapshot goes to the journal, then to the map.
theorem appendThenReplace_spec (h : Tracks registry log)
    (hdue : registry.poisoned = false → Due allowed jobId registry next) :
    Always (appendThenReplace next) registry fun o after =>
      JobAdvances allowed jobId registry log o after ∧
        (o ≠ .returned () → o ≠ .crashed → after.poisoned = true) ∧
        (o = .returned () → after.poisoned = false ∧ after.job? jobId = some next) := by
  refine .bind (.get (.bind (.check ?_ ?_)))
  · intro _ hfree
    have hfree : registry.poisoned = false := by
      rw [rejectIf_eq_ok, Bool.not_eq_true] at hfree
      exact hfree
    obtain ⟨hid, hsound, hallowed, current, hcurrent, hahead⟩ := hdue hfree
    have hstep := h.inStep hfree
    have horderly : Orderly (log ++ [registry.nextRecord next]) := by
      refine h.orderly.concat hsound fun last hlast => ?_
      rw [nextRecord_job, hid, ← hstep.jobs, hcurrent] at hlast
      rw [← Option.some.inj hlast]
      exact hahead
    refine .bind ((appendJournal_spec h hfree hid hallowed horderly).mono ?_)
    rintro (_ | error | _) after ⟨hjobs, hdone, hfailed⟩
    · obtain ⟨hsafe, hfiled, hprefix⟩ := hdone rfl
      have hafter : InStep (after.replaceJob next) (log ++ [registry.nextRecord next]) := by
        refine ⟨hfiled, fun other => ?_⟩
        rw [replaceJob_job, job_of_jobs hjobs, history_concat, nextRecord_job]
        by_cases hother : next.jobId = other
        · obtain rfl : jobId = other := hid.symm.trans hother
          rw [if_pos hother, if_pos hother, hcurrent, List.getLast?_concat]
          rfl
        · rw [if_neg hother, if_neg hother, List.append_nil, hstep.jobs]
      refine .modify ⟨⟨_, ⟨_, rfl, fun record hrecord => ?_⟩, hprefix, ⟨_, hfiled⟩, horderly,
        fun _ => hafter.durably, fun _ _ => hafter, ?_, ?_⟩, fun hne => absurd rfl hne,
        fun _ => ⟨hsafe, ?_⟩⟩
      · rw [List.mem_singleton.mp hrecord]
        exact ⟨hid, hallowed⟩
      · intro other hother
        rw [replaceJob_job, if_neg fun hsame => hother (hsame.symm.trans hid), job_of_jobs hjobs]
      · rw [hfree]
        exact nofun
      · rw [replaceJob_job, if_pos hid, job_of_jobs hjobs, hcurrent]
        rfl
    · obtain ⟨hpoison, hadvances⟩ := hfailed nofun
      exact ⟨hadvances _ fun _ => nofun, fun _ _ => hpoison nofun, nofun⟩
    · obtain ⟨-, hadvances⟩ := hfailed nofun
      exact ⟨hadvances _ id, fun _ ho => absurd rfl ho, nofun⟩
  · intro error herror
    obtain ⟨hpoisoned, -⟩ := rejectIf_eq_error.mp herror
    exact ⟨⟨log, h.refl⟩, fun _ _ => hpoisoned, nofun⟩

end M1nd.Mcp
