import M1nd.Mcp.RuntimeJobs.Supervision

namespace M1nd.Mcp

open M1nd.Control
open M1nd.Library.Checks
open M1nd.Library.Durable

section State

variable {ν : Type} {workers : List (Worker ν)} {registry : RegistryState}

-- What the phases of the workers say of their jobs.
structure Steady (workers : List (Worker ν)) (registry : RegistryState) : Prop where
  started : ∀ worker ∈ workers, worker.phase.Started → Unstarted worker.jobId registry
  owned : ∀ worker ∈ workers, worker.phase.Owns → Held worker.jobId registry

-- Every job that is not over has a worker that has not returned.
def Attended (workers : List (Worker ν)) (registry : RegistryState) : Prop :=
  registry.poisoned = false → ∀ jobId job, registry.job? jobId = some job →
    job.state.isTerminal = false → ∃ worker ∈ workers, worker.jobId = jobId ∧ worker.phase ≠ .Ended

def JobProcess.Steady : JobProcess ν → Prop
  | .Closed _ => True
  | .Open registry workers _ => Mcp.Steady workers registry

def JobProcess.Attended : JobProcess ν → Prop
  | .Closed _ => True
  | .Open registry workers _ => Mcp.Attended workers registry

-- A condition on the steps of the workers, in the process that they find.
def JobEvent.Meets (met : Worker ν → RegistryState → Turn ν → Prop) (process : JobProcess ν) :
    JobEvent ν → Prop
  | .Work index turn => ∀ registry workers closers worker, process = .Open registry workers closers →
      registry.poisoned = false → workers[index]? = some worker → met worker registry turn
  | _ => True

def JobEvent.Unraced (process : JobProcess ν) (event : JobEvent ν) : Prop :=
  event.Meets (fun worker registry turn => worker.phase.Unraced worker.jobId registry turn) process

theorem Tracks.keyed {log : List RuntimeJobJournalRecordV1} (h : Tracks registry log) :
    Keyed registry := by
  intro jobId job hjob
  exact (mem_history.mp (h.durably jobId job hjob)).2

theorem steady_of_over
    (hover : ∀ jobId job, registry.job? jobId = some job → job.state.isTerminal = true) :
    Steady workers registry ∧ Attended workers registry := by
  refine ⟨⟨fun worker _ _ job hjob hpending => ?_, fun worker _ _ job hjob => .inl (hover _ job hjob)⟩, ?_⟩
  · have hterminal := hover _ job hjob
    rw [hpending] at hterminal
    cases hterminal
  · intro _ jobId job hjob hactive
    rw [hover jobId job hjob] at hactive
    cases hactive

end State

section Threads

variable [Sha256] {ν : Type} {R : RuntimeJobV1 → RuntimeJobV1 → Prop} {jobId : String}
  {workers : List (Worker ν)} {worker : Worker ν} {registry after : RegistryState}
  {phase : WorkerPhase ν} {index : Nat} {log : List RuntimeJobJournalRecordV1}
  {invocations : List Invocation}

-- The other threads leave the workers to their jobs.
theorem Steady.leads (h : Steady workers registry) (hleads : Leads R jobId registry after)
    (hR : ∀ current next, R current next → Later current next) : Steady workers after :=
  ⟨fun worker hworker hstarted => (h.started worker hworker hstarted).leads hleads hR,
    fun worker hworker howns => (h.owned worker hworker howns).leads hleads hR⟩

theorem Attended.leads (h : Attended workers registry) (hleads : Leads R jobId registry after)
    (hR : ∀ current next, R current next → Later current next) : Attended workers after := by
  intro hsafe other job hjob hactive
  obtain ⟨before, hbefore, hlater⟩ := hleads.later hR hjob
  refine h (hleads.safe hsafe) other before hbefore ?_
  by_contra hterminal
  rw [Bool.not_eq_false] at hterminal
  rw [hlater.terminal hterminal] at hactive
  cases hactive

-- A step of one worker, seen from all of them.
theorem Steady.step (h : Steady workers registry) (hworkers : WorkersHold workers registry log invocations)
    (hworker : workers[index]? = some worker) (hleads : Leads R worker.jobId registry after)
    (hstarted : phase.Started → Unstarted worker.jobId after)
    (howned : phase.Owns → Held worker.jobId after) :
    Steady (workers.set index ⟨worker.jobId, phase⟩) after := by
  refine ⟨fun other hother hphase => ?_, fun other hother hphase => ?_⟩
  all_goals obtain rfl | ⟨hmem, hid⟩ := mem_set_worker hworkers.nodup hworker hother
  · exact hstarted hphase
  · intro job hjob
    rw [hleads.elsewhere hid] at hjob
    exact h.started other hmem hphase job hjob
  · exact howned hphase
  · intro job hjob
    rw [hleads.elsewhere hid] at hjob
    exact h.owned other hmem hphase job hjob

theorem Attended.step (h : Attended workers registry) (hworker : workers[index]? = some worker)
    (hleads : Leads R worker.jobId registry after)
    (hattends : registry.poisoned = false → phase ≠ .Ended ∨ Over worker.jobId after) :
    Attended (workers.set index ⟨worker.jobId, phase⟩) after := by
  intro hsafe jobId job hjob hactive
  have hbound : index < workers.length := (List.getElem?_eq_some_iff.mp hworker).1
  by_cases hid : jobId = worker.jobId
  · subst hid
    obtain hlive | hover := hattends (hleads.safe hsafe)
    · exact ⟨_, List.mem_set hbound _, rfl, hlive⟩
    · rw [hover hsafe job hjob] at hactive
      cases hactive
  · rw [hleads.elsewhere hid] at hjob
    obtain ⟨other, hother, hsame, hlive⟩ := h (hleads.safe hsafe) jobId job hjob hactive
    refine ⟨other, mem_set_of_ne hworker hother ?_, hsame, hlive⟩
    rintro rfl
    exact hid hsame.symm

-- A new job comes with its worker.
theorem Steady.register (h : Steady workers registry) {job : RuntimeJobV1} (hid : job.jobId = jobId) (hworkers : ∀ worker ∈ workers, worker.jobId ≠ jobId) :
    Steady (workers ++ [⟨jobId, .Registered⟩]) (registry.registered job) := by
  have hkept : ∀ worker ∈ workers, (registry.registered job).job? worker.jobId = registry.job? worker.jobId := by
    intro worker hworker
    rw [registered_job, if_neg]
    rw [hid]
    exact Ne.symm (hworkers worker hworker)
  refine ⟨fun worker hworker hphase => ?_, fun worker hworker hphase => ?_⟩
  all_goals obtain hworker | hworker := List.mem_append.mp hworker
  · intro job hjob
    rw [hkept worker hworker] at hjob
    exact h.started worker hworker hphase job hjob
  · obtain rfl := List.mem_singleton.mp hworker
    exact hphase.elim
  · intro job hjob
    rw [hkept worker hworker] at hjob
    exact h.owned worker hworker hphase job hjob
  · obtain rfl := List.mem_singleton.mp hworker
    exact hphase.elim

theorem Attended.register (h : Attended workers registry) (hsafe : registry.poisoned = false)
    {job : RuntimeJobV1} (hid : job.jobId = jobId) :
    Attended (workers ++ [⟨jobId, .Registered⟩]) (registry.registered job) := by
  intro _ other found hfound hactive
  rw [registered_job] at hfound
  split at hfound
  · rename_i hsame
    exact ⟨⟨jobId, .Registered⟩, by simp, hid.symm.trans hsame, nofun⟩
  · obtain ⟨worker, hworker, hmatch, hlive⟩ := h hsafe other found hfound hactive
    exact ⟨worker, List.mem_append_left _ hworker, hmatch, hlive⟩

end Threads

section Run

variable [Sha256] {fromSlice : RuntimeJobDecoder} {ν : Type} {registry : RegistryState}
  {log : List RuntimeJobJournalRecordV1} {invocations : List Invocation} {workers : List (Worker ν)}
  {worker : Worker ν} {closers : List Closer} {closer : Closer} {index : Nat} {turn : Turn ν}
  {fates : List Fate} {world : JobWorld ν} {event : JobEvent ν} {process : JobProcess ν}

-- The phases are kept, and so are the workers of the jobs where a condition is met.
def Attending (met : Prop) (process : JobProcess ν) : Prop :=
  process.Steady ∧ (met → process.Attended)

omit [Sha256] in
theorem attending_of_over {met : Prop} (hover : ∀ registry workers closers,
    process = .Open registry workers closers →
      ∀ jobId job, registry.job? jobId = some job → job.state.isTerminal = true) :
    Attending met process := by
  cases process with
  | Closed file => exact ⟨trivial, fun _ => trivial⟩
  | Open registry workers closers =>
      obtain ⟨hsteady, hattended⟩ := steady_of_over (hover registry workers closers rfl)
      exact ⟨hsteady, fun _ => hattended⟩

theorem submitProcess_attending (htracks : Tracks registry log)
    (hworkers : WorkersHold workers registry log invocations) (hsteady : Steady workers registry)
    (request : RuntimeJobRequestV1) (clock : Clock) :
    Attending (Attended workers registry) (submitProcess request clock fates registry workers closers) := by
  have hspec : Always (do
      Program.check (validateJobRequest request)
      registerPending request clock) registry (Registers request registry) :=
    .bind (.check (fun _ _ => registerPending_registers) fun _ _ => ⟨(by simp), fun _ _ => .inl rfl, (by simp)⟩)
  refine JobProcess.enter_cases hspec ?_ ?_ ?_
  · rintro _ after hregisters
    obtain ⟨hsafe, hnew, -, now, rfl⟩ := hregisters.returned rfl
    refine ⟨hsteady.register rfl fun worker hworker hsame => ?_, fun hattended => hattended.register hsafe rfl⟩
    refine hworkers.known worker hworker ?_
    rw [hsame, ← List.getLast?_eq_none_iff, ← (htracks.inStep hsafe).jobs, RegistryState.job?,
      Std.ExtTreeMap.getElem?_eq_none hnew]
    rfl
  · rintro error after hregisters
    obtain rfl | ⟨-, -, -, now, reached, rfl⟩ := hregisters.refused error rfl
    · exact ⟨hsteady, id⟩
    · exact ⟨⟨hsteady.started, hsteady.owned⟩, fun _ hsafe => absurd hsafe.symm Bool.false_ne_true⟩
  · exact fun _ _ => ⟨trivial, fun _ => trivial⟩

theorem workProcess_attending (htracks : Tracks registry log)
    (hworkers : WorkersHold workers registry log invocations) (hsteady : Steady workers registry)
    (hworker : workers[index]? = some worker) :
    Attending ((registry.poisoned = false → worker.phase.Unraced worker.jobId registry turn) ∧
        Attended workers registry)
      (workProcess index turn worker registry workers closers) := by
  have hmem := List.mem_of_getElem? hworker
  by_cases hlive : worker.phase = .Ended
  · have hstay : Always (worker.phase.step worker.jobId turn) registry fun o after =>
        o = .returned .Ended ∧ after = registry := by
      rw [hlive]
      exact .pure ⟨rfl, rfl⟩
    have hsame : workers.set index ⟨worker.jobId, .Ended⟩ = workers := by
      obtain ⟨hbound, hget⟩ := List.getElem?_eq_some_iff.mp hworker
      rw [← hlive, ← hget]
      exact List.set_getElem_self hbound
    refine JobProcess.enter_cases hstay ?_ nofun nofun
    rintro _ after ⟨⟨⟩, rfl⟩
    rw [hsame]
    exact ⟨hsteady, fun hmet => hmet.2⟩
  · refine JobProcess.enter_cases (WorkerPhase.step_leads htracks.keyed (hsteady.started worker hmem)
      (hsteady.owned worker hmem) hlive) ?_ ?_ ?_
    · rintro phase after ⟨hleads, hphase, hattends⟩
      exact ⟨hsteady.step hworkers hworker hleads hphase.1 hphase.2,
        fun hmet => hmet.2.step hworker hleads fun hsafe => hattends (hmet.1 hsafe)⟩
    · rintro error after ⟨hleads, -, hattends⟩
      exact ⟨hsteady.step hworkers hworker hleads (fun h => h.elim) fun h => h.elim,
        fun hmet => hmet.2.step hworker hleads fun hsafe => .inr (hattends (hmet.1 hsafe))⟩
    · exact fun _ _ => ⟨trivial, fun _ => trivial⟩

-- The other threads, of which every outcome but a crash leaves the workers as they are.
theorem enter_attending {α : Type} {R : RuntimeJobV1 → RuntimeJobV1 → Prop} {jobId : String}
    {program : JobProgram α} {returned : α → List Closer} {refused : List Closer}
    (hsteady : Steady workers registry)
    (h : Always program registry fun o after => LeadsTo R jobId registry o after)
    (hR : ∀ current next, R current next → Later current next) :
    Attending (Attended workers registry) (JobProcess.enter program fates registry
      (fun value after => .Open after workers (returned value))
      fun after => .Open after workers refused) := by
  refine JobProcess.enter_cases h ?_ ?_ ?_
  · exact fun _ after hleads => ⟨hsteady.leads hleads hR, fun hattended => hattended.leads hleads hR⟩
  · exact fun _ after hleads => ⟨hsteady.leads hleads hR, fun hattended => hattended.leads hleads hR⟩
  · exact fun _ _ => ⟨trivial, fun _ => trivial⟩

theorem JobsHold.attending (hdecode : RuntimeJobReadsBack fromSlice) (h : JobsHold world log)
    (hsteady : world.process.Steady) :
    Attending (event.Unraced world.process ∧ world.process.Attended)
      (world.apply fromSlice event).process := by
  obtain ⟨process, invocations⟩ := world
  obtain ⟨hrecorded, hlive⟩ := h
  cases process with
  | Closed file =>
      cases event with
      | Open maxInFlight ticks fates =>
          exact attending_of_over (openFile_reopened hdecode hrecorded maxInFlight ticks).2
      | _ => exact ⟨trivial, fun _ => trivial⟩
  | Open registry workers closers =>
      obtain ⟨htracks, hworkers⟩ := hlive
      cases event with
      | Open maxInFlight ticks fates => exact ⟨hsteady, fun hmet => hmet.2⟩
      | Submit request clock fates =>
          obtain ⟨hphases, hattended⟩ := submitProcess_attending htracks hworkers hsteady request clock
          exact ⟨hphases, fun hmet => hattended hmet.2⟩
      | RequestCancel jobId clock fates =>
          obtain ⟨hphases, hattended⟩ := enter_attending hsteady
            (requestCancel_leads htracks.keyed) fun _ _ => CancelNext.later
          exact ⟨hphases, fun hmet => hattended hmet.2⟩
      | CloseAdmission => exact ⟨⟨hsteady.started, hsteady.owned⟩, fun hmet => hmet.2⟩
      | Shutdown => exact ⟨⟨hsteady.started, hsteady.owned⟩, fun hmet => hmet.2⟩
      | Drop => exact ⟨⟨hsteady.started, hsteady.owned⟩, fun hmet => hmet.2⟩
      | Work index turn =>
          unfold JobWorld.apply
          dsimp only
          split
          · exact ⟨hsteady, fun hmet => hmet.2⟩
          · rename_i worker hworker
            obtain ⟨hphases, hattended⟩ := workProcess_attending htracks hworkers hsteady hworker
            refine ⟨hphases, fun hmet => hattended ⟨fun hsafe => ?_, hmet.2⟩⟩
            exact hmet.1 registry workers closers worker rfl hsafe hworker
      | Close index ticks fates =>
          unfold JobWorld.apply
          dsimp only
          split
          · exact ⟨hsteady, fun hmet => hmet.2⟩
          · obtain ⟨hphases, hattended⟩ := enter_attending hsteady
              (Closer.step_leads htracks.keyed) fun _ _ => CloserNext.later
            exact ⟨hphases, fun hmet => hattended hmet.2⟩
      | Crash => exact ⟨trivial, fun _ => trivial⟩

end Run

end M1nd.Mcp
