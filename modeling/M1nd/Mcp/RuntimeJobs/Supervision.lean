import M1nd.Mcp.RuntimeJobs.CommitOnce
import M1nd.Mcp.RuntimeJobs.Snapshots

namespace M1nd.Mcp

open M1nd.Control
open M1nd.Library.Checks
open M1nd.Library.Durable
open ChainedJournal (lineEnd)

-- The order in which any thread moves a job: it never starts again, an ended job stays ended,
-- and a reserved commit is given up only at the end.
structure Later (before after : RuntimeJobV1) : Prop where
  pending : after.state = .Pending → before.state = .Pending
  terminal : before.state.isTerminal = true → after.state.isTerminal = true
  reserved : before.state = .Running → before.commitInProgress = true →
    after.state.isTerminal = true ∨ after.state = .Running ∧ after.commitInProgress = true

theorem Later.refl (job : RuntimeJobV1) : Later job job :=
  ⟨id, id, fun hrunning hcommit => .inr ⟨hrunning, hcommit⟩⟩

theorem Later.trans {a b c : RuntimeJobV1} (hab : Later a b) (hbc : Later b c) : Later a c where
  pending h := hab.pending (hbc.pending h)
  terminal h := hbc.terminal (hab.terminal h)
  reserved hrunning hcommit := by
    obtain hended | ⟨hstate, hreserved⟩ := hab.reserved hrunning hcommit
    · exact .inl (hbc.terminal hended)
    · exact hbc.reserved hstate hreserved

theorem CancelNext.later {current next : RuntimeJobV1} (h : CancelNext current next) :
    Later current next := by
  obtain ⟨hactive, hfree, reason, flag, now, -, rfl⟩ := h
  refine ⟨nofun, fun hterminal => ?_, fun _ hcommit => ?_⟩
  · rw [hactive] at hterminal
    cases hterminal
  · rw [hfree] at hcommit
    cases hcommit

-- What `shutdown` and the drop of the registry do to a job.
def CloserNext (current next : RuntimeJobV1) : Prop :=
  CancelNext current next ∨ ∃ finishedAt, TransitionNext .Cancelled
    (some (resultOf "shutdown_before_start" "job was cancelled before execution during shutdown"
      finishedAt)) current next

theorem CloserNext.later {current next : RuntimeJobV1} (h : CloserNext current next) :
    Later current next := by
  obtain h | ⟨finishedAt, -, -, -, reason, flag, now, rfl⟩ := h
  · exact h.later
  · exact ⟨nofun, fun _ => rfl, fun _ _ => .inl rfl⟩

section Phases

variable {ν : Type}

-- The worker has moved its job to running.
def WorkerPhase.Started : WorkerPhase ν → Prop
  | .Registered | .Ended => False
  | _ => True

-- The snapshots that a worker makes in each of its phases.
def WorkerPhase.Next (jobId : String) (registry : RegistryState) (turn : Turn ν) :
    WorkerPhase ν → RuntimeJobV1 → RuntimeJobV1 → Prop
  | .Registered => TransitionNext .Running none
  | .SpawnFailed error => TransitionNext .Failed
      (some (resultOf "worker_spawn_failed" error (nowUnixMsOrMax (turn.ticks 0))))
  | .Supervising => fun current next => ∃ error, turn.spawnError = some error ∧
      TransitionNext .Failed (some (resultOf "prepare_spawn_failed" error
        (nowUnixMsOrMax (turn.ticks 0)))) current next
  | .Preparing => CancelNext
  | .Received (some prepared) => fun current next => turn.joined = true ∧
      ∃ first, registry.job? jobId = some first ∧
        FinishNext first prepared (nowUnixMsOrMax (turn.ticks 0)) current next
  | .Panicked _ => TransitionNext .Failed (some (resultOf "worker_panicked"
      "preparation worker panicked; cleanup cannot be proven" (nowUnixMsOrMax (turn.ticks 0))))
  | .Committed now outcome => CommitNext outcome (nowUnixMsOr now (turn.ticks 0))
  | _ => fun _ _ => False

def Unstarted (jobId : String) (registry : RegistryState) : Prop :=
  ∀ job, registry.job? jobId = some job → job.state ≠ .Pending

-- A job whose commit is reserved stays so until it ends.
def Held (jobId : String) (registry : RegistryState) : Prop :=
  ∀ job, registry.job? jobId = some job →
    job.state.isTerminal = true ∨ job.state = .Running ∧ job.commitInProgress = true

-- The step that would leave a job behind is not taken: when `submit_prepared` moves its job to
-- running, the job is still pending or already over, and the clock can be read wherever a job
-- that is not over is moved to running or failed.
def WorkerPhase.Unraced (jobId : String) (registry : RegistryState) (turn : Turn ν) :
    WorkerPhase ν → Prop
  | .Registered => ∀ job, registry.job? jobId = some job →
      job.state.isTerminal = true ∨ job.state = .Pending ∧ ∃ now, turn.ticks 0 = .ok now
  | .SpawnFailed _ | .Panicked _ => Over jobId registry ∨ ∃ now, turn.ticks 1 = .ok now
  | .Supervising => turn.spawnError = none ∨ Over jobId registry ∨ ∃ now, turn.ticks 1 = .ok now
  | _ => True

end Phases

theorem TransitionNext.later {target : RuntimeJobState}
    {result : Option RuntimeJobTerminalResultV1} {current next : RuntimeJobV1}
    (h : TransitionNext target result current next) : Later current next := by
  obtain ⟨hcommit, hvalid, -, reason, flag, now, rfl⟩ := h
  refine ⟨fun hpending => ?_, fun hterminal => ?_, fun hrunning hreserved => ?_⟩
  · obtain rfl : target = .Pending := hpending
    cases hstate : current.state <;> rw [hstate] at hvalid <;> cases hvalid
  · cases hstate : current.state <;> rw [hstate] at hterminal hvalid <;> cases target <;>
      simp_all [RuntimeJobState.isTerminal, validTransition]
  · rw [hrunning] at hvalid
    cases target <;> simp_all [RuntimeJobState.isTerminal, validTransition, RuntimeJobV1.moved]

section Steps

variable [Sha256] {ν α : Type} {R : RuntimeJobV1 → RuntimeJobV1 → Prop} {jobId other : String}
  {code reason message : String} {flag : Bool} {ticks : Nat → Clock} {turn : Turn ν}
  {registry after : RegistryState} {job : RuntimeJobV1} {phase : WorkerPhase ν} {closer : Closer}
  {o : Outcome RuntimeJobError α}

theorem Leads.later (h : Leads R jobId registry after)
    (hR : ∀ current next, R current next → Later current next) (hjob : after.job? other = some job) :
    ∃ before, registry.job? other = some before ∧ Later before job := by
  induction h generalizing job with
  | refl => exact ⟨job, hjob, .refl job⟩
  | token _ ih =>
      rw [cancelToken_job] at hjob
      exact ih hjob
  | append _ _ hcurrent hid hnext ih =>
      rw [appended_job] at hjob
      split at hjob
      · rename_i hsame
        obtain rfl := hid.symm.trans hsame
        obtain ⟨_, -, rfl⟩ := Option.map_eq_some_iff.mp hjob
        obtain ⟨before, hbefore, hlater⟩ := ih hcurrent
        exact ⟨before, hbefore, hlater.trans (hR _ _ hnext)⟩
      · exact ih hjob
  | fail _ _ _ _ _ _ ih => exact ih hjob

theorem Leads.safe (h : Leads R jobId registry after) (hsafe : after.poisoned = false) :
    registry.poisoned = false := by
  by_contra hpoisoned
  rw [Bool.not_eq_false] at hpoisoned
  rw [h.poisoned hpoisoned] at hsafe
  cases hsafe

theorem Over.leads (hover : Over other registry) (h : Leads R jobId registry after)
    (hR : ∀ current next, R current next → Later current next) : Over other after := by
  intro hsafe job hjob
  obtain ⟨before, hbefore, hlater⟩ := h.later hR hjob
  exact hlater.terminal (hover (h.safe hsafe) before hbefore)

theorem Unstarted.leads (hstarted : Unstarted other registry) (h : Leads R jobId registry after)
    (hR : ∀ current next, R current next → Later current next) : Unstarted other after := by
  intro job hjob hpending
  obtain ⟨before, hbefore, hlater⟩ := h.later hR hjob
  exact hstarted before hbefore (hlater.pending hpending)

theorem Held.leads (hheld : Held other registry) (h : Leads R jobId registry after)
    (hR : ∀ current next, R current next → Later current next) : Held other after := by
  intro job hjob
  obtain ⟨before, hbefore, hlater⟩ := h.later hR hjob
  obtain hended | ⟨hrunning, hcommit⟩ := hheld before hbefore
  · exact .inl (hlater.terminal hended)
  · exact hlater.reserved hrunning hcommit

theorem LeadsTo.leads (h : LeadsTo R jobId registry o after) (ho : o ≠ .crashed) :
    Leads R jobId registry after := by
  cases o with
  | returned | refused => exact h
  | crashed => exact absurd rfl ho

-- A transition of a job that is not over is refused only where it is not legal, or the clock
-- cannot be read.
theorem transition_settles {target : RuntimeJobState} {result : Option RuntimeJobTerminalResultV1}
    {clock : Clock} (hkeyed : Keyed registry) (htarget : target ≠ .Cancelling ∧ target ≠ .Cancelled)
    (hresult : target.isTerminal = result.isSome)
    (hmet : Over jobId registry ∨ (∃ now, clock = .ok now) ∧ ∀ job, registry.job? jobId = some job →
      job.state.isTerminal = false → validTransition job.state target = true) :
    Always (transition jobId target reason flag result clock) registry fun o after =>
      o ≠ .crashed → o = .returned () ∨ Over jobId after := by
  by_cases hover : Over jobId registry
  · refine (transition_leads jobId target reason flag result clock hkeyed).mono ?_
    exact fun o after h ho => .inr (hover.leads (h.1.leads ho) fun _ _ => TransitionNext.later)
  · obtain ⟨⟨now, rfl⟩, hvalid⟩ := hmet.resolve_left hover
    simp only [Over, not_forall, Bool.not_eq_true] at hover
    obtain ⟨hsafe, job, hjob, hactive⟩ := hover
    have hcommit : ¬(job.commitInProgress = true ∧ (target = .Cancelling ∨ target = .Cancelled)) :=
      fun h => h.2.elim htarget.1 htarget.2
    refine (transition_moves reason flag now hjob (hkeyed _ _ hjob) hcommit (hvalid job hjob hactive)
      hresult).mono ?_
    rintro o after (hcrashed | hpoisoned | ⟨hreturned, -⟩) ho
    · exact absurd hcrashed ho
    · exact .inr (.of_poisoned hpoisoned)
    · exact .inl hreturned

-- A job that has started can be failed at any time.
theorem failJob_leads (hkeyed : Keyed registry) (hstarted : Unstarted jobId registry) :
    Always (failJob jobId code reason message flag ticks) registry fun o after =>
      LeadsTo (TransitionNext .Failed (some (resultOf code message (nowUnixMsOrMax (ticks 0)))))
        jobId registry o after ∧
      ((Over jobId registry ∨ ∃ now, ticks 1 = .ok now) → o ≠ .crashed → Over jobId after) := by
  have hvalid : ∀ job, registry.job? jobId = some job → job.state.isTerminal = false →
      validTransition job.state .Failed = true := by
    intro job hjob hactive
    have hpending := hstarted job hjob
    cases hstate : job.state <;> simp_all [validTransition, RuntimeJobState.isTerminal]
  intro fates
  have hleads := transition_leads jobId .Failed reason flag
    (some (resultOf code message (nowUnixMsOrMax (ticks 0)))) (ticks 1) hkeyed fates
  refine ⟨hleads.1, fun hmet ho => ?_⟩
  obtain hreturned | hover := transition_settles hkeyed ⟨by simp, by simp⟩ rfl
    (hmet.imp_right fun hclock => ⟨hclock, hvalid⟩) fates ho
  · obtain ⟨job, hjob, hstate, -⟩ := hleads.2 hreturned
    exact .of_job hjob (by rw [hstate]; rfl)
  · exact hover

-- What a step says of the phase that it ends in.
def Supervised (jobId : String) (after : RegistryState) :
    Outcome RuntimeJobError (WorkerPhase ν) → Prop
  | .returned next => (next.Started → Unstarted jobId after) ∧ (next.Owns → Held jobId after)
  | _ => True

-- A worker gives its job up only when the job is over.
def Attends (jobId : String) (after : RegistryState) :
    Outcome RuntimeJobError (WorkerPhase ν) → Prop
  | .returned next => next ≠ .Ended ∨ Over jobId after
  | .refused _ => Over jobId after
  | .crashed => True

-- A step that ends in a failed job.
theorem ends_leads {program : JobProgram Unit} (met : Prop)
    (h : Always program registry fun o after =>
      LeadsTo R jobId registry o after ∧ (met → o ≠ .crashed → Over jobId after)) :
    Always (do program; return (WorkerPhase.Ended : WorkerPhase ν)) registry fun o after =>
      LeadsTo R jobId registry o after ∧ Supervised jobId after o ∧ (met → Attends jobId after o) := by
  refine .bind (h.mono ?_)
  rintro (_ | error | _) after ⟨hleads, hover⟩
  · refine .pure ⟨hleads.outcome (by simp), ⟨fun hstarted => hstarted.elim, fun howns => howns.elim⟩, ?_⟩
    exact fun hmet => .inr (hover hmet nofun)
  · exact ⟨hleads.outcome (by simp), trivial, fun hmet => hover hmet nofun⟩
  · exact ⟨hleads.outcome (by simp), trivial, fun _ => trivial⟩

theorem WorkerPhase.step_leads (hkeyed : Keyed registry)
    (hstarted : phase.Started → Unstarted jobId registry) (howned : phase.Owns → Held jobId registry)
    (hlive : phase ≠ .Ended) :
    Always (phase.step jobId turn) registry fun o after =>
      LeadsTo (phase.Next jobId registry turn) jobId registry o after ∧ Supervised jobId after o ∧
        (phase.Unraced jobId registry turn → Attends jobId after o) := by
  -- A phase that only reads leaves the registry as it is.
  have hstay : ∀ next : WorkerPhase ν, next ≠ .Ended → (next.Started → Unstarted jobId registry) →
      (next.Owns → Held jobId registry) →
      Always (pure next : JobProgram (WorkerPhase ν)) registry fun o after =>
        LeadsTo (phase.Next jobId registry turn) jobId registry o after ∧ Supervised jobId after o ∧
          (phase.Unraced jobId registry turn → Attends jobId after o) :=
    fun next hnext hstarted howned => .pure ⟨.refl, ⟨hstarted, howned⟩, fun _ => .inl hnext⟩
  cases phase with
  | Registered =>
      have hleads := transition_leads jobId .Running "worker_starting" false none (turn.ticks 0) hkeyed
      have hsettles : Always (transition jobId .Running "worker_starting" false none (turn.ticks 0))
          registry fun o after => (WorkerPhase.Registered : WorkerPhase ν).Unraced jobId registry turn →
            o ≠ .crashed → o = .returned () ∨ Over jobId after := by
        intro fates hmet
        refine transition_settles hkeyed ⟨by simp, by simp⟩ rfl ?_ fates
        by_cases hover : Over jobId registry
        · exact .inl hover
        · simp only [Over, not_forall, Bool.not_eq_true] at hover
          obtain ⟨hsafe, job, hjob, hactive⟩ := hover
          obtain hterminal | ⟨hpending, hclock⟩ := hmet job hjob
          · rw [hterminal] at hactive
            cases hactive
          · refine .inr ⟨hclock, fun other hother _ => ?_⟩
            rw [← Option.some.inj (hjob.symm.trans hother), hpending]
            rfl
      refine .bind ((hleads.and hsettles).mono ?_)
      rintro (_ | error | _) after ⟨⟨hled, hmoved⟩, hsettled⟩
      · refine .pure ⟨hled.outcome (by simp), ⟨fun _ job hjob => ?_, False.elim⟩, fun _ => .inl (by simp)⟩
        obtain ⟨running, hrunning, hstate, -⟩ := hmoved rfl
        rw [← Option.some.inj (hrunning.symm.trans hjob), hstate]
        simp
      · exact ⟨hled.outcome (by simp), trivial, fun hmet => (hsettled hmet (by simp)).resolve_left (by simp)⟩
      · exact ⟨hled.outcome (by simp), trivial, fun _ => trivial⟩
  | Starting =>
      refine snapshot_bind (fun hnone => ⟨.refl, trivial, fun _ => .of_unknown hnone⟩) fun job hjob => ?_
      split
      · exact hstay .Supervising (by simp) (fun _ => hstarted trivial) False.elim
      · exact hstay (.SpawnFailed _) (by simp) (fun _ => hstarted trivial) False.elim
  | SpawnFailed error =>
      exact ends_leads _ (failJob_leads hkeyed (hstarted trivial))
  | Supervising =>
      simp only [WorkerPhase.step]
      cases hspawn : turn.spawnError with
      | none => exact hstay .Preparing (by simp) (fun _ => hstarted trivial) False.elim
      | some error =>
          refine (ends_leads _ (failJob_leads hkeyed (hstarted trivial))).mono ?_
          rintro o after ⟨hleads, hsupervised, hattends⟩
          refine ⟨hleads.mono fun _ _ hnext => ⟨error, hspawn, hnext⟩, hsupervised, fun hmet => ?_⟩
          refine hattends (hmet.resolve_left ?_)
          rw [hspawn]
          simp
  | Preparing =>
      simp only [WorkerPhase.step]
      split
      · exact hstay (.Received _) (by simp) (fun _ => hstarted trivial) False.elim
      · exact hstay (.Received none) (by simp) (fun _ => hstarted trivial) False.elim
      · have hoverdue : ∀ {after : RegistryState}, Leads CancelNext jobId registry after →
            LeadsTo (α := WorkerPhase ν) CancelNext jobId registry (.returned .Overdue) after ∧
              Supervised jobId after (.returned (.Overdue : WorkerPhase ν)) ∧
              ((WorkerPhase.Preparing : WorkerPhase ν).Unraced jobId registry turn →
                Attends jobId after (.returned (.Overdue : WorkerPhase ν))) := by
          intro after hleads
          refine ⟨hleads, ⟨fun _ => ?_, False.elim⟩, fun _ => .inl (by simp)⟩
          exact (hstarted trivial).leads hleads fun _ _ => CancelNext.later
        refine .bind (.orElse ((requestCancel_leads hkeyed).mono ?_))
        rintro (_ | error | _) after hleads
        · exact .pure (hoverdue hleads)
        · exact .pure (.pure (hoverdue hleads))
        · exact ⟨hleads.outcome (by simp), trivial, fun _ => trivial⟩
  | Overdue =>
      simp only [WorkerPhase.step]
      split
      · exact hstay (.Received _) (by simp) (fun _ => hstarted trivial) False.elim
      · exact hstay (.Received none) (by simp) (fun _ => hstarted trivial) False.elim
  | Received prepared =>
      have hpanic : Always (do
          let current ← snapshot jobId (turn.ticks 0)
          if current.state.isTerminal then return WorkerPhase.Ended
          else return (WorkerPhase.Panicked current : WorkerPhase ν)) registry fun o after =>
          LeadsTo ((WorkerPhase.Received prepared).Next jobId registry turn) jobId registry o after ∧
            Supervised jobId after o ∧
            ((WorkerPhase.Received prepared).Unraced jobId registry turn → Attends jobId after o) := by
        refine snapshot_bind (fun hnone => ⟨.refl, trivial, fun _ => .of_unknown hnone⟩) fun job hjob => ?_
        split
        · rename_i hterminal
          rw [(observableJob_fields _ _).1] at hterminal
          exact .pure ⟨.refl, ⟨fun h => h.elim, fun h => h.elim⟩, fun _ => .inr (.of_job hjob hterminal)⟩
        · exact hstay (.Panicked _) (by simp) (fun _ => hstarted trivial) False.elim
      cases prepared with
      | none => exact hpanic
      | some prepared =>
          cases hjoined : turn.joined <;> simp only [WorkerPhase.step, hjoined]
          · exact hpanic
          · refine .bind ((finishAfterPrepare_leads hkeyed (hstarted trivial)).mono ?_)
            rintro (reserved | error | _) after ⟨hfinished, hend⟩
            all_goals have hleads := hfinished.mono fun _ _ hnext => And.intro hjoined hnext
            · cases reserved with
              | none =>
                  have hover : Over jobId after := hend
                  refine .pure ⟨hleads.outcome (by simp), ?_, fun _ => .inr hover⟩
                  exact ⟨fun h => h.elim, fun h => h.elim⟩
              | some reserved =>
                  obtain ⟨value, now⟩ := reserved
                  obtain ⟨job, hjob, hrunning, hcommit⟩ := hend
                  have hsame : ∀ other, after.job? jobId = some other → job = other :=
                    fun other hother => Option.some.inj (hjob.symm.trans hother)
                  refine .pure ⟨hleads.outcome (by simp), ⟨fun _ other hother => ?_, fun _ other hother => ?_⟩,
                    fun _ => .inl (by simp)⟩
                  · rw [← hsame other hother, hrunning]
                    simp
                  · rw [← hsame other hother]
                    exact .inr ⟨hrunning, hcommit⟩
            · exact ⟨hleads.outcome (by simp), trivial, fun _ => hend⟩
            · exact ⟨hleads.outcome (by simp), trivial, fun _ => trivial⟩
  | Panicked current =>
      exact ends_leads _ (failJob_leads hkeyed (hstarted trivial))
  | Reserved value now =>
      exact hstay (.Committed now turn.outcome) (by simp) (fun _ => hstarted trivial) fun _ => howned trivial
  | Committed now outcome =>
      refine (ends_leads True ((finishCommit_leads hkeyed (howned trivial)).mono
        fun o after h => ⟨h.1, fun _ => h.2⟩)).mono ?_
      exact fun o after h => ⟨h.1, h.2.1, fun _ => h.2.2 trivial⟩
  | Ended => exact absurd rfl hlive

-- The job that the next step of a closer is about.
def Closer.target : Closer → String
  | .Shutdown (jobId :: _) | .ShutdownPending jobId _ | .ShutdownActive jobId _
  | .Drop (jobId :: _) => jobId
  | _ => ""

theorem Closer.step_leads (hkeyed : Keyed registry) :
    Always (closer.step ticks) registry fun o after =>
      LeadsTo CloserNext closer.target registry o after := by
  cases closer with
  | Shutdown remaining =>
      cases remaining with
      | nil => exact .pure .refl
      | cons jobId remaining =>
          refine snapshot_bind (fun _ => .refl) fun job hjob => ?_
          split
          · exact .pure .refl
          · exact .pure .refl
  | ShutdownPending jobId remaining =>
      refine .bind (.check (fun finishedAt _ => ?_) fun _ _ => .refl)
      have hnext : ∀ current next, TransitionNext .Cancelled (some (resultOf "shutdown_before_start"
          "job was cancelled before execution during shutdown" finishedAt)) current next →
          CloserNext current next := fun _ _ hnext => .inr ⟨finishedAt, hnext⟩
      refine .bind ((transition_leads _ _ _ _ _ _ hkeyed).mono ?_)
      rintro (_ | error | _) after ⟨hleads, -⟩
      · exact .pure ((hleads.mono hnext).outcome (by simp))
      · exact (hleads.mono hnext).outcome (by simp)
      · exact (hleads.mono hnext).outcome (by simp)
  | ShutdownActive jobId remaining =>
      refine .bind (.orElse ((requestCancel_leads hkeyed).mono ?_))
      rintro (_ | error | _) after hleads
      · exact .pure ((hleads.mono fun _ _ => .inl).outcome (by simp))
      · dsimp only
        split
        · exact .pure (.pure ((hleads.mono fun _ _ => .inl).outcome (by simp)))
        · exact .refuse ((hleads.mono fun _ _ => .inl).outcome (by simp))
      · exact (hleads.mono fun _ _ => .inl).outcome (by simp)
  | Drop remaining =>
      cases remaining with
      | nil => exact .pure .refl
      | cons jobId remaining =>
          refine .bind (.orElse ((requestCancel_leads hkeyed).mono ?_))
          rintro (_ | error | _) after hleads
          · exact .pure ((hleads.mono fun _ _ => .inl).outcome (by simp))
          · exact .pure (.pure ((hleads.mono fun _ _ => .inl).outcome (by simp)))
          · exact (hleads.mono fun _ _ => .inl).outcome (by simp)
  | Ended => exact .pure .refl

end Steps

end M1nd.Mcp
