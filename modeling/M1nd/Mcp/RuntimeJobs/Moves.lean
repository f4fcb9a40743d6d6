import M1nd.Mcp.RuntimeJobs.Sections

namespace M1nd.Mcp

open M1nd.Control
open M1nd.Library.Checks
open M1nd.Library.Durable

variable {ν : Type} {registry after : RegistryState}
  {log log' : List RuntimeJobJournalRecordV1} {allowed : RuntimeJobV1 → Prop}
  {jobId reason : String} {job current next : RuntimeJobV1} {target : RuntimeJobState}
  {flag : Bool} {result : Option RuntimeJobTerminalResultV1} {clock : Clock} {now : Nat}
  {prepared : Except RuntimeJobFailure ν} {outcome : CommitOutcome}

-- The kinds of snapshots that the calls append.

def Free (job : RuntimeJobV1) : Prop :=
  job.commitInProgress = false

def FreeIn (target : RuntimeJobState) (job : RuntimeJobV1) : Prop :=
  job.state = target ∧ Free job

-- Snapshots that leave the end of a job to its worker.
def Undecided (job : RuntimeJobV1) : Prop :=
  Free job ∧ job.state ≠ .Succeeded ∧ job.state ≠ .Failed

-- No commit of the job was reserved, and it has not come to an end of its own.
def Unclaimed (jobId : String) (log : List RuntimeJobJournalRecordV1) : Prop :=
  ∀ job ∈ history jobId log, Undecided job

-- The handle knows of no reservation of the job.
def Released (registry : RegistryState) (jobId : String) : Prop :=
  registry.poisoned = false → ∀ job, registry.job? jobId = some job → Free job

theorem Free.sound (h : Free job) : job.Sound := by
  intro hcommit
  rw [h] at hcommit
  cases hcommit

theorem FreeIn.undecided (h : FreeIn target job) (hsucceeded : target ≠ .Succeeded)
    (hfailed : target ≠ .Failed) : Undecided job := by
  obtain ⟨rfl, hfree⟩ := h
  exact ⟨hfree, hsucceeded, hfailed⟩

theorem Unclaimed.grown (h : Unclaimed jobId log) (hgrown : Grown allowed jobId log log')
    (hallowed : ∀ job, allowed job → Undecided job) : Unclaimed jobId log' := by
  intro job hjob
  obtain hold | ⟨-, hnew⟩ := hgrown.mem hjob
  · exact h job hold
  · exact hallowed job hnew

theorem Released.of_unclaimed {α : Type} {o : Outcome RuntimeJobError α}
    (h : Unclaimed jobId log) (hafter : Advanced allowed jobId registry log o after log')
    (ho : o ≠ .crashed) (hallowed : ∀ job, allowed job → Free job) : Released after jobId := by
  intro hsafe job hjob
  have hlast := (hafter.inStep ho hsafe).jobs jobId
  rw [hjob] at hlast
  obtain hold | ⟨-, hnew⟩ := hafter.grown.getLast hlast.symm
  · exact (h job (List.mem_of_getLast? hold)).1
  · exact hallowed job hnew

-- Each next snapshot comes after the one it was made from.

theorem free_moved (hsound : current.Sound)
    (hcommit : ¬(current.commitInProgress = true ∧ (target = .Cancelling ∨ target = .Cancelled)))
    (hvalid : validTransition current.state target = true) :
    Free (current.moved target reason flag result now) := by
  cases hreserved : current.commitInProgress with
  | false => simp [Free, RuntimeJobV1.moved, hreserved]
  | true =>
      have hrunning := hsound hreserved
      rw [hrunning] at hvalid
      cases target <;> simp_all [Free, RuntimeJobV1.moved, validTransition, RuntimeJobState.isTerminal]

theorem ahead_moved (hsound : current.Sound)
    (hcommit : ¬(current.commitInProgress = true ∧ (target = .Cancelling ∨ target = .Cancelled)))
    (hvalid : validTransition current.state target = true) :
    Ahead current (current.moved target reason flag result now) where
  reserved hreserved := by
    refine ⟨?_, free_moved hsound hcommit hvalid⟩
    have hrunning := hsound hreserved
    rw [hrunning] at hvalid
    cases target <;> simp_all [RuntimeJobV1.moved, validTransition]
  last := by
    constructor <;> intro hstate <;> rw [hstate] at hvalid <;> cases target <;> cases hvalid
  cancelled hstate := by
    rw [hstate] at hvalid
    cases target <;> cases hvalid
  cancelling hstate := by
    refine ⟨?_, free_moved hsound hcommit hvalid⟩
    rw [hstate] at hvalid
    cases target <;> simp_all [RuntimeJobV1.moved, validTransition]

theorem ahead_cancelling (hterminal : current.state.isTerminal = false) (hfree : Free current) :
    Ahead current (current.cancelling reason flag now) where
  reserved hreserved := by
    rw [hfree] at hreserved
    cases hreserved
  last := by
    constructor <;> intro hstate <;> rw [hstate] at hterminal <;> cases hterminal
  cancelled hstate := by
    rw [hstate] at hterminal
    cases hterminal
  cancelling _ := ⟨.inl rfl, hfree⟩

theorem ahead_discarded (h : Undecided current) : Ahead current (current.discarded flag now) where
  reserved hreserved := by
    rw [h.1] at hreserved
    cases hreserved
  last := h.2
  cancelled _ := ⟨rfl, rfl⟩
  cancelling _ := ⟨.inr (.inl rfl), rfl⟩

theorem ahead_of_running (hrunning : current.state = .Running)
    (hreserved : current.commitInProgress = true →
      (next.state = .Succeeded ∨ next.state = .Failed) ∧ next.commitInProgress = false) :
    Ahead current next where
  reserved := hreserved
  last := by
    rw [hrunning]
    exact ⟨nofun, nofun⟩
  cancelled hstate := by
    rw [hrunning] at hstate
    cases hstate
  cancelling hstate := by
    rw [hrunning] at hstate
    cases hstate

theorem CommitOutcome.state_eq (outcome : CommitOutcome) :
    outcome.state = .Succeeded ∨ outcome.state = .Failed := by
  cases outcome
  · exact .inl rfl
  · exact .inr rfl
  · exact .inr rfl

-- The calls.

section Calls

variable [Sha256]

theorem transition_spec (h : Tracks registry log) :
    Always (transition jobId target reason flag result clock) registry fun o after =>
      JobAdvances (FreeIn target) jobId registry log o after ∧
        (o = .returned () → after.poisoned = false ∧
          ∃ job, after.job? jobId = some job ∧ job.state = target) := by
  have hidle : ∀ error : RuntimeJobError, JobAdvances (FreeIn target) jobId registry log
      (.refused error : Outcome RuntimeJobError Unit) registry := fun _ => ⟨log, h.refl⟩
  refine findJob_bind (fun _ => ⟨hidle _, nofun⟩) fun current hcurrent => ?_
  refine .bind (.check (fun _ hcommit => ?_) fun _ _ => ⟨hidle _, nofun⟩)
  refine .bind (.check (fun _ hvalid => ?_) fun _ _ => ⟨hidle _, nofun⟩)
  refine .bind (.check (fun _ _ => ?_) fun _ _ => ⟨hidle _, nofun⟩)
  refine .bind (.check (fun now _ => ?_) fun _ _ => ⟨hidle _, nofun⟩)
  rw [rejectIf_eq_ok] at hcommit hvalid
  have hvalid : validTransition current.state target = true := by simpa using hvalid
  refine (appendThenReplace_spec h fun hfree => ?_).mono fun o after hpost => ⟨hpost.1, fun ho =>
    ⟨(hpost.2.2 ho).1, _, (hpost.2.2 ho).2, rfl⟩⟩
  obtain ⟨-, -, hid, hsound⟩ := h.known hfree hcurrent
  exact ⟨hid, (free_moved hsound hcommit hvalid).sound, ⟨rfl, free_moved hsound hcommit hvalid⟩,
    current, hcurrent, ahead_moved hsound hcommit hvalid⟩

theorem requestCancel_spec (h : Tracks registry log) :
    Always (requestCancel jobId reason flag clock) registry fun o after =>
      JobAdvances (FreeIn .Cancelling) jobId registry log o after := by
  have hidle : ∀ o : Outcome RuntimeJobError Unit,
      JobAdvances (FreeIn .Cancelling) jobId registry log o registry := fun _ => ⟨log, h.refl⟩
  refine findJob_bind (fun _ => hidle _) fun current hcurrent => ?_
  by_cases hterminal : current.state.isTerminal = true
  · rw [if_pos hterminal]
    exact .pure (hidle _)
  · rw [if_neg hterminal]
    rw [Bool.not_eq_true] at hterminal
    refine .bind (.check (fun _ hcommit => ?_) fun _ _ => hidle _)
    have hfree : Free current := by simpa [rejectIf_eq_ok, Free] using hcommit
    have hdue : ∀ (registry' : RegistryState) flag now, registry'.poisoned = registry.poisoned →
        (∀ other, registry'.job? other = registry.job? other) → registry'.poisoned = false →
        Due (FreeIn .Cancelling) jobId registry' (current.cancelling reason flag now) := by
      intro registry' flag now hpoisoned hjobs hsafe
      obtain ⟨-, -, hid, -⟩ := h.known (hpoisoned ▸ hsafe) hcurrent
      have hnext : Free (current.cancelling reason flag now) := hfree
      exact ⟨hid, hnext.sound, ⟨rfl, hnext⟩, current, by rw [hjobs, hcurrent],
        ahead_cancelling hterminal hfree⟩
    have htoken : ∀ {registry' log'}, Tracks registry' log' → ∀ o : Outcome RuntimeJobError Unit,
        Advanced (FreeIn .Cancelling) jobId registry' log' o (registry'.cancelToken jobId) log' :=
      fun htracks _ => htracks.idle rfl rfl fun other => cancelToken_job _ _ _
    dsimp only
    split
    · refine .bind (.modify ?_)
      have hcancelled := htoken h (.returned ())
      dsimp only
      split
      · exact .pure ⟨log, hcancelled⟩
      · refine .bind (.check (fun now _ => ?_) fun _ _ => ⟨log, hcancelled.outcome nofun⟩)
        refine (appendThenReplace_spec (hcancelled.tracks nofun)
          (hdue _ _ _ rfl fun other => cancelToken_job _ _ _)).mono ?_
        rintro o after ⟨⟨log', hafter⟩, -⟩
        exact ⟨log', hcancelled.trans hafter⟩
    · refine .bind (.check (fun now _ => ?_) fun _ _ => hidle _)
      refine .bind ((appendThenReplace_spec h (hdue _ _ _ rfl fun _ => rfl)).mono ?_)
      rintro (_ | error | _) after ⟨⟨log', hafter⟩, -⟩
      · exact .modify ⟨log', hafter.trans (htoken (hafter.tracks nofun) _)⟩
      · exact ⟨log', hafter⟩
      · exact ⟨log', hafter⟩

-- Once the commit is reserved, cancellation is refused and changes nothing.
theorem requestCancel_refused (hjob : registry.job? jobId = some job)
    (hrunning : job.state = .Running) (hcommit : job.commitInProgress = true) :
    Always (requestCancel jobId reason flag clock) registry fun o after =>
      o = .refused (.CancellationTooLate jobId) ∧ after = registry := by
  refine findJob_bind (fun hnone => ?_) fun current hcurrent => ?_
  · rw [hjob] at hnone
    cases hnone
  · obtain rfl : job = current := Option.some.inj (hjob.symm.trans hcurrent)
    rw [if_neg (by rw [hrunning]; nofun)]
    refine .bind (.check (fun _ hfree => ?_) fun error herror => ?_)
    · rw [rejectIf_eq_ok] at hfree
      exact absurd hcommit hfree
    · obtain ⟨-, rfl⟩ := rejectIf_eq_error.mp herror
      exact ⟨rfl, rfl⟩

end Calls

end M1nd.Mcp

namespace M1nd.Mcp

open M1nd.Control
open M1nd.Library.Checks
open M1nd.Library.Durable

variable [Sha256] {ν : Type} {registry after : RegistryState}
  {log log' : List RuntimeJobJournalRecordV1} {jobId reason : String} {job current : RuntimeJobV1}
  {flag : Bool} {clock : Clock} {ticks : Nat → Clock} {now : Nat}
  {prepared : Except RuntimeJobFailure ν} {outcome : CommitOutcome}

-- The end of a preparation, and the end of a commit.

theorem discardPrepared_spec (h : Tracks registry log) (hunclaimed : Unclaimed jobId log)
    (hcurrent : registry.job? jobId = some current) :
    Always (discardPrepared jobId current now) registry fun o after =>
      JobAdvances Free jobId registry log o after := by
  have hrest : ∀ registry' log' (o : Outcome RuntimeJobError Unit),
      Advanced (FreeIn .Cancelling) jobId registry log o registry' log' → o ≠ .crashed →
      Always (do
        let latest ← findJob jobId
        appendThenReplace (latest.discarded (decide (current.deadlineUnixMs ≤ now)) now)) registry'
        fun o after => JobAdvances Free jobId registry log o after := by
    intro registry' log' o hadvanced ho
    have htracks := hadvanced.tracks ho
    have hfree := hadvanced.mono fun _ (hkind : FreeIn .Cancelling _) => hkind.2
    refine findJob_bind (fun _ => ⟨log', hfree.outcome fun _ => ho⟩) fun latest hlatest => ?_
    have hdue : registry'.poisoned = false →
        Due Free jobId registry' (latest.discarded (decide (current.deadlineUnixMs ≤ now)) now) := by
      intro hsafe
      obtain ⟨-, hmem, hid, -⟩ := htracks.known hsafe hlatest
      have hundecided := hunclaimed.grown hadvanced.grown
        (fun _ hkind => hkind.undecided nofun nofun) latest hmem
      have hnext : Free (latest.discarded (decide (current.deadlineUnixMs ≤ now)) now) := rfl
      exact ⟨hid, hnext.sound, hnext, latest, hlatest, ahead_discarded hundecided⟩
    refine (appendThenReplace_spec htracks hdue).mono ?_
    rintro o' after ⟨⟨last, hafter⟩, -⟩
    exact ⟨last, hfree.trans hafter⟩
  unfold discardPrepared
  by_cases hrunning : current.state = .Running
  · simp only [hrunning, if_true]
    have hdue : ∀ reason flag, registry.poisoned = false →
        Due (FreeIn .Cancelling) jobId registry (current.cancelling reason flag now) := by
      intro reason flag hsafe
      obtain ⟨-, hmem, hid, -⟩ := h.known hsafe hcurrent
      obtain ⟨hfree, -⟩ := hunclaimed current hmem
      have hnext : FreeIn .Cancelling (current.cancelling reason flag now) := ⟨rfl, hfree⟩
      exact ⟨hid, hnext.2.sound, hnext, current, hcurrent,
        ahead_cancelling (by rw [hrunning]; rfl) hfree⟩
    refine .bind ((appendThenReplace_spec h (hdue _ _)).mono ?_)
    rintro (_ | error | _) after ⟨⟨log', hafter⟩, -⟩
    · refine .bind (.modify (hrest _ log' (.returned ()) (hafter.trans ?_) nofun))
      exact (hafter.tracks nofun).idle rfl rfl fun other => cancelToken_job _ _ _
    · exact ⟨log', hafter.mono fun _ hkind => hkind.2⟩
    · exact ⟨log', hafter.mono fun _ hkind => hkind.2⟩
  · simp only [hrunning, if_false]
    exact hrest _ _ (.returned ()) h.refl nofun

-- What the first half of `finish_after_prepare` comes to: a durable reservation, or none.
def Claims (jobId : String) (after : RegistryState) (log' : List RuntimeJobJournalRecordV1) :
    Outcome RuntimeJobError (Option (ν × Nat)) → Prop
  | .returned (some _) => ∃ job ∈ history jobId log', job.commitInProgress = true
  | .returned none | .refused _ => Released after jobId
  | .crashed => True

omit [Sha256] in
theorem Claims.of_free {o : Outcome RuntimeJobError (Option (ν × Nat))}
    (hafter : Advanced Free jobId registry log o after log') (hunclaimed : Unclaimed jobId log)
    (ho : ∀ value, o ≠ .returned (some value)) : Claims jobId after log' o := by
  match o with
  | .returned (some value) => exact absurd rfl (ho value)
  | .returned none => exact .of_unclaimed hunclaimed hafter nofun fun _ => id
  | .refused error => exact .of_unclaimed hunclaimed hafter nofun fun _ => id
  | .crashed => exact trivial

theorem finishAfterPrepare_spec (h : Tracks registry log) (hunclaimed : Unclaimed jobId log) :
    Always (finishAfterPrepare jobId prepared clock) registry fun o after =>
      ∃ log', Advanced (fun _ => True) jobId registry log o after log' ∧
        Claims jobId after log' o := by
  have hfree : ∀ {o : Outcome RuntimeJobError (Option (ν × Nat))} {after log'},
      Advanced Free jobId registry log o after log' → (∀ value, o ≠ .returned (some value)) →
      ∃ log', Advanced (fun _ => True) jobId registry log o after log' ∧ Claims jobId after log' o :=
    fun hafter ho => ⟨_, hafter.mono fun _ _ => trivial, .of_free hafter hunclaimed ho⟩
  refine findJob_bind (fun _ => hfree h.refl nofun) fun current hcurrent => ?_
  dsimp only
  split
  · refine .bind ((discardPrepared_spec h hunclaimed hcurrent).mono ?_)
    rintro (_ | error | _) after ⟨log', hafter⟩
    · exact .pure (hfree (hafter.outcome nofun) nofun)
    · exact hfree (hafter.outcome nofun) nofun
    · exact hfree (hafter.outcome fun ho => absurd rfl ho) nofun
  · split
    · exact .pure (hfree h.refl nofun)
    · rename_i hrunning
      rw [not_not] at hrunning
      split
      · rename_i failure
        have hdue : registry.poisoned = false →
            Due Free jobId registry (current.preparationFailed failure (nowUnixMsOrMax clock)) := by
          intro hsafe
          obtain ⟨-, -, hid, -⟩ := h.known hsafe hcurrent
          have hnext : Free (current.preparationFailed failure (nowUnixMsOrMax clock)) := rfl
          exact ⟨hid, hnext.sound, hnext, current, hcurrent,
            ahead_of_running hrunning fun _ => ⟨.inr rfl, rfl⟩⟩
        refine .bind ((appendThenReplace_spec h hdue).mono ?_)
        rintro (_ | error | _) after ⟨⟨log', hafter⟩, -⟩
        · exact .pure (hfree (hafter.outcome nofun) nofun)
        · exact hfree (hafter.outcome nofun) nofun
        · exact hfree (hafter.outcome fun ho => absurd rfl ho) nofun
      · have hdue : registry.poisoned = false →
            Due (fun _ => True) jobId registry (current.commitReserved (nowUnixMsOrMax clock)) := by
          intro hsafe
          obtain ⟨-, hmem, hid, -⟩ := h.known hsafe hcurrent
          refine ⟨hid, fun _ => hrunning, trivial, current, hcurrent,
            ahead_of_running hrunning fun hcommit => ?_⟩
          rw [(hunclaimed current hmem).1] at hcommit
          cases hcommit
        refine .bind ((appendThenReplace_spec h hdue).mono ?_)
        rintro (_ | error | _) after ⟨⟨log', hafter⟩, hpoisoned, hdone⟩
        · obtain ⟨hsafe, hjob⟩ := hdone rfl
          obtain ⟨-, hmem, -⟩ := (hafter.tracks nofun).known hsafe hjob
          exact .pure ⟨log', hafter.outcome nofun, _, hmem, rfl⟩
        · refine ⟨log', hafter.outcome nofun, fun hsafe => ?_⟩
          rw [hpoisoned nofun nofun] at hsafe
          cases hsafe
        · exact ⟨log', hafter.outcome fun ho => absurd rfl ho, trivial⟩

theorem finishCommit_spec (h : Tracks registry log) :
    Always (finishCommit jobId outcome now) registry fun o after =>
      JobAdvances (fun _ => True) jobId registry log o after ∧ (o ≠ .crashed → Released after jobId) := by
  refine findJob_bind (fun hnone => ⟨⟨log, h.refl⟩, fun _ _ job hjob => ?_⟩) fun current hcurrent => ?_
  · rw [hnone] at hjob
    cases hjob
  · split
    · rename_i hreserved
      have hdue : registry.poisoned = false →
          Due (fun _ => True) jobId registry (current.committed outcome now) := by
        intro hsafe
        obtain ⟨-, -, hid, -⟩ := h.known hsafe hcurrent
        have hnext : Free (current.committed outcome now) := rfl
        exact ⟨hid, hnext.sound, trivial, current, hcurrent,
          ahead_of_running hreserved.1 fun _ => ⟨outcome.state_eq, rfl⟩⟩
      refine (appendThenReplace_spec h hdue).mono ?_
      · rintro o after ⟨hafter, hpoisoned, hdone⟩
        refine ⟨hafter, fun ho hsafe job hjob => ?_⟩
        by_cases hreturned : o = .returned ()
        · rw [(hdone hreturned).2] at hjob
          obtain rfl := Option.some.inj hjob
          rfl
        · rw [hpoisoned hreturned ho] at hsafe
          cases hsafe
    · rename_i hidle
      refine .pure ⟨⟨log, h.refl⟩, fun _ hsafe job hjob => ?_⟩
      obtain rfl : current = job := Option.some.inj (hcurrent.symm.trans hjob)
      obtain ⟨-, -, -, hsound⟩ := h.known hsafe hcurrent
      by_contra hcommit
      rw [Free, Bool.not_eq_false] at hcommit
      exact hidle ⟨hsound hcommit, hcommit⟩

-- A job id is registered once.
theorem registerPending_spec {request : RuntimeJobRequestV1} (h : Tracks registry log) :
    Always (registerPending request clock) registry fun o after =>
      ∃ log', Advanced (FreeIn .Pending) request.jobId registry log o after log' ∧
        (o = .returned () → history request.jobId log = [] ∧ Unclaimed request.jobId log' ∧
          history request.jobId log' ≠ []) := by
  have hidle : ∀ error : RuntimeJobError, ∃ log', Advanced (FreeIn .Pending) request.jobId registry
      log (.refused error : Outcome RuntimeJobError Unit) registry log' ∧
        ((.refused error : Outcome RuntimeJobError Unit) = .returned () →
          history request.jobId log = [] ∧ Unclaimed request.jobId log' ∧
            history request.jobId log' ≠ []) := fun _ => ⟨log, h.refl, (by simp)⟩
  refine .bind (.get (.bind (.check (fun _ hsafe => ?_) fun _ _ => hidle _)))
  refine .bind (.check (fun _ _ => ?_) fun _ _ => hidle _)
  refine .bind (.check (fun _ _ => ?_) fun _ _ => hidle _)
  refine .bind (.check (fun _ hnew => ?_) fun _ _ => hidle _)
  refine .bind (.check (fun _ _ => ?_) fun _ _ => hidle _)
  refine .bind (.check (fun now _ => ?_) fun _ _ => hidle _)
  rw [rejectIf_eq_ok, Bool.not_eq_true] at hsafe
  rw [rejectIf_eq_ok] at hnew
  have hstep := h.inStep hsafe
  have hnone : registry.job? request.jobId = none := by
    rw [RegistryState.job?, Std.ExtTreeMap.getElem?_eq_none hnew]
    rfl
  have hempty : history request.jobId log = [] := by
    rw [← List.getLast?_eq_none_iff, ← hstep.jobs, hnone]
  have hpending : FreeIn .Pending (request.pending now) := ⟨rfl, rfl⟩
  have horderly : Orderly (log ++ [registry.nextRecord (request.pending now)]) := by
    refine h.orderly.concat hpending.2.sound fun current hcurrent => ?_
    have hcurrent : (history request.jobId log).getLast? = some current := hcurrent
    rw [hempty] at hcurrent
    cases hcurrent
  refine .bind ((appendJournal_spec h hsafe rfl hpending horderly).mono ?_)
  rintro (_ | error | _) after ⟨hjobs, hdone, hfailed⟩
  · obtain ⟨hfree, hfiled, hprefix⟩ := hdone rfl
    have hgrown : Grown (FreeIn .Pending) request.jobId log
        (log ++ [registry.nextRecord (request.pending now)]) := by
      refine ⟨_, rfl, fun record hrecord => ?_⟩
      rw [List.mem_singleton.mp hrecord]
      exact ⟨rfl, hpending⟩
    have hafter : InStep (after.register (request.pending now))
        (log ++ [registry.nextRecord (request.pending now)]) := by
      refine ⟨hfiled, fun other => ?_⟩
      rw [register_job, job_of_jobs hjobs, history_concat, nextRecord_job]
      split
      · rw [List.getLast?_concat]
      · rw [List.append_nil, hstep.jobs]
    refine .modify ⟨_, ⟨hgrown, hprefix, ⟨_, hfiled⟩, horderly, fun _ => hafter.durably,
      fun _ _ => hafter, fun other hother => ?_, ?_⟩, fun _ => ⟨hempty, ?_, ?_⟩⟩
    · rw [register_job, job_of_jobs hjobs]
      exact if_neg (Ne.symm hother)
    · intro hpoison
      rw [hsafe] at hpoison
      cases hpoison
    · refine Unclaimed.grown ?_ hgrown fun _ hkind => hkind.undecided (by simp) (by simp)
      simp [Unclaimed, hempty]
    · rw [history_concat, nextRecord_job]
      simp [RuntimeJobRequestV1.pending]
  · obtain ⟨-, hadvances⟩ := hfailed (by simp)
    obtain ⟨log', hafter⟩ := hadvances (.refused error) fun _ => (by simp)
    exact ⟨log', hafter, (by simp)⟩
  · obtain ⟨-, hadvances⟩ := hfailed (by simp)
    obtain ⟨log', hafter⟩ := hadvances .crashed id
    exact ⟨log', hafter, (by simp)⟩

end M1nd.Mcp
