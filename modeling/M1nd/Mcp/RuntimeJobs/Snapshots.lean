import M1nd.Mcp.RuntimeJobs.Sections

namespace M1nd.Mcp

open M1nd.Control
open M1nd.Library.Checks
open M1nd.Library.Durable
open ChainedJournal (lineEnd)

-- Every job is registered under its own id.
def Keyed (registry : RegistryState) : Prop :=
  ∀ jobId job, registry.job? jobId = some job → job.jobId = jobId

section Append

variable [Sha256]

-- The journal with the first bytes of one more line, and with the line and its snapshot.
def RegistryState.torn (next : RuntimeJobV1) (reached : Nat) (registry : RegistryState) :
    RegistryState :=
  { registry with
    journal.file := registry.journal.file ++
      ((registry.nextRecord next).toVec ++ [lineEnd]).take reached }

def RegistryState.appended (next : RuntimeJobV1) (registry : RegistryState) : RegistryState :=
  (((writeFile ((registry.nextRecord next).toVec ++ [lineEnd])).whole registry).advance
    (registry.nextRecord next)).replaceJob next

-- What a call about one job can leave of a registry, when `R` relates each snapshot that it
-- appends to the one before.
inductive Leads (R : RuntimeJobV1 → RuntimeJobV1 → Prop) (jobId : String)
    (registry : RegistryState) : RegistryState → Prop
  | refl : Leads R jobId registry registry
  | token {after : RegistryState} (h : Leads R jobId registry after) :
      Leads R jobId registry (after.cancelToken jobId)
  | append {after : RegistryState} {current next : RuntimeJobV1} (h : Leads R jobId registry after)
      (hsafe : after.poisoned = false) (hjob : after.job? jobId = some current)
      (hid : next.jobId = jobId) (hnext : R current next) :
      Leads R jobId registry (after.appended next)
  | fail {after : RegistryState} {current next : RuntimeJobV1} (h : Leads R jobId registry after)
      (hsafe : after.poisoned = false) (hjob : after.job? jobId = some current)
      (hid : next.jobId = jobId) (hnext : R current next) (reached : Nat) :
      Leads R jobId registry (after.torn next reached).poison

-- The same up to a crash in the middle of an append.
def LeadsTo {α : Type} (R : RuntimeJobV1 → RuntimeJobV1 → Prop) (jobId : String)
    (registry : RegistryState) : Outcome RuntimeJobError α → RegistryState → Prop
  | .crashed, after => ∃ last current next reached, Leads R jobId registry last ∧
      last.poisoned = false ∧ last.job? jobId = some current ∧ next.jobId = jobId ∧
      R current next ∧ after = last.torn next reached
  | _, after => Leads R jobId registry after

variable {α β : Type} {R R' : RuntimeJobV1 → RuntimeJobV1 → Prop} {jobId other : String}
  {registry after last : RegistryState} {job current next : RuntimeJobV1}
  {o : Outcome RuntimeJobError α}

theorem Leads.trans (h : Leads R jobId registry after) (h' : Leads R jobId after last) :
    Leads R jobId registry last := by
  induction h' with
  | refl => exact h
  | token _ ih => exact ih.token
  | append _ hsafe hjob hid hnext ih => exact ih.append hsafe hjob hid hnext
  | fail _ hsafe hjob hid hnext reached ih => exact ih.fail hsafe hjob hid hnext reached

theorem Leads.mono (h : Leads R jobId registry after) (hR : ∀ current next, R current next → R' current next) :
    Leads R' jobId registry after := by
  induction h with
  | refl => exact .refl
  | token _ ih => exact ih.token
  | append _ hsafe hjob hid hnext ih => exact ih.append hsafe hjob hid (hR _ _ hnext)
  | fail _ hsafe hjob hid hnext reached ih => exact ih.fail hsafe hjob hid (hR _ _ hnext) reached

theorem LeadsTo.trans (h : Leads R jobId registry after) (h' : LeadsTo R jobId after o last) :
    LeadsTo R jobId registry o last := by
  cases o with
  | returned | refused => exact Leads.trans h h'
  | crashed =>
      obtain ⟨middle, current, next, reached, hlead, hrest⟩ := h'
      exact ⟨middle, current, next, reached, h.trans hlead, hrest⟩

theorem LeadsTo.mono (h : LeadsTo R jobId registry o after)
    (hR : ∀ current next, R current next → R' current next) : LeadsTo R' jobId registry o after := by
  cases o with
  | returned | refused => exact Leads.mono h hR
  | crashed =>
      obtain ⟨middle, current, next, reached, hlead, hsafe, hjob, hid, hnext, hafter⟩ := h
      exact ⟨middle, current, next, reached, hlead.mono hR, hsafe, hjob, hid, hR _ _ hnext, hafter⟩

theorem LeadsTo.outcome {o' : Outcome RuntimeJobError β} (h : LeadsTo R jobId registry o after)
    (ho : o = .crashed ↔ o' = .crashed) : LeadsTo R jobId registry o' after := by
  cases o <;> cases o' <;> simp_all [LeadsTo]

theorem torn_job (registry : RegistryState) (next : RuntimeJobV1) (reached : Nat) (other : String) :
    (registry.torn next reached).poison.job? other = registry.job? other := rfl

theorem appended_job (registry : RegistryState) (next : RuntimeJobV1) (other : String) :
    (registry.appended next).job? other =
      if next.jobId = other then (registry.job? other).map fun _ => next
      else registry.job? other :=
  replaceJob_job _ _ _

theorem appended_known (hjob : registry.job? jobId = some current) (hid : next.jobId = jobId) :
    (registry.appended next).job? jobId = some next := by
  rw [appended_job, if_pos hid, hjob, Option.map_some]

theorem Leads.poisoned (h : Leads R jobId registry after) (hpoisoned : registry.poisoned = true) :
    after.poisoned = true := by
  induction h with
  | refl => exact hpoisoned
  | token _ ih => exact ih
  | append _ hsafe _ _ _ ih =>
      rw [hsafe] at ih
      cases ih
  | fail => rfl

theorem Leads.elsewhere (h : Leads R jobId registry after) (hother : other ≠ jobId) :
    after.job? other = registry.job? other := by
  induction h with
  | refl => rfl
  | token _ ih => rw [cancelToken_job, ih]
  | append _ _ _ hid _ ih => rw [appended_job, if_neg fun hsame => hother (hsame.symm.trans hid), ih]
  | fail _ _ _ _ _ _ ih => rw [torn_job, ih]

theorem Leads.keyed (h : Leads R jobId registry after) (hkeyed : Keyed registry) : Keyed after := by
  induction h with
  | refl => exact hkeyed
  | token _ ih =>
      intro other job hjob
      rw [cancelToken_job] at hjob
      exact ih other job hjob
  | append h _ _ hid _ ih =>
      intro other job hjob
      rw [appended_job] at hjob
      split at hjob
      · rename_i hsame
        obtain ⟨_, -, rfl⟩ := Option.map_eq_some_iff.mp hjob
        exact hsame
      · exact ih other job hjob
  | fail _ _ _ _ _ _ ih => exact ih

-- Appending one snapshot.
theorem appendThenReplace_leads (next : RuntimeJobV1) (hjob : registry.job? jobId = some current)
    (hid : next.jobId = jobId) (hnext : R current next) :
    Always (appendThenReplace next) registry fun o after =>
      LeadsTo R jobId registry o after ∧
        (∀ error, o = .refused error → after.poisoned = true) ∧
        (o = .returned () → registry.poisoned = false ∧ after = registry.appended next) := by
  refine .bind (.get (.bind (.check ?_ ?_)))
  · intro _ hsafe
    have hsafe : registry.poisoned = false := by simpa using hsafe
    refine .bind (.bind (.get (.bind (.orElse (.step ?_ ?_ ?_)))))
    · exact .modify (.modify ⟨.append .refl hsafe hjob hid hnext, (by simp), fun _ => ⟨hsafe, rfl⟩⟩)
    · intro reached
      exact .bind (.modify (.refuse ⟨.fail .refl hsafe hjob hid hnext reached, fun _ _ => rfl, (by simp)⟩))
    · intro reached
      exact ⟨⟨registry, current, next, reached, .refl, hsafe, hjob, hid, hnext, rfl⟩, (by simp), (by simp)⟩
  · intro error herror
    obtain ⟨hpoisoned, -⟩ := rejectIf_eq_error.mp herror
    exact ⟨.refl, fun _ _ => hpoisoned, (by simp)⟩

end Append

-- The snapshots that each call makes.

def CancelNext (current next : RuntimeJobV1) : Prop :=
  current.state.isTerminal = false ∧ current.commitInProgress = false ∧ ∃ reason flag now,
    (current.state = .Cancelling → flag = true ∧ current.runningAfterTimeout = false) ∧
      next = current.cancelling reason flag now

def TransitionNext (target : RuntimeJobState) (result : Option RuntimeJobTerminalResultV1)
    (current next : RuntimeJobV1) : Prop :=
  ¬(current.commitInProgress = true ∧ (target = .Cancelling ∨ target = .Cancelled)) ∧
    validTransition current.state target = true ∧ target.isTerminal = result.isSome ∧
    ∃ reason flag now, next = current.moved target reason flag result now

-- `first` is the job as `finish_after_prepare` finds it.
def FinishNext {ν : Type} (first : RuntimeJobV1) (prepared : Except RuntimeJobFailure ν) (now : Nat)
    (current next : RuntimeJobV1) : Prop :=
  ((first.state = .Cancelling ∨ first.deadlineUnixMs ≤ now) ∧
    ((current = first ∧ first.state = .Running ∧
        ∃ reason, next = first.cancelling reason (decide (first.deadlineUnixMs ≤ now)) now) ∨
      ((current = first ∧ first.state ≠ .Running ∨ current.state = .Cancelling ∧
          current.commitInProgress = first.commitInProgress) ∧
        next = current.discarded (decide (first.deadlineUnixMs ≤ now)) now))) ∨
  (first.state = .Running ∧ now < first.deadlineUnixMs ∧ current = first ∧
    ((∃ failure, prepared = .error failure ∧ next = first.preparationFailed failure now) ∨
      next = first.commitReserved now))

def CommitNext (outcome : CommitOutcome) (finishedAt : Nat) (current next : RuntimeJobV1) : Prop :=
  current.state = .Running ∧ current.commitInProgress = true ∧
    next = current.committed outcome finishedAt

section Calls

variable [Sha256] {ν : Type} {jobId reason : String} {flag : Bool} {clock : Clock}
  {registry : RegistryState} {current : RuntimeJobV1} {target : RuntimeJobState}
  {result : Option RuntimeJobTerminalResultV1} {prepared : Except RuntimeJobFailure ν}
  {outcome : CommitOutcome} {now : Nat}

theorem requestCancel_leads (hkeyed : Keyed registry) :
    Always (requestCancel jobId reason flag clock) registry fun o after =>
      LeadsTo CancelNext jobId registry o after := by
  refine findJob_bind (fun _ => .refl) fun current hjob => ?_
  have hid := hkeyed _ _ hjob
  by_cases hterminal : current.state.isTerminal = true
  · rw [if_pos hterminal]
    exact .pure .refl
  · rw [if_neg hterminal]
    have hactive : current.state.isTerminal = false := by simpa using hterminal
    refine .bind (.check (fun _ hcommit => ?_) fun _ _ => .refl)
    have hfree : current.commitInProgress = false := by simpa using hcommit
    dsimp only
    split
    · rename_i hcancelling
      refine .bind (.modify ?_)
      dsimp only
      split
      · exact .pure (.token .refl)
      · rename_i hflag
        refine .bind (.check (fun now _ => ?_) fun _ _ => .token .refl)
        have htoken : (registry.cancelToken jobId).job? jobId = some current := by
          rw [cancelToken_job, hjob]
        have hnext : CancelNext current (current.cancelling reason true now) :=
          ⟨hactive, hfree, reason, true, now, fun _ => ⟨rfl, (by simpa using hflag : _ ∧ _).2⟩, rfl⟩
        refine (appendThenReplace_leads (current.cancelling reason true now) htoken hid hnext).mono ?_
        rintro o after ⟨hleads, -⟩
        exact hleads.trans (.token .refl)
    · rename_i hother
      refine .bind (.check (fun now _ => ?_) fun _ _ => .refl)
      have hnext : CancelNext current (current.cancelling reason flag now) :=
        ⟨hactive, hfree, reason, flag, now, fun hcancelling => absurd hcancelling hother, rfl⟩
      refine .bind ((appendThenReplace_leads (current.cancelling reason flag now) hjob hid hnext).mono ?_)
      rintro (_ | error | _) after ⟨hleads, -⟩
      · exact .modify (.token hleads)
      · exact hleads
      · exact hleads

theorem transition_leads (jobId : String) (target : RuntimeJobState) (reason : String) (flag : Bool)
    (result : Option RuntimeJobTerminalResultV1) (clock : Clock) (hkeyed : Keyed registry) :
    Always (transition jobId target reason flag result clock) registry fun o after =>
      LeadsTo (TransitionNext target result) jobId registry o after ∧
        (o = .returned () → ∃ job, after.job? jobId = some job ∧ job.state = target ∧
          job.terminalResult = result) := by
  refine findJob_bind (fun _ => ⟨.refl, nofun⟩) fun current hjob => ?_
  refine .bind (.check (fun _ hcommit => ?_) fun _ _ => ⟨.refl, nofun⟩)
  refine .bind (.check (fun _ hvalid => ?_) fun _ _ => ⟨.refl, nofun⟩)
  refine .bind (.check (fun _ hresult => ?_) fun _ _ => ⟨.refl, nofun⟩)
  refine .bind (.check (fun now _ => ?_) fun _ _ => ⟨.refl, nofun⟩)
  rw [rejectIf_eq_ok] at hcommit hvalid hresult
  have hvalid : validTransition current.state target = true := by simpa using hvalid
  have hresult : target.isTerminal = result.isSome := by simpa using hresult
  have hnext : TransitionNext target result current (current.moved target reason flag result now) :=
    ⟨hcommit, hvalid, hresult, reason, flag, now, rfl⟩
  have hid := hkeyed _ _ hjob
  refine (appendThenReplace_leads (current.moved target reason flag result now) hjob hid hnext).mono ?_
  rintro o after ⟨hleads, -, hreturned⟩
  refine ⟨hleads, fun ho => ?_⟩
  obtain ⟨-, rfl⟩ := hreturned ho
  exact ⟨_, appended_known hjob hid, rfl, rfl⟩

-- The handle knows of no more work on the job.
def Over (jobId : String) (registry : RegistryState) : Prop :=
  registry.poisoned = false → ∀ job, registry.job? jobId = some job → job.state.isTerminal = true

-- A transition that is legal and finds the clock in order ends in its target, or in a
-- poisoned registry.
theorem transition_moves (reason : String) (flag : Bool) (now : Nat)
    (hjob : registry.job? jobId = some current) (hid : current.jobId = jobId)
    (hcommit : ¬(current.commitInProgress = true ∧ (target = .Cancelling ∨ target = .Cancelled)))
    (hvalid : validTransition current.state target = true)
    (hresult : target.isTerminal = result.isSome) :
    Always (transition jobId target reason flag result (.ok now)) registry fun o after =>
      o = .crashed ∨ after.poisoned = true ∨ o = .returned () ∧
        after.job? jobId = some (current.moved target reason flag result now) := by
  refine findJob_bind (fun hnone => ?_) fun found hfound => ?_
  · rw [hjob] at hnone
    cases hnone
  · obtain rfl : current = found := Option.some.inj (hjob.symm.trans hfound)
    refine .bind (.check (fun _ _ => ?_) fun _ herror => absurd (rejectIf_eq_error.mp herror).1 hcommit)
    refine .bind (.check (fun _ _ => ?_) fun _ herror => ?_)
    case refine_2 => simp [rejectIf, hvalid] at herror
    refine .bind (.check (fun _ _ => ?_) fun _ herror => ?_)
    case refine_2 => simp [rejectIf, hresult] at herror
    refine .bind (.check (fun read hread => ?_) fun _ herror => nomatch herror)
    obtain rfl : now = read := Except.ok.inj hread
    have hnext : TransitionNext target result current (current.moved target reason flag result now) :=
      ⟨hcommit, hvalid, hresult, reason, flag, now, rfl⟩
    refine (appendThenReplace_leads (current.moved target reason flag result now) hjob hid hnext).mono ?_
    rintro (_ | error | _) after ⟨-, hrefused, hreturned⟩
    · obtain ⟨-, rfl⟩ := hreturned rfl
      exact .inr (.inr ⟨rfl, appended_known hjob hid⟩)
    · exact .inr (.inl (hrefused error rfl))
    · exact .inl rfl

omit [Sha256] in
theorem Over.of_poisoned (h : registry.poisoned = true) : Over jobId registry := by
  intro hsafe
  rw [h] at hsafe
  cases hsafe

omit [Sha256] in
theorem Over.of_job (hjob : registry.job? jobId = some current)
    (hterminal : current.state.isTerminal = true) : Over jobId registry := by
  intro _ job hsame
  rw [hjob] at hsame
  rwa [← Option.some.inj hsame]

omit [Sha256] in
theorem Over.of_unknown (h : registry.job? jobId = none) : Over jobId registry := by
  intro _ job hjob
  rw [h] at hjob
  cases hjob

theorem discardPrepared_leads (prepared : Except RuntimeJobFailure ν) {first : RuntimeJobV1}
    (hjob : registry.job? jobId = some first)
    (hid : first.jobId = jobId) (hlate : first.state = .Cancelling ∨ first.deadlineUnixMs ≤ now) :
    Always (discardPrepared jobId first now) registry fun o after =>
      LeadsTo (FinishNext first prepared now) jobId registry o after ∧
        (o ≠ .crashed → Over jobId after) := by
  have hdiscard : ∀ {middle : RegistryState} (latest : RuntimeJobV1),
      Leads (FinishNext first prepared now) jobId registry middle →
      middle.job? jobId = some latest → latest.jobId = jobId →
      (latest = first ∧ first.state ≠ .Running ∨ latest.state = .Cancelling ∧
        latest.commitInProgress = first.commitInProgress) →
      Always (do
        let latest ← findJob jobId
        appendThenReplace (latest.discarded (decide (first.deadlineUnixMs ≤ now)) now)) middle
        fun o after => LeadsTo (FinishNext first prepared now) jobId registry o after ∧
          (o ≠ .crashed → Over jobId after) := by
    intro middle latest hleads hlatest hsame hkind
    refine findJob_bind (fun hnone => ?_) fun found hfound => ?_
    · rw [hlatest] at hnone
      cases hnone
    · obtain rfl : latest = found := Option.some.inj (hlatest.symm.trans hfound)
      have hnext : FinishNext first prepared now latest
          (latest.discarded (decide (first.deadlineUnixMs ≤ now)) now) :=
        .inl ⟨hlate, .inr ⟨hkind, rfl⟩⟩
      refine (appendThenReplace_leads (latest.discarded (decide (first.deadlineUnixMs ≤ now)) now)
        hlatest hsame hnext).mono ?_
      rintro (_ | error | _) after ⟨hmore, hrefused, hreturned⟩
      · obtain ⟨-, rfl⟩ := hreturned rfl
        exact ⟨hmore.trans hleads, fun _ => .of_job (appended_known hlatest hsame) rfl⟩
      · exact ⟨hmore.trans hleads, fun _ => .of_poisoned (hrefused error rfl)⟩
      · exact ⟨hmore.trans hleads, fun ho => absurd rfl ho⟩
  unfold discardPrepared
  by_cases hrunning : first.state = .Running
  · simp only [hrunning, if_true]
    have hnext : ∀ reason, FinishNext first prepared now first
        (first.cancelling reason (decide (first.deadlineUnixMs ≤ now)) now) :=
      fun reason => .inl ⟨hlate, .inl ⟨rfl, hrunning, reason, rfl⟩⟩
    have hknown : ∀ reason, ((registry.appended (first.cancelling reason
        (decide (first.deadlineUnixMs ≤ now)) now)).cancelToken jobId).job? jobId =
          some (first.cancelling reason (decide (first.deadlineUnixMs ≤ now)) now) := by
      intro reason
      rw [cancelToken_job]
      exact appended_known hjob hid
    refine .bind (Always.mono (appendThenReplace_leads _ hjob hid (hnext _)) ?_)
    rintro (_ | error | _) after ⟨hleads, hrefused, hreturned⟩
    · obtain ⟨-, rfl⟩ := hreturned rfl
      exact .bind (.modify (hdiscard _ (.token hleads) (hknown _) hid (.inr ⟨rfl, rfl⟩)))
    · exact ⟨hleads, fun _ => .of_poisoned (hrefused error rfl)⟩
    · exact ⟨hleads, fun ho => absurd rfl ho⟩
  · simp only [hrunning, if_false]
    exact hdiscard first .refl hjob hid (.inl ⟨rfl, hrunning⟩)

-- The end of a preparation reserves the commit or ends the job.
theorem finishAfterPrepare_leads (hkeyed : Keyed registry)
    (hstarted : ∀ job, registry.job? jobId = some job → job.state ≠ .Pending) :
    Always (finishAfterPrepare jobId prepared clock) registry fun o after =>
      LeadsTo (fun current next => ∃ first, registry.job? jobId = some first ∧
        FinishNext first prepared (nowUnixMsOrMax clock) current next) jobId registry o after ∧
      match o with
      | .returned (some _) => ∃ job, after.job? jobId = some job ∧ job.state = .Running ∧
          job.commitInProgress = true
      | .returned none | .refused _ => Over jobId after
      | .crashed => True := by
  refine findJob_bind (fun hnone => ⟨.refl, .of_unknown hnone⟩) fun first hjob => ?_
  have hid := hkeyed _ _ hjob
  have hexists : ∀ current next, FinishNext first prepared (nowUnixMsOrMax clock) current next →
      ∃ first, registry.job? jobId = some first ∧
        FinishNext first prepared (nowUnixMsOrMax clock) current next :=
    fun current next hnext => ⟨first, hjob, hnext⟩
  dsimp only
  split
  · rename_i hlate
    refine .bind ((discardPrepared_leads prepared hjob hid hlate).mono ?_)
    rintro (_ | error | _) after ⟨hleads, hover⟩
    · exact .pure ⟨(hleads.mono hexists).outcome (by simp), hover nofun⟩
    · exact ⟨(hleads.mono hexists).outcome (by simp), hover nofun⟩
    · exact ⟨(hleads.mono hexists).outcome (by simp), trivial⟩
  · split
    · rename_i hearly hother
      refine .pure ⟨.refl, .of_job hjob ?_⟩
      have hpending := hstarted first hjob
      rw [not_or] at hearly
      cases hstate : first.state <;> simp_all [RuntimeJobState.isTerminal]
    · rename_i hearly hrunning
      rw [not_not] at hrunning
      have hintime : nowUnixMsOrMax clock < first.deadlineUnixMs := by
        by_contra hlate
        exact hearly (.inr (Nat.le_of_not_lt hlate))
      cases prepared with
      | error failure =>
          have hnext : FinishNext first (.error failure : Except RuntimeJobFailure ν)
              (nowUnixMsOrMax clock) first
              (first.preparationFailed failure (nowUnixMsOrMax clock)) :=
            .inr ⟨hrunning, hintime, rfl, .inl ⟨failure, rfl, rfl⟩⟩
          refine .bind ((appendThenReplace_leads
            (first.preparationFailed failure (nowUnixMsOrMax clock)) hjob hid hnext).mono ?_)
          rintro (_ | error | _) after ⟨hleads, hrefused, hreturned⟩
          · obtain ⟨-, rfl⟩ := hreturned rfl
            exact .pure ⟨(hleads.mono hexists).outcome (by simp), .of_job (appended_known hjob hid) rfl⟩
          · exact ⟨(hleads.mono hexists).outcome (by simp), .of_poisoned (hrefused error rfl)⟩
          · exact ⟨(hleads.mono hexists).outcome (by simp), trivial⟩
      | ok value =>
          have hnext : FinishNext first (.ok value) (nowUnixMsOrMax clock) first
              (first.commitReserved (nowUnixMsOrMax clock)) :=
            .inr ⟨hrunning, hintime, rfl, .inr rfl⟩
          refine .bind ((appendThenReplace_leads
            (first.commitReserved (nowUnixMsOrMax clock)) hjob hid hnext).mono ?_)
          rintro (_ | error | _) after ⟨hleads, hrefused, hreturned⟩
          · obtain ⟨-, rfl⟩ := hreturned rfl
            exact .pure ⟨(hleads.mono hexists).outcome (by simp), _, appended_known hjob hid, hrunning, rfl⟩
          · exact ⟨(hleads.mono hexists).outcome (by simp), .of_poisoned (hrefused error rfl)⟩
          · exact ⟨(hleads.mono hexists).outcome (by simp), trivial⟩

-- The end of a commit ends the job, which nothing else has moved since the reservation.
theorem finishCommit_leads (hkeyed : Keyed registry)
    (howned : ∀ job, registry.job? jobId = some job →
      job.state.isTerminal = true ∨ job.state = .Running ∧ job.commitInProgress = true) :
    Always (finishCommit jobId outcome now) registry fun o after =>
      LeadsTo (CommitNext outcome now) jobId registry o after ∧ (o ≠ .crashed → Over jobId after) := by
  refine findJob_bind (fun hnone => ⟨.refl, fun _ => .of_unknown hnone⟩) fun current hjob => ?_
  have hid := hkeyed _ _ hjob
  split
  · rename_i hreserved
    have hnext : CommitNext outcome now current (current.committed outcome now) :=
      ⟨hreserved.1, hreserved.2, rfl⟩
    refine (appendThenReplace_leads (current.committed outcome now) hjob hid hnext).mono ?_
    rintro (_ | error | _) after ⟨hleads, hrefused, hreturned⟩
    · obtain ⟨-, rfl⟩ := hreturned rfl
      refine ⟨hleads, fun _ => .of_job (appended_known hjob hid) ?_⟩
      cases outcome <;> rfl
    · exact ⟨hleads, fun _ => .of_poisoned (hrefused error rfl)⟩
    · exact ⟨hleads, fun ho => absurd rfl ho⟩
  · rename_i hidle
    exact .pure ⟨.refl, fun _ => .of_job hjob ((howned current hjob).resolve_right hidle)⟩

-- The registry with one more job, whose first snapshot is in the journal.
def RegistryState.registered (job : RuntimeJobV1) (registry : RegistryState) : RegistryState :=
  (((writeFile ((registry.nextRecord job).toVec ++ [lineEnd])).whole registry).advance
    (registry.nextRecord job)).register job

theorem registered_job (registry : RegistryState) (job : RuntimeJobV1) (other : String) :
    (registry.registered job).job? other =
      if job.jobId = other then some job else registry.job? other :=
  register_job _ _ _

-- What the registration of a request comes to: a registered job, or at most a torn line.
structure Registers (request : RuntimeJobRequestV1) (registry : RegistryState)
    (o : Outcome RuntimeJobError Unit) (after : RegistryState) : Prop where
  returned : o = .returned () → registry.poisoned = false ∧ request.jobId ∉ registry.jobs ∧
    request.idempotencyKey ∉ registry.idempotency ∧
    ∃ now, after = registry.registered (request.pending now)
  refused : ∀ error, o = .refused error → after = registry ∨ registry.poisoned = false ∧
    request.jobId ∉ registry.jobs ∧ request.idempotencyKey ∉ registry.idempotency ∧
    ∃ now reached, after = (registry.torn (request.pending now) reached).poison
  crashed : o = .crashed → registry.poisoned = false ∧ request.jobId ∉ registry.jobs ∧
    request.idempotencyKey ∉ registry.idempotency ∧
    ∃ now reached, after = registry.torn (request.pending now) reached

theorem registerPending_registers {request : RuntimeJobRequestV1} :
    Always (registerPending request clock) registry (Registers request registry) := by
  have hidle : ∀ error : RuntimeJobError, Registers request registry (.refused error) registry :=
    fun _ => ⟨(by simp), fun _ _ => .inl rfl, (by simp)⟩
  refine .bind (.get (.bind (.check (fun _ hsafe => ?_) fun _ _ => hidle _)))
  refine .bind (.check (fun _ _ => ?_) fun _ _ => hidle _)
  refine .bind (.check (fun _ _ => ?_) fun _ _ => hidle _)
  refine .bind (.check (fun _ hnew => ?_) fun _ _ => hidle _)
  refine .bind (.check (fun _ hkey => ?_) fun _ _ => hidle _)
  refine .bind (.check (fun now _ => ?_) fun _ _ => hidle _)
  have hsafe : registry.poisoned = false := by simpa using hsafe
  rw [rejectIf_eq_ok] at hnew hkey
  refine .bind (.bind (.get (.bind (.orElse (.step ?_ ?_ ?_)))))
  · exact .modify (.modify ⟨fun _ => ⟨hsafe, hnew, hkey, now, rfl⟩, (by simp), (by simp)⟩)
  · intro reached
    exact .bind (.modify (.refuse ⟨(by simp), fun _ _ => .inr ⟨hsafe, hnew, hkey, now, reached, rfl⟩, (by simp)⟩))
  · exact fun reached => ⟨(by simp), (by simp), fun _ => ⟨hsafe, hnew, hkey, now, reached, rfl⟩⟩

end Calls

end M1nd.Mcp
