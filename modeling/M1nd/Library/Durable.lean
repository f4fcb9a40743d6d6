import M1nd.Library.Checks

namespace M1nd.Library.Durable

-- What becomes of one durable step of a program. A step that does not end well
-- has reached some part of its effect; the step says what part a number stands for.
inductive Fate
  | done
  | failed (reached : Nat)
  | crashed (reached : Nat)

inductive Outcome (ε α : Type)
  | returned (value : α)
  | refused (error : ε)
  | crashed

-- A program works on a state (files, protected stores, the handle it was called
-- on) and consumes one fate for each durable step. No fate left means `done`,
-- so the empty list is the run without a fault.
def Program (σ ε α : Type) : Type :=
  List Fate → σ → Outcome ε α × List Fate × σ

structure Effect (σ : Type) where
  whole : σ → σ
  part : Nat → σ → σ

-- A step that can fail and leaves the state as it is.
def Effect.untouched {σ : Type} : Effect σ where
  whole s := s
  part _ s := s

variable {σ τ ε ε' α β : Type}

namespace Program

def pure (value : α) : Program σ ε α :=
  fun fates s => (.returned value, fates, s)

def bind (program : Program σ ε α) (next : α → Program σ ε β) : Program σ ε β :=
  fun fates s =>
    match program fates s with
    | (.returned value, fates, s) => next value fates s
    | (.refused error, fates, s) => (.refused error, fates, s)
    | (.crashed, fates, s) => (.crashed, fates, s)

instance : Monad (Program σ ε) where
  pure := pure
  bind := bind

def refuse (error : ε) : Program σ ε α :=
  fun fates s => (.refused error, fates, s)

def crash : Program σ ε α :=
  fun fates s => (.crashed, fates, s)

def get : Program σ ε σ :=
  fun fates s => (.returned s, fates, s)

def modify (f : σ → σ) : Program σ ε Unit :=
  fun fates s => (.returned (), fates, f s)

-- A computation that reads nothing durable.
def check (x : Except ε α) : Program σ ε α :=
  fun fates s =>
    match x with
    | .ok value => (.returned value, fates, s)
    | .error error => (.refused error, fates, s)

def step (effect : Effect σ) (failure : ε) : Program σ ε Unit
  | [], s => (.returned (), [], effect.whole s)
  | .done :: fates, s => (.returned (), fates, effect.whole s)
  | .failed reached :: fates, s => (.refused failure, fates, effect.part reached s)
  | .crashed reached :: fates, s => (.crashed, fates, effect.part reached s)

-- Runs `handler` on the error of a refused program. A crash is not an error.
def orElse (program : Program σ ε α) (handler : ε → Program σ ε' α) : Program σ ε' α :=
  fun fates s =>
    match program fates s with
    | (.returned value, fates, s) => (.returned value, fates, s)
    | (.refused error, fates, s) => handler error fates s
    | (.crashed, fates, s) => (.crashed, fates, s)

-- A program over one component of the state.
def zoom (read : τ → σ) (write : σ → τ → τ) (program : Program σ ε α) : Program τ ε α :=
  fun fates t =>
    match program fates (read t) with
    | (outcome, fates, s) => (outcome, fates, write s t)

def outcome (program : Program σ ε α) (fates : List Fate) (s : σ) : Outcome ε α :=
  (program fates s).1

def final (program : Program σ ε α) (fates : List Fate) (s : σ) : σ :=
  (program fates s).2.2

end Program

-- The program ends in an outcome and a state that satisfy `post`, whatever becomes
-- of its durable steps.
def Always (program : Program σ ε α) (s : σ) (post : Outcome ε α → σ → Prop) : Prop :=
  ∀ fates, post (program.outcome fates s) (program.final fates s)

namespace Always

variable {program : Program σ ε α} {s : σ} {post : Outcome ε α → σ → Prop}

theorem mono {weaker : Outcome ε α → σ → Prop} (h : Always program s post)
    (himp : ∀ o t, post o t → weaker o t) : Always program s weaker :=
  fun fates => himp _ _ (h fates)

theorem and {other : Outcome ε α → σ → Prop} (h : Always program s post)
    (h' : Always program s other) : Always program s (fun o t => post o t ∧ other o t) :=
  fun fates => ⟨h fates, h' fates⟩

theorem pure {value : α} (h : post (.returned value) s) :
    Always (Pure.pure value : Program σ ε α) s post :=
  fun _ => h

theorem refuse {error : ε} (h : post (.refused error) s) :
    Always (Program.refuse error : Program σ ε α) s post :=
  fun _ => h

theorem crash (h : post .crashed s) : Always (Program.crash : Program σ ε α) s post :=
  fun _ => h

theorem get {post : Outcome ε σ → σ → Prop} (h : post (.returned s) s) :
    Always Program.get s post :=
  fun _ => h

theorem modify {f : σ → σ} {post : Outcome ε Unit → σ → Prop}
    (h : post (.returned ()) (f s)) : Always (Program.modify f) s post :=
  fun _ => h

theorem check {x : Except ε α} (hok : ∀ value, x = .ok value → post (.returned value) s)
    (herr : ∀ error, x = .error error → post (.refused error) s) :
    Always (Program.check x) s post := by
  intro fates
  cases x with
  | ok value => exact hok value rfl
  | error error => exact herr error rfl

theorem bind {next : α → Program σ ε β} {post : Outcome ε β → σ → Prop}
    (h : Always program s fun o t =>
      match o with
      | .returned value => Always (next value) t post
      | .refused error => post (.refused error) t
      | .crashed => post .crashed t) :
    Always (program >>= next) s post := by
  intro fates
  have hfates := h fates
  simp only [Program.outcome, Program.final] at hfates ⊢
  change post (Program.bind program next fates s).1 (Program.bind program next fates s).2.2
  unfold Program.bind
  generalize program fates s = run at hfates ⊢
  obtain ⟨value | error | _, rest, t⟩ := run
  · exact hfates rest
  · exact hfates
  · exact hfates

theorem orElse {handler : ε → Program σ ε' α} {post : Outcome ε' α → σ → Prop}
    (h : Always program s fun o t =>
      match o with
      | .returned value => post (.returned value) t
      | .refused error => Always (handler error) t post
      | .crashed => post .crashed t) :
    Always (program.orElse handler) s post := by
  intro fates
  have hfates := h fates
  simp only [Program.outcome, Program.final, Program.orElse] at hfates ⊢
  generalize program fates s = run at hfates ⊢
  obtain ⟨value | error | _, rest, t⟩ := run
  · exact hfates
  · exact hfates rest
  · exact hfates

theorem step {effect : Effect σ} {failure : ε} {post : Outcome ε Unit → σ → Prop}
    (hdone : post (.returned ()) (effect.whole s))
    (hfailed : ∀ reached, post (.refused failure) (effect.part reached s))
    (hcrashed : ∀ reached, post .crashed (effect.part reached s)) :
    Always (Program.step effect failure) s post := by
  intro fates
  match fates with
  | [] => exact hdone
  | .done :: _ => exact hdone
  | .failed reached :: _ => exact hfailed reached
  | .crashed reached :: _ => exact hcrashed reached

theorem zoom {read : τ → σ} {write : σ → τ → τ} {t : τ} {post : Outcome ε α → τ → Prop}
    (h : Always program (read t) fun o s => post o (write s t)) :
    Always (program.zoom read write) t post :=
  fun fates => h fates

end Always

-- One run, computed step by step: the program called with these fates ends in this outcome,
-- with the fates and the state that are left.
def Ends (program : Program σ ε α) (fates : List Fate) (s : σ) (outcome : Outcome ε α)
    (rest : List Fate) (t : σ) : Prop :=
  program fates s = (outcome, rest, t)

namespace Ends

variable {program : Program σ ε α} {s t u : σ} {fates rest last : List Fate} {value : α}

theorem bind {next : α → Program σ ε β} {outcome : Outcome ε β}
    (h : Ends program fates s (.returned value) rest t)
    (hnext : Ends (next value) rest t outcome last u) :
    Ends (program >>= next) fates s outcome last u := by
  change Program.bind program next fates s = _
  unfold Program.bind
  rw [h]
  exact hnext

theorem bind_refused {next : α → Program σ ε β} {error : ε}
    (h : Ends program fates s (.refused error) rest t) :
    Ends (program >>= next) fates s (.refused error) rest t := by
  change Program.bind program next fates s = _
  unfold Program.bind
  rw [h]

theorem pure : Ends (Pure.pure value : Program σ ε α) fates s (.returned value) fates s :=
  rfl

theorem get : Ends (Program.get : Program σ ε σ) fates s (.returned s) fates s :=
  rfl

theorem modify {f : σ → σ} :
    Ends (Program.modify f : Program σ ε Unit) fates s (.returned ()) fates (f s) :=
  rfl

theorem refuse {error : ε} :
    Ends (Program.refuse error : Program σ ε α) fates s (.refused error) fates s :=
  rfl

theorem check {x : Except ε α} (h : x = .ok value) :
    Ends (Program.check x) fates s (.returned value) fates s := by
  subst h
  rfl

theorem check_error {x : Except ε α} {error : ε} (h : x = .error error) :
    Ends (Program.check x) fates s (.refused error) fates s := by
  subst h
  rfl

theorem check_passed {bad : Prop} [Decidable bad] {error : ε} (h : ¬bad) :
    Ends (Program.check (Checks.rejectIf bad error)) fates s (.returned ()) fates s :=
  check (Checks.rejectIf_eq_ok.mpr h)

theorem check_rejected {bad : Prop} [Decidable bad] {error : ε} (h : bad) :
    Ends (Program.check (Checks.rejectIf bad error)) fates s (.refused error) fates s :=
  check_error (Checks.rejectIf_eq_error.mpr ⟨h, rfl⟩)

theorem step {effect : Effect σ} {failure : ε} :
    Ends (Program.step effect failure) [] s (.returned ()) [] (effect.whole s) :=
  rfl

theorem step_failed {effect : Effect σ} {failure : ε} {reached : Nat} :
    Ends (Program.step effect failure) (.failed reached :: fates) s (.refused failure) fates
      (effect.part reached s) :=
  rfl

theorem orElse {handler : ε → Program σ ε' α}
    (h : Ends program fates s (.returned value) rest t) :
    Ends (program.orElse handler) fates s (.returned value) rest t := by
  unfold Ends Program.orElse
  rw [h]

theorem orElse_refused {handler : ε → Program σ ε' α} {error : ε} {outcome : Outcome ε' α}
    (h : Ends program fates s (.refused error) rest t)
    (hhandler : Ends (handler error) rest t outcome last u) :
    Ends (program.orElse handler) fates s outcome last u := by
  unfold Ends Program.orElse
  rw [h]
  exact hhandler

theorem zoom {read : τ → σ} {write : σ → τ → τ} {whole : τ} {outcome : Outcome ε α}
    (h : Ends program fates (read whole) outcome rest t) :
    Ends (program.zoom read write) fates whole outcome rest (write t whole) := by
  unfold Ends Program.zoom
  rw [h]

theorem outcome_eq {outcome : Outcome ε α} (h : Ends program fates s outcome rest t) :
    program.outcome fates s = outcome := by
  unfold Program.outcome
  rw [h]

theorem final_eq {outcome : Outcome ε α} (h : Ends program fates s outcome rest t) :
    program.final fates s = t := by
  unfold Program.final
  rw [h]

theorem always {outcome : Outcome ε α} {post : Outcome ε α → σ → Prop}
    (h : Ends program fates s outcome rest t) (halways : Always program s post) :
    post outcome t := by
  have hrun := halways fates
  rw [Program.outcome, Program.final, h] at hrun
  exact hrun

end Ends

-- The run without a fault ends in an outcome and a state that satisfy `post`.
def Calm (program : Program σ ε α) (s : σ) (post : Outcome ε α → σ → Prop) : Prop :=
  ∃ outcome t, Ends program [] s outcome [] t ∧ post outcome t

namespace Calm

variable {program : Program σ ε α} {s t : σ} {post : Outcome ε α → σ → Prop}

theorem mono {weaker : Outcome ε α → σ → Prop} (h : Calm program s post)
    (himp : ∀ o t, post o t → weaker o t) : Calm program s weaker := by
  obtain ⟨outcome, t, hends, hpost⟩ := h
  exact ⟨outcome, t, hends, himp _ _ hpost⟩

-- What holds whatever happens holds of the calm run too.
theorem always {other : Outcome ε α → σ → Prop} (h : Calm program s post)
    (halways : Always program s other) : Calm program s fun o t => post o t ∧ other o t := by
  obtain ⟨outcome, t, hends, hpost⟩ := h
  exact ⟨outcome, t, hends, hpost, hends.always halways⟩

theorem ends {outcome : Outcome ε α} (h : Ends program [] s outcome [] t) (hpost : post outcome t) :
    Calm program s post :=
  ⟨outcome, t, h, hpost⟩

theorem pure {value : α} (h : post (.returned value) s) :
    Calm (Pure.pure value : Program σ ε α) s post :=
  .ends .pure h

theorem refuse {error : ε} (h : post (.refused error) s) :
    Calm (Program.refuse error : Program σ ε α) s post :=
  .ends .refuse h

theorem get {post : Outcome ε σ → σ → Prop} (h : post (.returned s) s) :
    Calm Program.get s post :=
  .ends .get h

theorem modify {f : σ → σ} {post : Outcome ε Unit → σ → Prop}
    (h : post (.returned ()) (f s)) : Calm (Program.modify f) s post :=
  .ends .modify h

theorem check {x : Except ε α} (hok : ∀ value, x = .ok value → post (.returned value) s)
    (herr : ∀ error, x = .error error → post (.refused error) s) :
    Calm (Program.check x) s post := by
  cases x with
  | ok value => exact .ends (.check rfl) (hok value rfl)
  | error error => exact .ends (.check_error rfl) (herr error rfl)

theorem step {effect : Effect σ} {failure : ε} {post : Outcome ε Unit → σ → Prop}
    (h : post (.returned ()) (effect.whole s)) : Calm (Program.step effect failure) s post :=
  .ends .step h

theorem bind {next : α → Program σ ε β} {post : Outcome ε β → σ → Prop}
    (h : Calm program s fun o t =>
      match o with
      | .returned value => Calm (next value) t post
      | .refused error => post (.refused error) t
      | .crashed => False) :
    Calm (program >>= next) s post := by
  obtain ⟨value | error | _, t, hends, hnext⟩ := h
  · obtain ⟨outcome, last, hlast, hpost⟩ := hnext
    exact .ends (hends.bind hlast) hpost
  · exact .ends hends.bind_refused hnext
  · exact absurd hnext id

theorem orElse {handler : ε → Program σ ε' α} {post : Outcome ε' α → σ → Prop}
    (h : Calm program s fun o t =>
      match o with
      | .returned value => post (.returned value) t
      | .refused error => Calm (handler error) t post
      | .crashed => False) :
    Calm (program.orElse handler) s post := by
  obtain ⟨value | error | _, t, hends, hnext⟩ := h
  · exact .ends hends.orElse hnext
  · obtain ⟨outcome, last, hlast, hpost⟩ := hnext
    exact .ends (hends.orElse_refused hlast) hpost
  · exact absurd hnext id

theorem zoom {read : τ → σ} {write : σ → τ → τ} {whole : τ} {post : Outcome ε α → τ → Prop}
    (h : Calm program (read whole) fun o t => post o (write t whole)) :
    Calm (program.zoom read write) whole post := by
  obtain ⟨outcome, t, hends, hpost⟩ := h
  exact .ends hends.zoom hpost

end Calm

end M1nd.Library.Durable
