import M1nd.Mcp.ChainedJournal.Theorems

namespace M1nd.Mcp.ChainedJournal

open M1nd.Library.Checks
open M1nd.Library.Durable

variable {ρ σ ε α β : Type} {format : Format ρ σ ε} {legal : σ → ρ → Prop} {world : World σ}
  {log : List ρ} {state : σ} {record : ρ} {make : σ → Except ε (ρ × σ)}

-- Without faults a handle is only lost once the sequence number has no room left.
def Usable (format : Format ρ σ ε) (handle : Handle σ) : Prop :=
  handle.poisoned = false ∨ 2 ^ 64 ≤ format.sequence handle.state + 1

-- What a run without a fault leaves of a handle.
def Spared (format : Format ρ σ ε) (world : World σ) (o : Outcome ε α) (after : World σ) : Prop :=
  o ≠ .crashed ∧ Usable format after.handle ∧
    after.handle.protectedHead.isSome = world.handle.protectedHead.isSome

theorem Spared.idle (h : Usable format world.handle) {o : Outcome ε α} (ho : o ≠ .crashed) :
    Spared format world o world :=
  ⟨ho, h, rfl⟩

theorem Spared.trans {middle after : World σ} {o : Outcome ε α} {o' : Outcome ε β}
    (h : Spared format world o middle) (h' : Spared format middle o' after) :
    Spared format world o' after :=
  ⟨h'.1, h'.2.1, h'.2.2.trans h.2.2⟩

theorem checkUnchanged_ends (h : Synced format world log state) :
    Ends format.checkUnchanged [] world (.returned ()) [] world := by
  have hlength : Ends format.checkLength [] world (.returned ()) [] world := by
    refine .bind .get ?_
    rw [if_neg (not_not.mpr h.knownLen.symm)]
    exact .pure
  have hverify : Ends format.verifyHead [] world (.returned ()) [] world := by
    refine .bind .get ?_
    cases hhead : world.handle.protectedHead with
    | none => exact .pure
    | some expected =>
        obtain ⟨hexpected, hstored⟩ := h.head expected hhead
        subst hexpected
        refine .bind (.zoom (.orElse (.zoom (verifyOrInitialize_ends hstored)))) ?_
        rw [if_neg (not_not.mpr rfl)]
        exact .pure
  unfold Format.checkUnchanged
  split
  · exact .bind hlength hverify
  · exact .bind hverify hlength

theorem advanceHead_calm (hlive : world.handle.poisoned = false)
    (hhead : HeadCurrent format world) :
    Calm (format.advanceHead record) world fun o after =>
      o ≠ .crashed ∧ after.handle.protectedHead.isSome = world.handle.protectedHead.isSome ∧
        (o = .returned () → after.handle.poisoned = false) ∧
        (o ≠ .returned () → Usable format after.handle) := by
  refine .bind (.get ?_)
  dsimp only
  cases hexpected : world.handle.protectedHead with
  | none => exact .pure ⟨nofun, by rw [hexpected], fun _ => hlive, fun h => absurd rfl h⟩
  | some expected =>
      obtain ⟨rfl, hstored⟩ := hhead expected hexpected
      refine .bind (.orElse (.zoom (.orElse (.zoom ((advanceProtectedHead_calm hstored).mono ?_)))))
      rintro (head | detail | _) heads ⟨hcalm, hreturns⟩
      · exact .modify ⟨nofun, rfl, fun _ => hlive, fun h => absurd rfl h⟩
      · refine .refuse (.bind (.modify (.refuse ⟨nofun, by rw [← hexpected]; rfl, nofun, ?_⟩)))
        refine fun _ => .inr ?_
        by_contra hroom
        obtain ⟨head, hhead⟩ := hreturns (by
          change format.sequence world.handle.state + 1 =
            min (format.sequence world.handle.state + 1) (2 ^ 64 - 1)
          change ¬2 ^ 64 ≤ format.sequence world.handle.state + 1 at hroom
          omega)
        cases hhead
      · exact absurd rfl hcalm

theorem append_calm (h : Held format legal world log state) (husable : Usable format world.handle) :
    Calm (format.append make) world (Spared format world) := by
  refine .bind (.get (.bind (.check ?_ fun error _ => .idle husable (by simp))))
  intro _ hpoisoned
  have hlive : world.handle.poisoned = false := by simpa using hpoisoned
  have hsynced := h.synced hlive
  refine .bind (.ends (checkUnchanged_ends hsynced) (.bind (.check ?_ fun error _ =>
    .idle husable (by simp))))
  rintro ⟨record, next⟩ hmake
  refine .bind (.orElse (.zoom (.step ?_)))
  let written : World σ :=
    { world with disk := (appendLog (format.line record)).whole world.disk }
  have hwritten : written.handle.poisoned = false := hlive
  refine .bind ((advanceHead_calm hwritten hsynced.head).mono ?_)
  rintro (_ | error | _) after ⟨hcalm, hsome, hreturned, hrefused⟩
  · exact .bind (.modify (.pure ⟨(by simp), .inl (hreturned rfl), hsome⟩))
  · exact ⟨(by simp), hrefused (by simp), hsome⟩
  · exact absurd rfl hcalm

theorem Traced.length (hlawful : format.Lawful) (hfresh : format.sequence format.fresh = 0)
    (h : Traced format legal log state) : format.sequence state = log.length := by
  induction h with
  | Fresh => exact hfresh
  | Next h hlegal haccept ih =>
      rw [(hlawful.closes haccept).1, ih, List.length_append, List.length_singleton]

-- As long as the log is short enough for its sequence numbers, the handle is good.
theorem Usable.live (hlawful : format.Lawful) (hfresh : format.sequence format.fresh = 0)
    (h : Held format legal world log state) (husable : Usable format world.handle)
    (hroom : log.length + 1 < 2 ^ 64) : world.handle.poisoned = false := by
  obtain hlive | hfull := husable
  · exact hlive
  · obtain ⟨known, hknown, hbefore⟩ := h.behind
    have hlength := hknown.length_le
    rw [hbefore.length hlawful hfresh] at hfull
    omega

-- Opening an empty journal sets the anchor of its head.
theorem openJournal_empty (hlawful : format.Lawful) (backend : Bool)
    (hfresh : format.sequence format.fresh = 0 ∧ format.tailDigest format.fresh = none) :
    Calm (format.openJournal backend) ⟨[], ∅⟩ fun o after => after.log = [] ∧
      ∃ head, o = .returned ⟨format.fresh, 0, false, head⟩ ∧ head.isSome = backend := by
  have hnothing : Library.Runs.replay format.accept format.fresh [] = .ok format.fresh := rfl
  have htail : lineEnd ∉ ([] : Library.Json.Bytes) := by simp
  have hreplay : format.replayFile [] = .ok (format.fresh, 0) :=
    replayFile_logBytes hlawful hnothing htail
  have hcut : ∀ heads, Ends (format.truncateTail 0) [] ⟨[], heads⟩ (.returned ()) [] ⟨[], heads⟩ := by
    intro heads
    refine .bind .get ?_
    rw [if_neg (by simp)]
    exact .pure
  have hfound : ∃ head heads, Ends (format.findHead backend format.fresh) [] ⟨[], ∅⟩
      (.returned head) [] ⟨[], heads⟩ ∧ head.isSome = backend := by
    unfold Format.findHead
    rw [hfresh.1, hfresh.2]
    cases backend with
    | true =>
        have hempty : (∅ : ProtectedHeads)[format.headDomain]? = none := by simp
        exact ⟨_, _, .bind (.orElse (.zoom (verifyOrInitialize_ends_empty hempty))) .pure, rfl⟩
    | false => exact ⟨_, _, .pure, rfl⟩
  obtain ⟨head, heads, hfound, hsome⟩ := hfound
  refine .bind (.get (.bind (.ends (.check hreplay)
    (.ends (t := ⟨[], heads⟩) ?_ ⟨rfl, head, rfl, hsome⟩))))
  unfold Format.opened
  cases hfirst : format.fileFirst with
  | true =>
      simp only [↓reduceIte, not_true_eq_false]
      exact .bind (hcut _) (.bind hfound .pure)
  | false =>
      simp only [Bool.false_eq_true, ↓reduceIte, not_false_eq_true]
      exact .bind hfound (.bind (hcut heads) .pure)

-- A journal after calls without faults: not yet opened, or open with a good handle.
def Store.Ready (backend : Bool) (log : List ρ) (store : Store σ) : Prop :=
  log.length + 1 < 2 ^ 64 →
    match store.handle with
    | none => store.disk = ⟨[], ∅⟩
    | some handle => handle.poisoned = false ∧ handle.protectedHead.isSome = backend

namespace Store

variable {store : Store σ} {backend : Bool}

theorem Ready.full {log' : List ρ} (hmore : log <+: log') (hfull : ¬log.length + 1 < 2 ^ 64) :
    store.Ready backend log' := by
  intro hroom
  have hlength := hmore.length_le
  omega

theorem Ready.reopen (hlawful : format.Lawful)
    (hfresh : format.sequence format.fresh = 0 ∧ format.tailDigest format.fresh = none)
    (h : store.Holds format legal log state) (hready : store.Ready backend log) :
    (store.reopen (format.openJournal backend) []).Ready backend log := by
  intro hroom
  specialize hready hroom
  unfold Store.reopen
  cases hhandle : store.handle with
  | none =>
      rw [hhandle] at hready
      obtain ⟨o, after, hends, -, head, rfl, hsome⟩ := openJournal_empty hlawful backend hfresh
      rw [show store.disk = ⟨[], ∅⟩ from hready, show _ = _ from hends]
      exact ⟨rfl, hsome⟩
  | some handle =>
      rw [hhandle] at hready
      obtain ⟨hlive, rfl⟩ := hready
      have hends := openJournal_ends hlawful (h.held handle hhandle) hlive
      rw [show _ = _ from hends]
      exact ⟨hlive, rfl⟩

theorem Ready.call (hlawful : format.Lawful) (hfresh : format.sequence format.fresh = 0)
    {program : Program (World σ) ε α} {handle : Handle σ} (hhandle : store.handle = some handle)
    (hprogram : Always program ⟨store.disk, handle⟩ fun o after =>
      ∃ log' state', Left format legal o after log' state' ∧ log <+: log')
    (hcalm : Usable format handle → Calm program ⟨store.disk, handle⟩
      (Spared format ⟨store.disk, handle⟩)) (hready : store.Ready backend log) :
    ∃ log' state', (store.call program []).2.Holds format legal log' state' ∧ log <+: log' ∧
      (store.call program []).2.Ready backend log' := by
  by_cases hroom : log.length + 1 < 2 ^ 64
  · have hgood := hready hroom
    rw [hhandle] at hgood
    obtain ⟨hlive, hsome⟩ := hgood
    obtain ⟨o, after, hends, ⟨hcrashed, husable, hhead⟩, log', state', hleft, hmore⟩ :=
      (hcalm (.inl hlive)).always hprogram
    have hheld : Held format legal after log' state' := by
      cases o with
      | crashed => exact absurd rfl hcrashed
      | _ => exact hleft
    have hcall : (store.call program []).2 = ⟨after.disk, some after.handle⟩ := by
      unfold Store.call
      rw [hhandle]
      dsimp only
      rw [show _ = _ from hends]
      cases o with
      | crashed => exact absurd rfl hcrashed
      | _ => rfl
    rw [hcall]
    refine ⟨log', state', ⟨hheld.stored, ?_⟩, hmore, fun hroom => ?_⟩
    · rintro _ ⟨⟩
      exact hheld
    · exact ⟨husable.live hlawful hfresh hheld hroom, hhead.trans hsome⟩
  · obtain ⟨_, log', state', -, hholds, hmore⟩ := Holds.call hhandle hprogram []
    exact ⟨log', state', hholds, hmore, .full hmore hroom⟩

end Store

end M1nd.Mcp.ChainedJournal

namespace M1nd.Mcp.ChainedJournal

open M1nd.Library
open M1nd.Library.Durable

variable {ρ σ ε α ω : Type}

-- What happens to a journal: its process ends and the journal is opened again, or an operation
-- is called, with what becomes of the durable steps.
inductive Event (ω : Type)
  | Open (fates : List Fate)
  | Call (operation : ω) (fates : List Fate)

section Run

variable (format : Format ρ σ ε) (backend : Bool) (program : ω → Program (World σ) ε α)

def Event.apply (store : Store σ) : Event ω → Store σ
  | .Open fates => store.reopen (format.openJournal backend) fates
  | .Call operation fates => (store.call (program operation) fates).2

def run (events : List (Event ω)) : Store σ :=
  events.foldl (Event.apply format backend program) Store.empty

end Run

-- An event in which every durable step is done.
def Event.Calm : Event ω → Prop
  | .Open fates => fates = []
  | .Call _ fates => fates = []

variable {format : Format ρ σ ε} {legal : σ → ρ → Prop} {backend : Bool}
  {program : ω → Program (World σ) ε α} {log : List ρ} {state : σ}

-- Whatever a program decides and whatever becomes of its steps, the log only grows by records
-- that replay takes.
def Keeps (format : Format ρ σ ε) (legal : σ → ρ → Prop) (program : Program (World σ) ε α) :
    Prop :=
  ∀ world log state, Held format legal world log state →
    Always program world fun o after =>
      ∃ log' state', Left format legal o after log' state' ∧ log <+: log'

-- Without a fault a program does not spoil the handle, whether it is accepted or refused.
def Spares (format : Format ρ σ ε) (legal : σ → ρ → Prop) (program : Program (World σ) ε α) :
    Prop :=
  ∀ world log state, Held format legal world log state → Usable format world.handle →
    Calm program world (Spared format world)

section Holds

variable (hlawful : format.Lawful) (hkeeps : ∀ operation, Keeps format legal (program operation))

include hlawful hkeeps

theorem Event.apply_holds {store : Store σ} (event : Event ω)
    (h : store.Holds format legal log state) :
    ∃ log' state', (event.apply format backend program store).Holds format legal log' state' ∧
      log <+: log' := by
  cases event with
  | Open fates =>
      exact ⟨log, state, .reopen (openJournal_always hlawful h.stored) fates, List.prefix_refl _⟩
  | Call operation fates =>
      cases hhandle : store.handle with
      | none =>
          refine ⟨log, state, ?_, List.prefix_refl _⟩
          unfold Event.apply Store.call
          rw [hhandle]
          exact h
      | some handle =>
          obtain ⟨_, log', state', -, hholds, hmore⟩ := Store.Holds.call hhandle
            (hkeeps operation _ _ _ (h.held handle hhandle)) fates
          exact ⟨log', state', hholds, hmore⟩

theorem run_holds (events : List (Event ω)) :
    ∃ log state, (run format backend program events).Holds format legal log state := by
  refine Runs.foldl_invariant (fun _ (store : Store σ) =>
    ∃ log state, store.Holds format legal log state) ⟨_, _, .empty _ _⟩ ?_ events
  rintro - event store ⟨log, state, h⟩
  obtain ⟨log', state', hholds, -⟩ := event.apply_holds hlawful hkeeps h
  exact ⟨log', state', hholds⟩

variable (hfresh : format.sequence format.fresh = 0 ∧ format.tailDigest format.fresh = none)
  (hspares : ∀ operation, Spares format legal (program operation))

include hfresh hspares

theorem Event.apply_ready {store : Store σ} {event : Event ω} (hcalm : event.Calm)
    (h : store.Holds format legal log state) (hready : store.Ready backend log) :
    ∃ log' state', (event.apply format backend program store).Holds format legal log' state' ∧
      (event.apply format backend program store).Ready backend log' := by
  cases event with
  | Open fates =>
      obtain rfl : fates = [] := hcalm
      exact ⟨log, state, .reopen (openJournal_always hlawful h.stored) [],
        hready.reopen hlawful hfresh h⟩
  | Call operation fates =>
      obtain rfl : fates = [] := hcalm
      cases hhandle : store.handle with
      | none =>
          refine ⟨log, state, ?_⟩
          unfold Event.apply Store.call
          rw [hhandle]
          exact ⟨h, hready⟩
      | some handle =>
          have hheld := h.held handle hhandle
          obtain ⟨log', state', hholds, -, hready⟩ := hready.call hlawful hfresh.1 hhandle
            (hkeeps operation _ _ _ hheld) (hspares operation _ _ _ hheld)
          exact ⟨log', state', hholds, hready⟩

theorem run_ready {events : List (Event ω)} (hcalm : ∀ event ∈ events, event.Calm) :
    ∃ log state, (run format backend program events).Holds format legal log state ∧
      (run format backend program events).Ready backend log := by
  refine Runs.foldl_invariant (fun events (store : Store σ) =>
    (∀ event ∈ events, event.Calm) → ∃ log state, store.Holds format legal log state ∧
      store.Ready backend log) ?_ ?_ events hcalm
  · exact fun _ => ⟨_, _, .empty _ _, fun _ => rfl⟩
  · intro events event store ih hcalm
    obtain ⟨log, state, h, hready⟩ := ih fun event hmem =>
      hcalm event (List.mem_append_left _ hmem)
    exact event.apply_ready hlawful hkeeps hfresh hspares (hcalm event (by simp)) h hready

end Holds

-- What a run leaves: the file holds the log and at most a torn tail, it replays to the state of
-- that log, and opening it again gives the handle there is, unless a fault has spoilt it.
structure Rebuilt (format : Format ρ σ ε) (backend : Bool) (program : ω → Program (World σ) ε α)
    (events : List (Event ω)) (log : List ρ) (state : σ) : Prop where
  file : ∃ tail, (run format backend program events).disk.log = logBytes format log ++ tail ∧
    lineEnd ∉ tail
  replays : format.replayFile (run format backend program events).disk.log =
    .ok (state, (logBytes format log).length)
  reopens : ∀ handle, (run format backend program events).handle = some handle →
    handle.poisoned = false → handle.state = state ∧
      Ends (format.openJournal handle.protectedHead.isSome) []
        (run format backend program events).disk (.returned handle) []
        (run format backend program events).disk
  calm : (∀ event ∈ events, event.Calm) → log.length + 1 < 2 ^ 64 →
    ∀ handle, (run format backend program events).handle = some handle →
      handle.poisoned = false ∧ handle.protectedHead.isSome = backend

theorem run_rebuilt (hlawful : format.Lawful)
    (hfresh : format.sequence format.fresh = 0 ∧ format.tailDigest format.fresh = none)
    (hkeeps : ∀ operation, Keeps format legal (program operation))
    (hspares : ∀ operation, Spares format legal (program operation)) (backend : Bool)
    (events : List (Event ω)) :
    ∃ log state, Traced format legal log state ∧
      Rebuilt format backend program events log state := by
  have hrebuilt : ∀ log state, (run format backend program events).Holds format legal log state →
      ((∀ event ∈ events, event.Calm) → log.length + 1 < 2 ^ 64 →
        ∀ handle, (run format backend program events).handle = some handle →
          handle.poisoned = false ∧ handle.protectedHead.isSome = backend) →
      Traced format legal log state ∧ Rebuilt format backend program events log state := by
    intro log state h hcalm
    refine ⟨h.stored.traced, h.stored.bytes, h.stored.replayFile hlawful, ?_, hcalm⟩
    intro handle hhandle hlive
    have hheld := h.held handle hhandle
    exact ⟨(hheld.synced hlive).state, openJournal_ends hlawful hheld hlive⟩
  by_cases hcalm : ∀ event ∈ events, event.Calm
  · obtain ⟨log, state, h, hready⟩ := run_ready hlawful hkeeps hfresh hspares hcalm
    refine ⟨log, state, hrebuilt log state h fun _ hroom handle hhandle => ?_⟩
    specialize hready hroom
    rw [hhandle] at hready
    exact hready
  · obtain ⟨log, state, h⟩ := run_holds hlawful hkeeps events
    exact ⟨log, state, hrebuilt log state h fun h => absurd h hcalm⟩

end M1nd.Mcp.ChainedJournal
