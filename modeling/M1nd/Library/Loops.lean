import M1nd.Library.Checks
import Mathlib.Data.List.Chain
import Mathlib.Data.List.Induction

namespace M1nd.Library.Loops

open M1nd.Library.Checks

variable {α β σ τ ε : Type} {items : List α} {s t : σ} {e : ε}

-- A loop over the parts of each item is one over all parts.
theorem foldlM_flatMap (items : List α) (parts : α → List β) (step : σ → β → Except ε σ) (s : σ) :
    (items.flatMap parts).foldlM step s =
      items.foldlM (fun s item => (parts item).foldlM step s) s := by
  induction items generalizing s with
  | nil => rfl
  | cons item items ih =>
      rw [List.flatMap_cons, List.foldlM_append, List.foldlM_cons]
      exact bind_congr fun s => ih s

theorem foldlM_congr {step step' : σ → α → Except ε σ}
    (h : ∀ item ∈ items, ∀ s, step s item = step' s item) (s : σ) :
    items.foldlM step s = items.foldlM step' s := by
  induction items generalizing s with
  | nil => rfl
  | cons item items ih =>
      rw [List.foldlM_cons, List.foldlM_cons, h item List.mem_cons_self]
      exact bind_congr fun s => ih (fun other hother => h other (List.mem_cons_of_mem _ hother)) s

-- Loops whose steps accept the same states differ in their errors only.
theorem foldlM_congr_ok {step step' : σ → α → Except ε σ}
    (h : ∀ item ∈ items, ∀ s t, step s item = .ok t ↔ step' s item = .ok t) :
    items.foldlM step s = .ok t ↔ items.foldlM step' s = .ok t := by
  induction items generalizing s with
  | nil => rfl
  | cons item items ih =>
      rw [List.foldlM_cons, List.foldlM_cons, bind_eq_ok, bind_eq_ok]
      refine exists_congr fun u => and_congr (h item List.mem_cons_self s u) ?_
      exact ih fun other hother => h other (List.mem_cons_of_mem _ hother)

-- What every step keeps, the loop keeps.
theorem foldlM_invariant {step : σ → α → Except ε σ} (inv : σ → Prop) (hinit : inv s)
    (hstep : ∀ u, inv u → ∀ item ∈ items, ∀ v, step u item = .ok v → inv v)
    (hrun : items.foldlM step s = .ok t) : inv t := by
  induction items generalizing s with
  | nil =>
      obtain rfl := Except.ok.inj hrun
      exact hinit
  | cons item items ih =>
      rw [List.foldlM_cons, bind_eq_ok] at hrun
      obtain ⟨u, hu, hrest⟩ := hrun
      exact ih (hstep s hinit item List.mem_cons_self u hu)
        (fun v hv other hother => hstep v hv other (List.mem_cons_of_mem _ hother)) hrest

-- A loop that succeeds has accepted each of its items.
theorem foldlM_accepts {step : σ → α → Except ε σ} (hrun : items.foldlM step s = .ok t) {item : α}
    (hitem : item ∈ items) : ∃ u v, step u item = .ok v := by
  induction items generalizing s with
  | nil => exact absurd hitem List.not_mem_nil
  | cons first items ih =>
      rw [List.foldlM_cons, bind_eq_ok] at hrun
      obtain ⟨u, hu, hrest⟩ := hrun
      obtain rfl | hitem := List.mem_cons.mp hitem
      · exact ⟨s, u, hu⟩
      · exact ih hrest hitem

-- A loop fails as one of its steps does.
theorem foldlM_eq_error {step : σ → α → Except ε σ} (bad : ε → Prop)
    (hstep : ∀ u, ∀ item ∈ items, ∀ e, step u item = .error e → bad e)
    (hrun : items.foldlM step s = .error e) : bad e := by
  induction items generalizing s with
  | nil => exact absurd hrun nofun
  | cons item items ih =>
      rw [List.foldlM_cons] at hrun
      cases hfirst : step s item with
      | error e' =>
          rw [hfirst] at hrun
          obtain rfl := Except.error.inj hrun
          exact hstep s item List.mem_cons_self e' hfirst
      | ok u =>
          rw [hfirst] at hrun
          exact ih (fun v other hother => hstep v other (List.mem_cons_of_mem _ hother)) hrun

-- A loop over the places of a list computes a value for each of its items.
theorem mapM_range {step : Nat → Except ε β} {value : α → β}
    (h : ∀ (i : Nat) (item : α), items[i]? = some item → step i = .ok (value item)) :
    (List.range items.length).mapM step = .ok (items.map value) := by
  rw [mapM_eq_ok, List.forall₂_iff_get]
  refine ⟨by rw [List.length_range, List.length_map], fun i hi hi' => ?_⟩
  rw [List.length_map] at hi'
  simpa using h i items[i] (List.getElem?_eq_getElem hi')

section Partial

variable {step : σ → α → Option σ} {keep : α → Option Bool}

-- The items that a test keeps. The test may panic.
def keepM (keep : α → Option Bool) (items : List α) : Option (List α) :=
  items.foldlM (fun kept item => do if ← keep item then some (kept ++ [item]) else some kept) []

theorem foldlM_keep (h : ∀ item ∈ items, ∃ b, keep item = some b) (done : List α) :
    ∃ kept, items.foldlM
      (fun kept item => do if ← keep item then some (kept ++ [item]) else some kept) done =
        some (done ++ kept) ∧ kept.Sublist items := by
  induction items generalizing done with
  | nil => exact ⟨[], by rw [List.append_nil]; rfl, List.Sublist.slnil⟩
  | cons item items ih =>
      obtain ⟨b, hb⟩ := h item List.mem_cons_self
      have hrest := fun other hother => h other (List.mem_cons_of_mem item hother)
      rw [List.foldlM_cons, hb]
      cases b with
      | false =>
          obtain ⟨kept, hkept, hsub⟩ := ih hrest done
          exact ⟨kept, hkept, hsub.cons item⟩
      | true =>
          obtain ⟨kept, hkept, hsub⟩ := ih hrest (done ++ [item])
          rw [List.append_assoc, List.singleton_append] at hkept
          exact ⟨item :: kept, hkept, hsub.cons_cons item⟩

theorem exists_keepM (h : ∀ item ∈ items, ∃ b, keep item = some b) :
    ∃ kept, keepM keep items = some kept ∧ kept.Sublist items :=
  foldlM_keep h []

-- What every step that does not panic keeps, a loop that does not panic keeps.
theorem foldlM_keeps (inv : σ → Prop) (hinit : inv s)
    (hstep : ∀ u, inv u → ∀ item ∈ items, ∀ v, step u item = some v → inv v)
    (hrun : items.foldlM step s = some t) : inv t := by
  induction items generalizing s with
  | nil =>
      obtain rfl : s = t := Option.some.inj hrun
      exact hinit
  | cons item items ih =>
      rw [List.foldlM_cons] at hrun
      obtain ⟨u, hu, hrest⟩ := Option.bind_eq_some_iff.mp hrun
      refine ih (hstep s hinit item List.mem_cons_self u hu) (fun v hv other hother => ?_) hrest
      exact hstep v hv other (List.mem_cons_of_mem _ hother)

-- The same with an invariant that knows the items that are done.
theorem foldlM_keeps_done (inv : List α → σ → Prop) (hinit : inv [] s)
    (hstep : ∀ done u, inv done u → ∀ item ∈ items, ∀ v, step u item = some v →
      inv (done ++ [item]) v)
    (hrun : items.foldlM step s = some t) : inv items t := by
  have hdone : ∀ done : List α, inv done s → inv (done ++ items) t := by
    clear hinit
    induction items generalizing s with
    | nil =>
        intro done hinv
        obtain rfl : s = t := Option.some.inj hrun
        rw [List.append_nil]
        exact hinv
    | cons item items ih =>
        intro done hinv
        rw [List.foldlM_cons] at hrun
        obtain ⟨u, hu, hrest⟩ := Option.bind_eq_some_iff.mp hrun
        have hnext := hstep done s hinv item List.mem_cons_self u hu
        have hlast := ih (fun done v hv other hother =>
          hstep done v hv other (List.mem_cons_of_mem _ hother)) hrest (done ++ [item]) hnext
        rwa [List.append_assoc, List.singleton_append] at hlast
  exact hdone [] hinit

-- A loop does not panic where no step does.
theorem exists_foldlM (inv : σ → Prop) (hinit : inv s)
    (hstep : ∀ u, inv u → ∀ item ∈ items, ∃ v, step u item = some v ∧ inv v) :
    ∃ t, items.foldlM step s = some t ∧ inv t := by
  induction items generalizing s with
  | nil => exact ⟨s, rfl, hinit⟩
  | cons item items ih =>
      obtain ⟨u, hu, hinv⟩ := hstep s hinit item List.mem_cons_self
      obtain ⟨t, ht, hlast⟩ :=
        ih hinv fun v hv other hother => hstep v hv other (List.mem_cons_of_mem _ hother)
      exact ⟨t, by rw [List.foldlM_cons, hu]; exact ht, hlast⟩

-- The values that a loop computes where no step panics.
theorem exists_mapM {f : α → Option β}
    (h : ∀ item ∈ items, ∃ value, f item = some value) :
    ∃ values, items.mapM f = some values ∧
      ∀ value, value ∈ values ↔ ∃ item ∈ items, f item = some value := by
  induction items with
  | nil => exact ⟨[], rfl, by simp⟩
  | cons item items ih =>
      obtain ⟨first, hfirst⟩ := h item List.mem_cons_self
      obtain ⟨rest, hrest, hmem⟩ := ih fun item hitem => h item (List.mem_cons_of_mem _ hitem)
      refine ⟨first :: rest, by simp [List.mapM_cons, hfirst, hrest], fun value => ?_⟩
      simp [hmem, hfirst, eq_comm]

theorem map_of_mapM {f : α → Option β} {values : List β} (h : items.mapM f = some values) :
    items.map f = values.map some := by
  induction items generalizing values with
  | nil =>
      obtain rfl := Option.some.inj h
      rfl
  | cons item items ih =>
      rw [List.mapM_cons] at h
      obtain ⟨first, hfirst, h⟩ := Option.bind_eq_some_iff.mp h
      obtain ⟨rest, hrest, h⟩ := Option.bind_eq_some_iff.mp h
      obtain rfl := Option.some.inj h
      rw [List.map_cons, hfirst, ih hrest, List.map_cons]

-- The values of a list that was read are those of its items.
theorem mem_of_mapM {f : α → Option β} {values : List β} (h : items.mapM f = some values) :
    (∀ value ∈ values, ∃ item ∈ items, f item = some value) ∧
      ∀ item ∈ items, ∃ value ∈ values, f item = some value := by
  have hmap := map_of_mapM h
  refine ⟨fun value hvalue => ?_, fun item hitem => ?_⟩
  · exact List.mem_map.mp (hmap ▸ List.mem_map_of_mem hvalue)
  · obtain ⟨value, hvalue, heq⟩ := List.mem_map.mp (hmap ▸ List.mem_map_of_mem hitem)
    exact ⟨value, hvalue, heq.symm⟩

theorem mapM_eq_map {f : α → Option β} {g : α → β} (h : ∀ item ∈ items, f item = some (g item)) :
    items.mapM f = some (items.map g) := by
  induction items with
  | nil => rfl
  | cons item items ih =>
      rw [List.mapM_cons, h item List.mem_cons_self,
        ih fun other hother => h other (List.mem_cons_of_mem _ hother)]
      rfl

-- The values have the keys that their items tell.
theorem exists_mapM_map {γ : Type} {f : α → Option β} {key : β → γ} {keyOf : α → γ}
    (h : ∀ item ∈ items, ∃ value, f item = some value ∧ key value = keyOf item) :
    ∃ values, items.mapM f = some values ∧ values.map key = items.map keyOf := by
  induction items with
  | nil => exact ⟨[], rfl, rfl⟩
  | cons item items ih =>
      obtain ⟨⟨value, hvalue, hkey⟩, hitems⟩ := List.forall_mem_cons.mp h
      obtain ⟨values, hvalues, hmap⟩ := ih hitems
      exact ⟨value :: values, by simp [List.mapM_cons, hvalue, hvalues],
        by rw [List.map_cons, hkey, hmap, List.map_cons]⟩

theorem length_mapM {f : α → Option β} {values : List β} (h : items.mapM f = some values) :
    values.length = items.length := by
  induction items generalizing values with
  | nil =>
      obtain rfl := Option.some.inj h
      rfl
  | cons item items ih =>
      rw [List.mapM_cons] at h
      obtain ⟨first, -, htail⟩ := Option.bind_eq_some_iff.mp h
      obtain ⟨rest, hrest, hvalues⟩ := Option.bind_eq_some_iff.mp htail
      obtain rfl := Option.some.inj hvalues
      rw [List.length_cons, List.length_cons, ih hrest]

-- A loop that reads a value for each item steps along the values.
theorem foldlM_map_read {f : α → Option β} {values : List β} (h : items.mapM f = some values)
    (step : σ → β → σ) (s : σ) :
    items.foldlM (fun s item => (f item).map (step s)) s = some (values.foldl step s) := by
  induction items generalizing values s with
  | nil =>
      obtain rfl := Option.some.inj h
      rfl
  | cons item items ih =>
      rw [List.mapM_cons] at h
      obtain ⟨first, hfirst, htail⟩ := Option.bind_eq_some_iff.mp h
      obtain ⟨rest, hrest, hvalues⟩ := Option.bind_eq_some_iff.mp htail
      obtain rfl := Option.some.inj hvalues
      rw [List.foldlM_cons, hfirst, Option.map_some, Option.bind_eq_bind, Option.bind_some, ih hrest]
      rfl

-- The values that a loop computes keep what they say about their items.
theorem map_mapM {γ : Type} {f : α → Option β} {key : β → γ} {keyOf : α → γ} {values : List β}
    (hkey : ∀ item value, f item = some value → key value = keyOf item)
    (hrun : items.mapM f = some values) : values.map key = items.map keyOf := by
  induction items generalizing values with
  | nil =>
      rw [List.mapM_nil] at hrun
      obtain rfl : [] = values := Option.some.inj hrun
      rfl
  | cons item items ih =>
      rw [List.mapM_cons] at hrun
      obtain ⟨value, hvalue, hrun⟩ := Option.bind_eq_some_iff.mp hrun
      obtain ⟨rest, hrest, hrun⟩ := Option.bind_eq_some_iff.mp hrun
      obtain rfl : value :: rest = values := Option.some.inj hrun
      rw [List.map_cons, List.map_cons, hkey item value hvalue, ih hrest]

-- The items a loop finds something for, in the order of the loop.
theorem filterMap_mapM_sublist {f : α → Option (Option β)} {key : β → α}
    (hkey : ∀ item value, f item = some (some value) → key value = item)
    {found : List (Option β)} (hrun : items.mapM f = some found) :
    ((found.filterMap id).map key).Sublist items := by
  induction items generalizing found with
  | nil =>
      rw [List.mapM_nil] at hrun
      obtain rfl : [] = found := Option.some.inj hrun
      exact List.Sublist.slnil
  | cons item items ih =>
      rw [List.mapM_cons] at hrun
      obtain ⟨value, hvalue, hrun⟩ := Option.bind_eq_some_iff.mp hrun
      obtain ⟨values, hvalues, hrun⟩ := Option.bind_eq_some_iff.mp hrun
      obtain rfl : value :: values = found := Option.some.inj hrun
      cases value with
      | none => exact (ih hvalues).cons item
      | some value =>
          rw [List.filterMap_cons, id_eq, List.map_cons, hkey item value hvalue]
          exact (ih hvalues).cons_cons item

end Partial

end M1nd.Library.Loops

namespace M1nd.Library.Runs

open M1nd.Library.Checks

variable {σ ρ ε : Type}

section Accepted

-- The state after a log whose records a checking step accepts one by one.
def replay (step : σ → ρ → Except ε σ) (s : σ) (log : List ρ) : Except ε σ :=
  log.foldlM step s

variable {step : σ → ρ → Except ε σ} {s t u : σ} {log more : List ρ} {record : ρ}

@[simp]
theorem replay_nil : replay step s [] = .ok s := rfl

theorem replay_cons :
    replay step s (record :: log) = step s record >>= fun t => replay step t log := rfl

theorem replay_append :
    replay step s (log ++ more) = replay step s log >>= fun t => replay step t more :=
  List.foldlM_append

theorem replay_append_eq_ok :
    replay step s (log ++ more) = .ok u ↔
      ∃ t, replay step s log = .ok t ∧ replay step t more = .ok u := by
  rw [replay_append, bind_eq_ok]

theorem replay_concat_eq_ok :
    replay step s (log ++ [record]) = .ok u ↔
      ∃ t, replay step s log = .ok t ∧ step t record = .ok u := by
  rw [replay_append_eq_ok]
  simp only [replay_cons, bind_eq_ok, replay_nil, Except.ok.injEq, exists_eq_right]

-- An accepted log has only accepted prefixes.
theorem replay_take (h : replay step s log = .ok u) (count : Nat) :
    ∃ t, replay step s (log.take count) = .ok t := by
  rw [← List.take_append_drop count log, replay_append_eq_ok] at h
  obtain ⟨t, ht, -⟩ := h
  exact ⟨t, ht⟩

-- A fact about the log read so far and the state it leads to holds after every accepted log
-- once each accepted record keeps it.
theorem replay_invariant (inv : List ρ → σ → Prop) (hinit : inv [] s)
    (hstep : ∀ log record t u, inv log t → step t record = .ok u → inv (log ++ [record]) u)
    (h : replay step s log = .ok u) : inv log u := by
  induction log using List.reverseRecOn generalizing u with
  | nil =>
      obtain rfl : s = u := Except.ok.inj h
      exact hinit
  | append_singleton log record ih =>
      obtain ⟨t, ht, hu⟩ := replay_concat_eq_ok.mp h
      exact hstep log record t u (ih ht) hu

end Accepted

section Ordered

variable {α : Type} {R : α → α → Prop} [IsTrans α R] {items : List α} {last next : α}

-- A list in the order of a transitive relation grows by an item that comes after its last one.
theorem pairwise_concat (h : items.Pairwise R) (hlast : items.getLast? = some last)
    (hnext : R last next) : (items ++ [next]).Pairwise R := by
  rw [← List.isChain_iff_pairwise] at h ⊢
  refine List.isChain_append.mpr ⟨h, List.isChain_singleton _, ?_⟩
  intro x hx y hy
  obtain rfl : last = x := Option.some.inj (hlast.symm.trans hx)
  obtain rfl : next = y := Option.some.inj hy
  exact hnext

end Ordered

section Total

variable {step : σ → ρ → σ} {s : σ}

-- The same for a step that is defined on every event.
theorem foldl_invariant (inv : List ρ → σ → Prop) (hinit : inv [] s)
    (hstep : ∀ events event t, inv events t → inv (events ++ [event]) (step t event))
    (events : List ρ) : inv events (events.foldl step s) := by
  induction events using List.reverseRecOn with
  | nil => exact hinit
  | append_singleton events event ih =>
      rw [List.foldl_append]
      exact hstep events event _ ih

end Total

section Met

variable {step : σ → ρ → σ} {met : σ → ρ → Prop} {s : σ} {event : ρ} {events : List ρ}

-- Every step of the run meets a condition on the state it is taken in.
def MetAlong (step : σ → ρ → σ) (met : σ → ρ → Prop) : σ → List ρ → Prop
  | _, [] => True
  | s, event :: events => met s event ∧ MetAlong step met (step s event) events

instance MetAlong.decidable [∀ s event, Decidable (met s event)] :
    ∀ s events, Decidable (MetAlong step met s events)
  | _, [] => isTrue trivial
  | s, event :: events =>
      have := MetAlong.decidable (step s event) events
      inferInstanceAs (Decidable (met s event ∧ MetAlong step met (step s event) events))

theorem MetAlong.concat_iff :
    MetAlong step met s (events ++ [event]) ↔
      MetAlong step met s events ∧ met (events.foldl step s) event := by
  induction events generalizing s with
  | nil => simp [MetAlong]
  | cons head events ih => simp only [List.cons_append, MetAlong, ih, List.foldl_cons, and_assoc]

theorem metAlong_of_forall (h : ∀ t, ∀ event ∈ events, met t event) : MetAlong step met s events := by
  induction events generalizing s with
  | nil => trivial
  | cons event events ih =>
      exact ⟨h s event List.mem_cons_self,
        ih fun t other hother => h t other (List.mem_cons_of_mem _ hother)⟩

theorem MetAlong.imp {met' : σ → ρ → Prop} (h : MetAlong step met s events)
    (himp : ∀ t, ∀ event ∈ events, met t event → met' t event) : MetAlong step met' s events := by
  induction events generalizing s with
  | nil => trivial
  | cons event events ih =>
      exact ⟨himp s event List.mem_cons_self h.1,
        ih h.2 fun t other hother => himp t other (List.mem_cons_of_mem _ hother)⟩

theorem MetAlong.invariant (inv : σ → Prop) (h : MetAlong step met s events) (hinit : inv s)
    (hstep : ∀ t event, inv t → met t event → inv (step t event)) : inv (events.foldl step s) := by
  induction events generalizing s with
  | nil => exact hinit
  | cons event events ih => exact ih h.2 (hstep s event hinit h.1)

end Met

end M1nd.Library.Runs
