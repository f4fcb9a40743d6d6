import Mathlib.Logic.Unique
import Mathlib.Logic.Basic
import Mathlib.Data.List.Forall2

namespace M1nd.Library.Checks

variable {ε ε' α β : Type _}

-- A check refuses with an error when its condition is bad, and says nothing else.
def rejectIf (bad : Prop) [Decidable bad] (error : ε) : Except ε Unit :=
  if bad then .error error else .ok ()

@[simp]
theorem rejectIf_eq_ok {bad : Prop} [Decidable bad] {error : ε} {u : Unit} :
    rejectIf bad error = .ok u ↔ ¬ bad := by
  unfold rejectIf
  split <;> simp_all

theorem rejectIf_eq_error {bad : Prop} [Decidable bad] {error e : ε} :
    rejectIf bad error = .error e ↔ bad ∧ error = e := by
  unfold rejectIf
  split <;> simp_all

-- A sequence of checks accepts when each of them accepts what the ones before it returned.
theorem bind_eq_ok {x : Except ε α} {f : α → Except ε β} {b : β} :
    (x >>= f) = .ok b ↔ ∃ a, x = .ok a ∧ f a = .ok b := by
  cases x with
  | ok a => simp [bind, Except.bind]
  | error e => simp [bind, Except.bind]

theorem exists_eq_ok {x : Except ε α} (h : x.toBool = true) : ∃ a, x = .ok a := by
  cases x with
  | ok a => exact ⟨a, rfl⟩
  | error e => exact absurd h Bool.false_ne_true

theorem exists_unit {p : Unit → Prop} : (∃ u, p u) ↔ p () :=
  ⟨fun ⟨(), h⟩ => h, fun h => ⟨(), h⟩⟩

theorem bind_unit_eq_ok {x : Except ε Unit} {f : Unit → Except ε β} {b : β} :
    (x >>= f) = .ok b ↔ x = .ok () ∧ f () = .ok b := by
  rw [bind_eq_ok, exists_unit]

theorem map_eq_ok {x : Except ε α} {f : α → β} {b : β} :
    (f <$> x) = .ok b ↔ ∃ a, x = .ok a ∧ f a = b := by
  cases x <;> simp [Functor.map, Except.map]

theorem pure_eq_ok {a b : α} : (pure a : Except ε α) = .ok b ↔ a = b := by
  simp [pure, Except.pure]

theorem mapError_eq_ok {x : Except ε α} {f : ε → ε'} {a : α} :
    x.mapError f = .ok a ↔ x = .ok a := by
  cases x <;> simp [Except.mapError]

-- A check made of every element of a list accepts when it accepts each of them.
theorem forM_eq_ok {items : List α} {check : α → Except ε Unit} :
    (forM items check : Except ε Unit) = .ok () ↔ ∀ item ∈ items, check item = .ok () := by
  induction items with
  | nil => simp [pure, Except.pure]
  | cons item items ih =>
      rw [List.forM_cons, bind_unit_eq_ok, ih]
      simp

-- A loop that computes a value for each element accepts when it accepts each of them.
theorem mapM_eq_ok {f : α → Except ε β} {items : List α} {out : List β} :
    items.mapM f = .ok out ↔ List.Forall₂ (fun a b => f a = .ok b) items out := by
  induction items generalizing out with
  | nil =>
      rw [List.mapM_nil, pure_eq_ok, List.forall₂_nil_left_iff]
      exact eq_comm
  | cons item items ih =>
      simp only [List.mapM_cons, bind_eq_ok, pure_eq_ok, List.forall₂_cons_left_iff, ih]
      constructor
      · rintro ⟨b, hb, bs, hbs, rfl⟩
        exact ⟨b, bs, hb, hbs, rfl⟩
      · rintro ⟨b, bs, hb, hbs, rfl⟩
        exact ⟨b, hb, bs, hbs, rfl⟩

theorem exists_mapM_eq_ok {f : α → Except ε β} {items : List α}
    (h : ∀ item ∈ items, ∃ b, f item = .ok b) : ∃ out, items.mapM f = .ok out := by
  induction items with
  | nil => exact ⟨[], rfl⟩
  | cons item items ih =>
      obtain ⟨b, hb⟩ := h item List.mem_cons_self
      obtain ⟨bs, hbs⟩ := ih fun other hother => h other (List.mem_cons_of_mem _ hother)
      refine ⟨b :: bs, mapM_eq_ok.mpr (.cons hb (mapM_eq_ok.mp hbs))⟩

-- A loop whose steps accept the good items and compute one value for each of them.
theorem mapM_eq_ok_map {f : α → Except ε β} {g : α → β} {good : α → Prop}
    (h : ∀ item out, f item = .ok out ↔ good item ∧ out = g item) {items : List α} {out : List β} :
    items.mapM f = .ok out ↔ (∀ item ∈ items, good item) ∧ out = items.map g := by
  rw [mapM_eq_ok]
  induction items generalizing out with
  | nil => simp
  | cons item items ih =>
      rw [List.forall₂_cons_left_iff, List.forall_mem_cons, List.map_cons]
      constructor
      · rintro ⟨value, values, hvalue, hvalues, rfl⟩
        obtain ⟨hitem, rfl⟩ := (h item value).mp hvalue
        obtain ⟨hitems, rfl⟩ := ih.mp hvalues
        exact ⟨⟨hitem, hitems⟩, rfl⟩
      · rintro ⟨⟨hitem, hitems⟩, rfl⟩
        exact ⟨_, _, (h item _).mpr ⟨hitem, rfl⟩, ih.mpr ⟨hitems, rfl⟩, rfl⟩

end M1nd.Library.Checks
