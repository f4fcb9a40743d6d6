import M1nd.Library.Loops

namespace M1nd.Library.Tests

open M1nd.Library.Loops

variable {α β : Type} {items : List α} {P Q : Prop}

-- A test that may panic does not, and holds where the proposition does.
def Decides (test : Option Bool) (P : Prop) : Prop := ∃ b, test = some b ∧ (b = true ↔ P)

-- A list that may not be there is, and holds what has the property.
def Lists (value : Option (List α)) (P : α → Prop) : Prop :=
  ∃ found, value = some found ∧ ∀ a, a ∈ found ↔ P a

-- A search that may panic does not, and finds what has the property where there is some.
def Finds (search : Option (Option β)) (P : β → Prop) : Prop :=
  ∃ found, search = some found ∧ (∀ b, found = some b → P b) ∧ (found = none → ∀ b, ¬ P b)

theorem Decides.congr {test : Option Bool} (h : Decides test P) (hiff : P ↔ Q) :
    Decides test Q := by
  obtain ⟨b, hb, hP⟩ := h
  exact ⟨b, hb, hP.trans hiff⟩

theorem Decides.not {test : Option Bool} (h : Decides test P) :
    Decides (test.map fun b => !b) (¬ P) := by
  obtain ⟨b, rfl, hP⟩ := h
  exact ⟨!b, rfl, by rw [← hP, Bool.not_eq_true', Bool.not_eq_true]⟩

theorem decides_anyM {f : α → Option Bool} {P : α → Prop} (h : ∀ a ∈ items, Decides (f a) (P a)) :
    Decides (items.anyM f) (∃ a ∈ items, P a) := by
  induction items with
  | nil => exact ⟨false, rfl, by simp⟩
  | cons a items ih =>
      obtain ⟨⟨b, hb, hP⟩, hitems⟩ := List.forall_mem_cons.mp h
      rw [List.anyM, hb]
      cases b with
      | true => exact ⟨true, rfl, by simp [← hP]⟩
      | false => exact (ih hitems).congr (by simp [← hP])

theorem decides_allM {f : α → Option Bool} {P : α → Prop} (h : ∀ a ∈ items, Decides (f a) (P a)) :
    Decides (items.allM f) (∀ a ∈ items, P a) := by
  induction items with
  | nil => exact ⟨true, rfl, by simp⟩
  | cons a items ih =>
      obtain ⟨⟨b, hb, hP⟩, hitems⟩ := List.forall_mem_cons.mp h
      rw [List.allM, hb]
      cases b with
      | true => exact (ih hitems).congr (by simp [← hP])
      | false => exact ⟨false, rfl, by simp [← hP]⟩

section Lists

variable {P Q : α → Prop}

theorem Lists.append {value other : Option (List α)} (h : Lists value P) (hother : Lists other Q) :
    Lists (do some ((← value) ++ (← other))) fun a => P a ∨ Q a := by
  obtain ⟨found, rfl, hfound⟩ := h
  obtain ⟨rest, rfl, hrest⟩ := hother
  exact ⟨found ++ rest, rfl, fun a => by rw [List.mem_append, hfound, hrest]⟩

theorem lists_flatten {f : α → Option (List β)} {P : α → β → Prop}
    (h : ∀ a ∈ items, Lists (f a) (P a)) :
    Lists ((items.mapM f).map List.flatten) fun b => ∃ a ∈ items, P a b := by
  obtain ⟨found, hfound, hmem⟩ := exists_mapM fun a ha => (h a ha).imp fun _ h => h.1
  refine ⟨found.flatten, by rw [hfound, Option.map_some], fun b => ?_⟩
  simp only [List.mem_flatten, hmem]
  constructor
  · rintro ⟨bs, ⟨a, ha, hbs⟩, hb⟩
    obtain ⟨_, hread, hP⟩ := h a ha
    exact ⟨a, ha, (hP b).mp (Option.some.inj (hread.symm.trans hbs) ▸ hb)⟩
  · rintro ⟨a, ha, hb⟩
    obtain ⟨bs, hread, hP⟩ := h a ha
    exact ⟨bs, ⟨a, ha, hread⟩, (hP b).mpr hb⟩

end Lists

section Searches

variable {P Q : β → Prop}

theorem finds_none (h : ∀ b, ¬ P b) : Finds (some none) P :=
  ⟨none, rfl, by simp, fun _ => h⟩

theorem Finds.congr {search : Option (Option β)} (h : Finds search P) (hiff : ∀ b, P b ↔ Q b) :
    Finds search Q :=
  funext (fun b => propext (hiff b)) ▸ h

-- What is searched for is among what the items lead to.
theorem finds_findSomeM? {f : α → Option (Option β)} {R : α → β → Prop}
    (hmem : ∀ b, P b → ∃ a ∈ items, R a b)
    (h : ∀ a ∈ items, Finds (f a) fun b => P b ∧ R a b) : Finds (items.findSomeM? f) P := by
  induction items generalizing P with
  | nil => exact finds_none fun b hb => by simpa using hmem b hb
  | cons a items ih =>
      obtain ⟨⟨found, hfound, hsome, hnone⟩, hitems⟩ := List.forall_mem_cons.mp h
      rw [List.findSomeM?, hfound]
      cases found with
      | some b => exact ⟨some b, rfl, fun _ hb => (hsome _ hb).1, by simp⟩
      | none =>
          have hnot (b : β) (hP : P b) : ¬ R a b := fun hR => hnone rfl b ⟨hP, hR⟩
          refine ih (fun b hb => ?_) hitems
          obtain ⟨other, hother, hR⟩ := hmem b hb
          obtain rfl | hother := List.mem_cons.mp hother
          · exact absurd hR (hnot b hb)
          · exact ⟨other, hother, hR⟩

end Searches

end M1nd.Library.Tests
