import M1nd.Library.Checks
import Mathlib.Data.List.Basic
import Mathlib.Data.List.Dedup
import Mathlib.Data.List.GetD
import Mathlib.Data.List.Perm.Basic
import Mathlib.Order.WithBot
import Std.Data.ExtTreeMap.Lemmas
import Std.Data.ExtTreeSet.Lemmas

namespace M1nd.Library.Collections

open Std
open M1nd.Library.Checks

section Sets

variable {α : Type} {cmp : α → α → Ordering} [TransCmp cmp] [LawfulEqCmp cmp]
  {set : ExtTreeSet α cmp}

theorem nodup_toList (set : ExtTreeSet α cmp) : set.toList.Nodup := by
  have h := ExtTreeSet.distinct_toList (t := set)
  refine h.imp fun hne he => hne ?_
  rw [he]
  exact ReflCmp.compare_self

-- A set with the elements of a list has one element for each different one of the list.
theorem size_eq_length_dedup [DecidableEq α] {items : List α} (h : ∀ a, a ∈ set ↔ a ∈ items) :
    set.size = items.dedup.length := by
  rw [← ExtTreeSet.length_toList]
  apply List.Perm.length_eq
  rw [List.perm_ext_iff_of_nodup (nodup_toList set) items.nodup_dedup]
  intro a
  rw [ExtTreeSet.mem_toList, h, List.mem_dedup]

theorem mem_insert_iff {a b : α} : b ∈ set.insert a ↔ b = a ∨ b ∈ set := by
  rw [ExtTreeSet.mem_insert, LawfulEqCmp.compare_eq_iff_eq, eq_comm]

theorem exists_mem_iff : (∃ a, a ∈ set) ↔ set.isEmpty = false := by
  rw [← ExtTreeSet.isEmpty_toList, List.isEmpty_eq_false_iff_exists_mem]
  simp only [ExtTreeSet.mem_toList]

theorem one_lt_size_iff : 1 < set.size ↔ ∃ a ∈ set, ∃ b ∈ set, a ≠ b := by
  have hnodup := nodup_toList set
  simp only [← ExtTreeSet.length_toList, ← ExtTreeSet.mem_toList]
  cases hlist : set.toList with
  | nil => simp
  | cons a items =>
      cases items with
      | nil => simp
      | cons b items =>
          rw [hlist] at hnodup
          refine iff_of_true (by simp) ⟨a, by simp, b, by simp, ?_⟩
          rintro rfl
          exact (List.nodup_cons.mp hnodup).1 List.mem_cons_self

-- The set holds the items of the list, and the list names none of them twice.
structure Collects (set : ExtTreeSet α cmp) (items : List α) : Prop where
  mem : ∀ a, a ∈ set ↔ a ∈ items
  nodup : items.Nodup

omit [LawfulEqCmp cmp] in
theorem Collects.empty : Collects (∅ : ExtTreeSet α cmp) [] where
  mem := by simp
  nodup := List.nodup_nil

theorem Collects.insert {items : List α} (h : Collects set items) {a : α} (ha : a ∉ set) :
    Collects (set.insert a) (items ++ [a]) where
  mem b := by
    rw [mem_insert_iff, h.mem, List.mem_append, List.mem_singleton, or_comm]
  nodup := by
    rw [h.mem] at ha
    rw [← List.concat_eq_append]
    exact List.Nodup.concat ha h.nodup

end Sets

section Maps

variable {α β : Type} [DecidableEq α] {cmp : α → α → Ordering} [TransCmp cmp] [LawfulEqCmp cmp]
  {items : List β} {key : β → α} {a : α} {b : β}

omit [DecidableEq α] [TransCmp cmp] in
private theorem pairwise_of_nodup {entries : List (α × β)} (h : (entries.map Prod.fst).Nodup) :
    entries.Pairwise fun x y => ¬ cmp x.1 y.1 = .eq := by
  refine (List.pairwise_map.mp h).imp fun hne he => hne ?_
  exact LawfulEqCmp.eq_of_compare he

-- A map of entries that share no key holds just these.
theorem ofList_eq_some {entries : List (α × β)} (h : (entries.map Prod.fst).Nodup) :
    (ExtTreeMap.ofList entries cmp)[a]? = some b ↔ (a, b) ∈ entries := by
  have hread {c : β} (hc : (a, c) ∈ entries) : (ExtTreeMap.ofList entries cmp)[a]? = some c :=
    ExtTreeMap.getElem?_ofList_of_mem ReflCmp.compare_self (pairwise_of_nodup h) hc
  refine ⟨fun hsome => ?_, hread⟩
  have hmem : a ∈ ExtTreeMap.ofList entries cmp := by
    rw [ExtTreeMap.mem_iff_isSome_getElem?, hsome, Option.isSome_some]
  rw [ExtTreeMap.mem_ofList, List.contains_iff_mem, List.mem_map] at hmem
  obtain ⟨⟨_, c⟩, hc, rfl⟩ := hmem
  obtain rfl : c = b := Option.some.inj ((hread hc).symm.trans hsome)
  exact hc

-- A list of items indexed by a key that no two of them share.

omit [DecidableEq α] in
private theorem map_fst_index : (items.map fun b => (key b, b)).map Prod.fst = items.map key := by
  rw [List.map_map]
  rfl

theorem mem_index :
    a ∈ ExtTreeMap.ofList (items.map fun b => (key b, b)) cmp ↔ a ∈ items.map key := by
  simp [ExtTreeMap.mem_ofList, Function.comp_def]

omit [DecidableEq α] in
theorem size_index (h : (items.map key).Nodup) :
    (ExtTreeMap.ofList (items.map fun b => (key b, b)) cmp).size = items.length := by
  rw [ExtTreeMap.size_ofList (pairwise_of_nodup (map_fst_index.symm ▸ h)), List.length_map]

theorem index_eq_some (h : (items.map key).Nodup) :
    (ExtTreeMap.ofList (items.map fun b => (key b, b)) cmp)[a]? = some b ↔
      b ∈ items ∧ key b = a := by
  rw [ofList_eq_some (map_fst_index.symm ▸ h), List.mem_map]
  constructor
  · rintro ⟨c, hc, he⟩
    obtain ⟨rfl, rfl⟩ := Prod.mk.inj he
    exact ⟨hc, rfl⟩
  · rintro ⟨hb, rfl⟩
    exact ⟨b, hb, rfl⟩

end Maps

section Firsts

variable {α κ : Type} [DecidableEq κ] {key : α → κ} {seen : List κ} {items : List α}

-- The first item of each key that was not seen before.
def firsts (key : α → κ) : List κ → List α → List α
  | _, [] => []
  | seen, item :: items =>
      if key item ∈ seen then firsts key seen items
      else item :: firsts key (key item :: seen) items

theorem firsts_sublist (key : α → κ) (seen : List κ) (items : List α) :
    (firsts key seen items).Sublist items := by
  induction items generalizing seen with
  | nil => exact List.Sublist.slnil
  | cons item items ih =>
      rw [firsts]
      split
      · exact (ih seen).cons item
      · exact (ih (key item :: seen)).cons_cons item

-- Every key was seen before or is that of a first item, and not both.
theorem mem_seen_or_firsts {k : κ} (h : k ∈ items.map key) :
    k ∈ seen ∨ k ∈ (firsts key seen items).map key := by
  induction items generalizing seen with
  | nil => exact absurd h List.not_mem_nil
  | cons item items ih =>
      rw [List.map_cons, List.mem_cons] at h
      rw [firsts]
      split
      case isTrue hseen =>
        obtain rfl | h := h
        · exact .inl hseen
        · exact ih h
      case isFalse =>
        rw [List.map_cons, List.mem_cons]
        obtain rfl | h := h
        · exact .inr (.inl rfl)
        · have hrest : k ∈ key item :: seen ∨ k ∈ (firsts key (key item :: seen) items).map key :=
            ih h
          obtain h | h := hrest
          · obtain rfl | h := List.mem_cons.mp h
            · exact .inr (.inl rfl)
            · exact .inl h
          · exact .inr (.inr h)

theorem nodup_seen_firsts (key : α → κ) (seen : List κ) (items : List α) :
    (∀ item ∈ firsts key seen items, key item ∉ seen) ∧
      ((firsts key seen items).map key).Nodup := by
  induction items generalizing seen with
  | nil => exact ⟨nofun, List.nodup_nil⟩
  | cons item items ih =>
      rw [firsts]
      split
      case isTrue => exact ih seen
      case isFalse hnew =>
        obtain ⟨hseen, hnodup⟩ := ih (key item :: seen)
        refine ⟨List.forall_mem_cons.mpr ⟨hnew, fun other hother hmem => ?_⟩, ?_⟩
        · exact hseen other hother (List.mem_cons_of_mem _ hmem)
        · rw [List.map_cons, List.nodup_cons]
          refine ⟨fun hmem => ?_, hnodup⟩
          obtain ⟨other, hother, heq⟩ := List.mem_map.mp hmem
          exact hseen other hother (heq ▸ List.mem_cons_self)

theorem firsts_concat (item : α) :
    firsts key seen (items ++ [item]) = firsts key seen items ++
      if key item ∈ seen ∨ key item ∈ items.map key then [] else [item] := by
  induction items generalizing seen with
  | nil =>
      rw [List.nil_append, firsts, firsts, firsts, List.map_nil, List.nil_append]
      exact ite_congr (by simp) (fun _ => rfl) fun _ => rfl
  | cons first items ih =>
      rw [List.cons_append, firsts, firsts, ih, ih]
      by_cases hseen : key first ∈ seen
      · rw [if_pos hseen, if_pos hseen]
        congr 1
        refine ite_congr (propext ?_) (fun _ => rfl) fun _ => rfl
        rw [List.map_cons, List.mem_cons]
        exact ⟨fun h => h.imp_right .inr, fun h => h.elim .inl fun h =>
          h.elim (fun heq => .inl (heq ▸ hseen)) .inr⟩
      · rw [if_neg hseen, if_neg hseen, List.cons_append]
        congr 2
        refine ite_congr (propext ?_) (fun _ => rfl) fun _ => rfl
        rw [List.map_cons, List.mem_cons, List.mem_cons, or_assoc, or_left_comm]

end Firsts

section Distinct

variable {ε σ α κ : Type} {step : σ → α → Except ε σ} {add : σ → α → σ} {good : α → Prop}
  {key : α → κ}

-- A loop that refuses a bad item and an item whose key it has seen accepts the lists of good
-- items with new and different keys, and collects all of them.
theorem foldlM_distinct_eq_ok {seen : σ → κ → Prop}
    (hstep : ∀ s item t, step s item = .ok t ↔ good item ∧ ¬ seen s (key item) ∧ t = add s item)
    (hseen : ∀ s item k, seen (add s item) k ↔ k = key item ∨ seen s k) {items : List α} {s t : σ} :
    items.foldlM step s = .ok t ↔
      (∀ item ∈ items, good item ∧ ¬ seen s (key item)) ∧ (items.map key).Nodup ∧
        t = items.foldl add s := by
  induction items generalizing s with
  | nil => simp [pure, Except.pure, eq_comm]
  | cons item items ih =>
      simp only [List.foldlM_cons, bind_eq_ok, hstep, List.forall_mem_cons, List.map_cons,
        List.nodup_cons, List.foldl_cons, List.mem_map, not_exists, not_and]
      constructor
      · rintro ⟨next, ⟨hgood, hnew, rfl⟩, hrest⟩
        obtain ⟨hall, hnodup, rfl⟩ := ih.mp hrest
        simp only [hseen, not_or] at hall
        exact ⟨⟨⟨hgood, hnew⟩, fun other hother => ⟨(hall other hother).1, (hall other hother).2.2⟩⟩,
          ⟨fun other hother => (hall other hother).2.1, hnodup⟩, rfl⟩
      · rintro ⟨⟨⟨hgood, hnew⟩, hall⟩, ⟨hne, hnodup⟩, rfl⟩
        refine ⟨_, ⟨hgood, hnew, rfl⟩, ih.mpr ⟨fun other hother => ?_, hnodup, rfl⟩⟩
        rw [hseen, not_or]
        exact ⟨(hall other hother).1, hne other hother, (hall other hother).2⟩

theorem seen_foldl (seen : σ → κ → Prop)
    (hseen : ∀ s item k, seen (add s item) k ↔ k = key item ∨ seen s k) (items : List α) (s : σ)
    (k : κ) :
    seen (items.foldl add s) k ↔ k ∈ items.map key ∨ seen s k := by
  induction items generalizing s with
  | nil => simp
  | cons item items ih =>
      rw [List.foldl_cons, ih, hseen, List.map_cons, List.mem_cons, or_assoc, or_left_comm]

end Distinct

-- A test that one more item passes.
theorem countP_lt {α : Type} {items : List α} {p q : α → Bool} {a : α} (ha : a ∈ items)
    (hmono : ∀ b ∈ items, p b = true → q b = true) (hp : p a = false) (hq : q a = true) :
    items.countP p < items.countP q := by
  obtain ⟨before, after, rfl⟩ := List.append_of_mem ha
  have hbefore : before.countP p ≤ before.countP q :=
    List.countP_mono_left fun b hb => hmono b (List.mem_append_left _ hb)
  have hafter : after.countP p ≤ after.countP q :=
    List.countP_mono_left fun b hb => hmono b (List.mem_append_right _ (List.mem_cons_of_mem a hb))
  simp only [List.countP_append, List.countP_cons, hp, hq, Bool.false_eq_true, if_false, if_true]
  omega

section Lookup

variable {α β : Type} [DecidableEq α] {entries : List (α × β)} {key : α} {value : β}

-- Where no key comes twice, looking one up finds its entry.
theorem lookup_eq_some_iff (hnodup : (entries.map Prod.fst).Nodup) :
    entries.lookup key = some value ↔ (key, value) ∈ entries := by
  induction entries with
  | nil => simp
  | cons entry entries ih =>
      obtain ⟨first, other⟩ := entry
      obtain ⟨hfresh, hnodup⟩ := List.nodup_cons.mp hnodup
      by_cases hfirst : key = first
      · subst hfirst
        rw [List.lookup_cons_self, List.mem_cons, Prod.mk.injEq]
        constructor
        · rintro ⟨⟩
          exact .inl ⟨rfl, rfl⟩
        · rintro (⟨-, rfl⟩ | hmem)
          · rfl
          · exact absurd (List.mem_map_of_mem hmem) hfresh
      · have hbeq : (key == first) = false := by simpa using hfirst
        rw [List.lookup_cons, hbeq, List.mem_cons, Prod.mk.injEq]
        simp [hfirst, ih hnodup]

end Lookup

end M1nd.Library.Collections

namespace M1nd.Library.Groups

variable {α : Type} {groups : List (List α)} {i : Nat}

-- The members of a list of groups, when a group is taken out and when one grows.

theorem flatten_eraseIdx_perm (groups : List (List α)) (i : Nat) :
    ((groups.eraseIdx i).flatten ++ groups.getD i []).Perm groups.flatten := by
  by_cases hi : i < groups.length
  · have hperm := (List.getElem_cons_eraseIdx_perm hi).flatten
    rw [List.flatten_cons] at hperm
    rw [List.getD_eq_getElem _ _ hi]
    exact List.perm_append_comm.trans hperm
  · rw [List.eraseIdx_of_length_le (Nat.not_lt.mp hi), List.getD_eq_default _ _ (Nat.not_lt.mp hi),
      List.append_nil]

theorem flatten_modify_append_perm (hi : i < groups.length) (more : List α) :
    (groups.modify i (· ++ more)).flatten.Perm (groups.flatten ++ more) := by
  induction groups generalizing i with
  | nil => exact absurd hi (Nat.not_lt_zero _)
  | cons group groups ih =>
      cases i with
      | zero =>
          rw [List.modify_zero_cons, List.flatten_cons, List.flatten_cons, List.append_assoc,
            List.append_assoc]
          exact List.perm_append_comm.append_left group
      | succ i =>
          rw [List.modify_succ_cons, List.flatten_cons, List.flatten_cons, List.append_assoc]
          exact (ih (Nat.lt_of_succ_lt_succ hi)).append_left group

-- What is removed from a list, and the rest of it.
theorem filter_notMem_perm [DecidableEq α] {removed items : List α} (hitems : items.Nodup)
    (hremoved : removed.Nodup) (hsub : removed ⊆ items) :
    ((items.filter fun item => item ∉ removed) ++ removed).Perm items := by
  have hinside : (items.filter fun item => item ∈ removed).Perm removed := by
    refine (List.perm_ext_iff_of_nodup (hitems.filter _) hremoved).mpr fun item => ?_
    rw [List.mem_filter, decide_eq_true_iff]
    exact ⟨And.right, fun hitem => ⟨hsub hitem, hitem⟩⟩
  have hsplit := List.filter_append_perm (fun item => item ∈ removed) items
  refine List.perm_append_comm.trans ((hinside.symm.append_right _).trans ?_)
  simpa only [decide_not] using hsplit

end M1nd.Library.Groups

namespace M1nd.Library.Pairing

variable {α β : Type} {f : α → α → α}

-- The nth items of two lists are joined. Behind the shorter one the longer one goes on.
def pairUp (f : α → α → α) : List α → List α → List α
  | [], ys => ys
  | x :: xs, [] => x :: xs
  | x :: xs, y :: ys => f x y :: pairUp f xs ys

@[simp]
theorem pairUp_nil (xs : List α) : pairUp f xs [] = xs := by
  cases xs <;> rfl

theorem getElem?_pairUp (xs ys : List α) (n : Nat) :
    (pairUp f xs ys)[n]? = Option.merge f xs[n]? ys[n]? := by
  induction xs generalizing ys n with
  | nil => simp [pairUp]
  | cons x xs ih =>
      cases ys with
      | nil => simp
      | cons y ys =>
          cases n with
          | zero => rfl
          | succ n => simpa [pairUp] using ih ys n

theorem length_pairUp (xs ys : List α) :
    (pairUp f xs ys).length = max xs.length ys.length := by
  induction xs generalizing ys with
  | nil => simp [pairUp]
  | cons x xs ih =>
      cases ys with
      | nil => simp
      | cons y ys =>
          rw [pairUp, List.length_cons, ih, List.length_cons, List.length_cons]
          omega

theorem map_pairUp {g : β → β → β} {h : α → β} (hjoin : ∀ x y, h (f x y) = g (h x) (h y))
    (xs ys : List α) : (pairUp f xs ys).map h = pairUp g (xs.map h) (ys.map h) := by
  induction xs generalizing ys with
  | nil => rfl
  | cons x xs ih =>
      cases ys with
      | nil => rfl
      | cons y ys => simp only [pairUp, List.map_cons, hjoin, ih]

-- One more item is joined with what stands in its place, or goes to the end.
theorem pairUp_concat (xs ys : List α) (y : α) :
    pairUp f xs (ys ++ [y]) =
      match (pairUp f xs ys)[ys.length]? with
      | some x => (pairUp f xs ys).set ys.length (f x y)
      | none => pairUp f xs ys ++ [y] := by
  induction xs generalizing ys with
  | nil => simp [pairUp]
  | cons x xs ih =>
      cases ys with
      | nil => simp [pairUp]
      | cons first ys =>
          simp only [List.cons_append, pairUp, ih, List.length_cons, List.getElem?_cons_succ]
          cases (pairUp f xs ys)[ys.length]? <;> rfl

theorem mem_pairUp {p : α → Prop} (hjoin : ∀ x y, p x → p y → p (f x y)) {xs ys : List α}
    (hxs : ∀ x ∈ xs, p x) (hys : ∀ y ∈ ys, p y) : ∀ x ∈ pairUp f xs ys, p x := by
  induction xs generalizing ys with
  | nil => exact hys
  | cons x xs ih =>
      cases ys with
      | nil => exact hxs
      | cons y ys =>
          simp only [List.forall_mem_cons] at hxs hys
          simp only [pairUp, List.forall_mem_cons]
          exact ⟨hjoin x y hxs.1 hys.1, ih hxs.2 hys.2⟩

-- With the places that hold nothing at the bottom, pairing is the join of a semilattice.
def place (xs : List α) (n : Nat) : WithBot α :=
  xs[n]?

theorem place_inj {xs ys : List α} (h : place xs = place ys) : xs = ys :=
  List.ext_getElem? fun n => congrFun h n

theorem place_pairUp [SemilatticeSup α] (xs ys : List α) :
    place (pairUp (· ⊔ ·) xs ys) = place xs ⊔ place ys := by
  funext n
  rw [place, getElem?_pairUp]
  change _ = (place xs n) ⊔ (place ys n)
  unfold place
  cases xs[n]? with
  | none => cases ys[n]? <;> rfl
  | some x => cases ys[n]? <;> rfl

end M1nd.Library.Pairing
