import Mathlib.Algebra.BigOperators.Field
import Mathlib.Algebra.BigOperators.Group.Finset.Piecewise
import Mathlib.Algebra.BigOperators.Ring.Finset
import Mathlib.Algebra.Order.BigOperators.Group.Finset
import Mathlib.Algebra.Order.Field.Basic
import Mathlib.Tactic.FieldSimp
import Mathlib.Tactic.Ring

namespace M1nd.Library.WeightMap

variable {κ K : Type}

section Entries

variable [DecidableEq κ] [Zero K] [Add K]

-- A weight is added to the entry of a key, which begins at zero.
def addTo (map : List (κ × K)) (key : κ) (w : K) : List (κ × K) :=
  match map with
  | [] => [(key, 0 + w)]
  | entry :: map =>
      if entry.1 = key then (key, entry.2 + w) :: map else entry :: addTo map key w

variable {map : List (κ × K)} {key other : κ} {w : K}

theorem mem_keys_addTo :
    other ∈ (addTo map key w).map Prod.fst ↔ other = key ∨ other ∈ map.map Prod.fst := by
  induction map with
  | nil => simp [addTo]
  | cons entry map ih =>
      rw [addTo]
      split
      case isTrue hsame => simp [hsame]
      case isFalse hne =>
        rw [List.map_cons, List.mem_cons, ih, List.map_cons, List.mem_cons]
        tauto

theorem nodup_addTo (h : (map.map Prod.fst).Nodup) :
    ((addTo map key w).map Prod.fst).Nodup := by
  induction map with
  | nil => exact List.nodup_singleton key
  | cons entry map ih =>
      rw [List.map_cons, List.nodup_cons] at h
      rw [addTo]
      split
      case isTrue hsame => exact List.nodup_cons.mpr (hsame ▸ h)
      case isFalse hne =>
        refine List.nodup_cons.mpr ⟨fun hmem => ?_, ih h.2⟩
        obtain hkey | hmem := mem_keys_addTo.mp hmem
        · exact hne hkey
        · exact h.1 hmem

end Entries

section Sums

variable [CommRing K]

-- The weights of a map, each times the coefficient of its key.
def weigh (map : List (κ × K)) (f : κ → K) : K :=
  (map.map fun entry => f entry.1 * entry.2).sum

variable {map map' : List (κ × K)} {f : κ → K}

theorem weigh_cons (entry : κ × K) (map : List (κ × K)) (f : κ → K) :
    weigh (entry :: map) f = f entry.1 * entry.2 + weigh map f :=
  List.sum_cons

theorem weigh_append : weigh (map ++ map') f = weigh map f + weigh map' f := by
  rw [weigh, List.map_append, List.sum_append]
  rfl

variable [DecidableEq κ]

theorem weigh_addTo (map : List (κ × K)) (key : κ) (w : K) (f : κ → K) :
    weigh (addTo map key w) f = weigh map f + f key * w := by
  induction map with
  | nil => simp [addTo, weigh]
  | cons entry map ih =>
      rw [addTo]
      split
      case isTrue hsame =>
        rw [weigh_cons, weigh_cons, hsame]
        ring
      case isFalse hne =>
        rw [weigh_cons, ih, weigh_cons]
        ring

-- The weight of one key, zero where it has no entry.
def weightOf (map : List (κ × K)) (key : κ) : K :=
  weigh map fun other => if other = key then 1 else 0

theorem weightOf_addTo (map : List (κ × K)) (key : κ) (w : K) (other : κ) :
    weightOf (addTo map key w) other = weightOf map other + if key = other then w else 0 := by
  rw [weightOf, weigh_addTo, ite_mul, one_mul, zero_mul]
  rfl

theorem weightOf_of_notMem {key : κ} (h : key ∉ map.map Prod.fst) : weightOf map key = 0 := by
  induction map with
  | nil => rfl
  | cons entry map ih =>
      rw [List.map_cons, List.mem_cons, not_or] at h
      rw [weightOf, weigh_cons, if_neg (Ne.symm h.1), zero_mul, zero_add]
      exact ih h.2

theorem weightOf_of_mem (hnodup : (map.map Prod.fst).Nodup) {entry : κ × K} (h : entry ∈ map) :
    weightOf map entry.1 = entry.2 := by
  induction map with
  | nil => exact absurd h List.not_mem_nil
  | cons first map ih =>
      rw [List.map_cons, List.nodup_cons] at hnodup
      rw [weightOf, weigh_cons]
      obtain rfl | h := List.mem_cons.mp h
      · rw [if_pos rfl, one_mul]
        exact (congrArg _ (weightOf_of_notMem hnodup.1)).trans (add_zero _)
      · have hne : first.1 ≠ entry.1 :=
          fun hsame => hnodup.1 (hsame ▸ List.mem_map_of_mem h)
        rw [if_neg hne, zero_mul, zero_add]
        exact ih hnodup.2 h

-- The sum over the entries is a sum over all the keys there may be.
theorem weigh_eq_sum {keys : Finset κ} (h : ∀ entry ∈ map, entry.1 ∈ keys) (f : κ → K) :
    weigh map f = ∑ key ∈ keys, f key * weightOf map key := by
  induction map with
  | nil => simp [weightOf, weigh]
  | cons entry map ih =>
      have hkey := h entry List.mem_cons_self
      rw [weigh_cons, ih fun other hother => h other (List.mem_cons_of_mem _ hother)]
      have hsplit : ∀ key ∈ keys, f key * weightOf (entry :: map) key =
          (if entry.1 = key then f key * entry.2 else 0) + f key * weightOf map key := by
        intro key _
        rw [weightOf, weigh_cons, mul_add, ite_mul, one_mul, zero_mul, mul_ite, mul_zero]
        rfl
      rw [Finset.sum_congr rfl hsplit, Finset.sum_add_distrib, Finset.sum_ite_eq, if_pos hkey]

-- The sum over the entries of what depends on their keys.
theorem sum_map_keys {keys : Finset κ} (hnodup : (map.map Prod.fst).Nodup)
    (h : ∀ entry ∈ map, entry.1 ∈ keys) (f : κ → K) :
    (map.map fun entry => f entry.1).sum =
      ∑ key ∈ keys, if key ∈ map.map Prod.fst then f key else 0 := by
  have hkeys : keys.filter (· ∈ map.map Prod.fst) = (map.map Prod.fst).toFinset := by
    ext key
    rw [Finset.mem_filter, List.mem_toFinset, and_iff_right_iff_imp]
    intro hkey
    obtain ⟨entry, hentry, rfl⟩ := List.mem_map.mp hkey
    exact h entry hentry
  rw [← Finset.sum_filter, hkeys, List.sum_toFinset f hnodup, List.map_map]
  rfl

end Sums

end M1nd.Library.WeightMap

namespace M1nd.Library.Modularity

variable {V C K : Type} [DecidableEq V] [DecidableEq C] [Field K]

-- The modularity of a partition of the nodes of a weighted undirected graph.
section Definitions

variable (nodes : Finset V) (weight : V → V → K)

def degree (i : V) : K :=
  ∑ j ∈ nodes, weight i j

def total : K :=
  ∑ i ∈ nodes, degree nodes weight i

-- The weight between two nodes over the weight that is expected.
def bond (i j : V) : K :=
  weight i j - degree nodes weight i * degree nodes weight j / total nodes weight

def modularity (community : V → C) : K :=
  (∑ i ∈ nodes, ∑ j ∈ nodes, if community i = community j then bond nodes weight i j else 0) /
    total nodes weight

-- The weight from a node to a community, and the degrees in a community.
def weightTo (community : V → C) (i : V) (c : C) : K :=
  ∑ j ∈ nodes, if community j = c then weight i j else 0

def degreeIn (community : V → C) (c : C) : K :=
  ∑ j ∈ nodes, if community j = c then degree nodes weight j else 0

end Definitions

section Move

variable {nodes : Finset V} {weight : V → V → K} {community : V → C} {x : V}

omit [DecidableEq V] in
theorem bond_comm (hsymm : ∀ i j, weight i j = weight j i) (i j : V) :
    bond nodes weight i j = bond nodes weight j i := by
  rw [bond, bond, hsymm i j, mul_comm (degree nodes weight i)]

theorem sum_erase_sum {f : V → V → K} (hsymm : ∀ i j, f i j = f j i) (hx : x ∈ nodes) :
    ∑ i ∈ nodes, ∑ j ∈ nodes, f i j =
      f x x + 2 * ∑ j ∈ nodes.erase x, f x j +
        ∑ i ∈ nodes.erase x, ∑ j ∈ nodes.erase x, f i j := by
  have hrow : ∀ i, ∑ j ∈ nodes, f i j = f i x + ∑ j ∈ nodes.erase x, f i j :=
    fun i => (Finset.add_sum_erase nodes (f i) hx).symm
  rw [← Finset.add_sum_erase nodes _ hx, hrow x, Finset.sum_congr rfl fun i _ => hrow i,
    Finset.sum_add_distrib, Finset.sum_congr rfl fun i _ => hsymm i x]
  ring

-- The bonds of a node to the other nodes of a community.
def pull (nodes : Finset V) (weight : V → V → K) (community : V → C) (x : V) (c : C) : K :=
  ∑ j ∈ nodes.erase x, if community j = c then bond nodes weight x j else 0

theorem pull_eq (community : V → C) (hx : x ∈ nodes) (c : C) :
    pull nodes weight community x c =
      weightTo nodes weight community x c -
        degreeIn nodes weight community c * degree nodes weight x / total nodes weight -
        if community x = c then bond nodes weight x x else 0 := by
  have hall : (∑ j ∈ nodes, if community j = c then bond nodes weight x j else 0) =
      weightTo nodes weight community x c -
        degreeIn nodes weight community c * degree nodes weight x / total nodes weight := by
    rw [weightTo, degreeIn, Finset.sum_mul, Finset.sum_div, ← Finset.sum_sub_distrib]
    refine Finset.sum_congr rfl fun j _ => ?_
    by_cases hj : community j = c
    · simp only [if_pos hj, bond]
      ring
    · simp only [if_neg hj]
      ring
  rw [← hall, ← Finset.add_sum_erase nodes _ hx, pull]
  ring

-- A move changes the bonds of the node that moves.
theorem modularity_update (hsymm : ∀ i j, weight i j = weight j i) (hx : x ∈ nodes)
    (community : V → C) (c : C) :
    modularity nodes weight (Function.update community x c) - modularity nodes weight community =
      2 * (pull nodes weight community x c - pull nodes weight community x (community x)) /
        total nodes weight := by
  have hbond : ∀ {community : V → C} (i j : V),
      (if community i = community j then bond nodes weight i j else 0) =
        if community j = community i then bond nodes weight j i else 0 := by
    intro community i j
    simp only [bond_comm hsymm i j, eq_comm]
  have hmoved : ∀ j ∈ nodes.erase x, Function.update community x c j = community j :=
    fun j hj => Function.update_of_ne (Finset.ne_of_mem_erase hj) _ _
  have hrow : ∑ j ∈ nodes.erase x, (if Function.update community x c x =
      Function.update community x c j then bond nodes weight x j else 0) =
        pull nodes weight community x c := by
    refine Finset.sum_congr rfl fun j hj => ?_
    rw [hmoved j hj, Function.update_self]
    simp only [eq_comm]
  have hrow' : ∑ j ∈ nodes.erase x,
      (if community x = community j then bond nodes weight x j else 0) =
        pull nodes weight community x (community x) := by
    refine Finset.sum_congr rfl fun j _ => ?_
    simp only [eq_comm]
  have hrest : ∑ i ∈ nodes.erase x, ∑ j ∈ nodes.erase x, (if Function.update community x c i =
      Function.update community x c j then bond nodes weight i j else 0) =
        ∑ i ∈ nodes.erase x, ∑ j ∈ nodes.erase x,
          if community i = community j then bond nodes weight i j else 0 := by
    refine Finset.sum_congr rfl fun i hi => Finset.sum_congr rfl fun j hj => ?_
    rw [hmoved i hi, hmoved j hj]
  rw [modularity, modularity, ← sub_div, sum_erase_sum (fun i j => hbond i j) hx,
    sum_erase_sum (fun i j => hbond i j) hx, hrow, hrow', hrest, if_pos rfl, if_pos rfl]
  ring

theorem degreeIn_update (community : V → C) (hx : x ∈ nodes) (d c : C) :
    degreeIn nodes weight (Function.update community x d) c =
      degreeIn nodes weight community c -
        (if community x = c then degree nodes weight x else 0) +
          if d = c then degree nodes weight x else 0 := by
  have hrest : ∑ j ∈ nodes.erase x, (if Function.update community x d j = c then
      degree nodes weight j else 0) =
        ∑ j ∈ nodes.erase x, if community j = c then degree nodes weight j else 0 := by
    refine Finset.sum_congr rfl fun j hj => ?_
    rw [Function.update_of_ne (Finset.ne_of_mem_erase hj)]
  rw [degreeIn, degreeIn, ← Finset.add_sum_erase nodes _ hx, hrest,
    ← Finset.add_sum_erase nodes (fun j => if community j = c then _ else _) hx,
    Function.update_self]
  ring

-- What a move is worth, when the degrees of the old community are counted without the node.
def gain (nodes : Finset V) (weight : V → V → K) (community : V → C) (x : V) (c : C) : K :=
  (weightTo nodes weight community x c / total nodes weight -
      degreeIn nodes weight community c * degree nodes weight x /
        (total nodes weight * total nodes weight)) -
    (weightTo nodes weight community x (community x) / total nodes weight -
      (degreeIn nodes weight community (community x) - degree nodes weight x) *
        degree nodes weight x / (total nodes weight * total nodes weight))

-- The gain counts the self-loop of the node to its old community, so that it falls short of
-- the change.
theorem modularity_update_eq_gain (hsymm : ∀ i j, weight i j = weight j i) (hx : x ∈ nodes)
    (htotal : total nodes weight ≠ 0) {c : C} (hne : community x ≠ c) :
    modularity nodes weight (Function.update community x c) - modularity nodes weight community =
      2 * (gain nodes weight community x c + weight x x / total nodes weight) := by
  rw [modularity_update hsymm hx, pull_eq community hx, pull_eq community hx, if_neg hne,
    if_pos rfl, gain, bond]
  field_simp
  ring

variable [LinearOrder K] [IsStrictOrderedRing K]

-- A move of positive gain ascends.
theorem modularity_lt_update (hsymm : ∀ i j, weight i j = weight j i) (hx : x ∈ nodes)
    (htotal : 0 < total nodes weight) (hloop : 0 ≤ weight x x) {c : C} (hne : community x ≠ c)
    (hgain : 0 < gain nodes weight community x c) :
    modularity nodes weight community <
      modularity nodes weight (Function.update community x c) := by
  have hchange := modularity_update_eq_gain hsymm hx htotal.ne' hne
  have hrest : 0 ≤ weight x x / total nodes weight := div_nonneg hloop htotal.le
  have hpos := mul_pos two_pos (add_pos_of_pos_of_nonneg hgain hrest)
  rw [← hchange] at hpos
  exact sub_pos.mp hpos

end Move

section Adjacent

variable {nodes : Finset V} {weight : V → V → K} {community : V → C}
  [LinearOrder K] [IsStrictOrderedRing K]

omit [DecidableEq V] in
-- A sum over the adjacent nodes of each community leaves out what is expected of those that are
-- not adjacent, a node and itself among them.
theorem sum_adjacent_eq_iff (adjacent : V → V → Prop) [DecidableRel adjacent]
    (hzero : ∀ i j, ¬ adjacent i j → weight i j = 0)
    (hdegree : ∀ i ∈ nodes, 0 ≤ degree nodes weight i) (htotal : 0 < total nodes weight) :
    (∑ i ∈ nodes, ∑ j ∈ nodes, if adjacent i j then
        if community i = community j then bond nodes weight i j else 0 else 0) /
        total nodes weight = modularity nodes weight community ↔
      ∀ i ∈ nodes, ∀ j ∈ nodes, community i = community j → 0 < degree nodes weight i →
        0 < degree nodes weight j → adjacent i j := by
  let missing (i j : V) : K :=
    if adjacent i j then 0 else if community i = community j then
      degree nodes weight i * degree nodes weight j / total nodes weight else 0
  have hmissing : ∀ i ∈ nodes, ∀ j ∈ nodes, 0 ≤ missing i j := by
    intro i hi j hj
    dsimp only [missing]
    split_ifs
    · exact le_rfl
    · exact div_nonneg (mul_nonneg (hdegree i hi) (hdegree j hj)) htotal.le
    · exact le_rfl
  have hsplit : ∀ i j, (if adjacent i j then
      if community i = community j then bond nodes weight i j else 0 else 0) =
        (if community i = community j then bond nodes weight i j else 0) + missing i j := by
    intro i j
    dsimp only [missing]
    split_ifs with hadj hsame hsame
    · exact (add_zero _).symm
    · exact (add_zero _).symm
    · rw [bond, hzero i j hadj, zero_sub, neg_add_cancel]
    · exact (add_zero _).symm
  simp only [hsplit, Finset.sum_add_distrib]
  rw [modularity, div_left_inj' htotal.ne', add_eq_left,
    Finset.sum_eq_zero_iff_of_nonneg fun i hi => Finset.sum_nonneg (hmissing i hi)]
  refine forall₂_congr fun i hi => ?_
  rw [Finset.sum_eq_zero_iff_of_nonneg (hmissing i hi)]
  refine forall₂_congr fun j hj => ?_
  dsimp only [missing]
  constructor
  · intro hnone hsame hi' hj'
    by_contra hadj
    rw [if_neg hadj, if_pos hsame] at hnone
    exact (div_pos (mul_pos hi' hj') htotal).ne' hnone
  · intro hall
    split_ifs with hadj hsame
    · rfl
    · by_contra hne
      obtain hi' | hi' := (hdegree i hi).eq_or_lt
      · rw [← hi', zero_mul, zero_div] at hne
        exact hne rfl
      obtain hj' | hj' := (hdegree j hj).eq_or_lt
      · rw [← hj', mul_zero, zero_div] at hne
        exact hne rfl
      exact hadj (hall hsame hi' hj')
    · rfl

end Adjacent

section Ascent

variable {α : Type} [LinearOrder K] {states : Finset α} {value : α → K} {a b : α}

-- The states that are still above a state.
def above (states : Finset α) (value : α → K) (a : α) : Nat :=
  (states.filter fun b => value a < value b).card

omit [Field K] in
theorem above_lt (hb : b ∈ states) (h : value a < value b) :
    above states value b < above states value a := by
  refine Finset.card_lt_card ⟨fun c hc => ?_, fun hsub => ?_⟩
  · rw [Finset.mem_filter] at hc ⊢
    exact ⟨hc.1, h.trans hc.2⟩
  · have hmem := hsub (Finset.mem_filter.mpr ⟨hb, h⟩)
    exact lt_irrefl _ (Finset.mem_filter.mp hmem).2

omit [Field K] in
theorem above_lt_card (ha : a ∈ states) : above states value a < states.card := by
  refine Finset.card_lt_card ⟨Finset.filter_subset _ _, fun hsub => ?_⟩
  exact lt_irrefl _ (Finset.mem_filter.mp (hsub ha)).2

end Ascent

end M1nd.Library.Modularity
