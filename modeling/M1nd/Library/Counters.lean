import Mathlib.Data.BitVec
import Mathlib.Data.List.Basic
import Mathlib.Logic.Function.Iterate
import Mathlib.Order.Monotone.Basic

namespace M1nd.Library.Counters

variable {α κ : Type}

-- Each key of a list changes its entry by one operation.
theorem foldl_update [DecidableEq κ] [BEq κ] [LawfulBEq κ] (op : α → α) (keys : List κ) (table : κ → α) (key : κ) :
    keys.foldl (fun table key => Function.update table key (op (table key))) table key =
      op^[keys.count key] (table key) := by
  induction keys generalizing table with
  | nil => rfl
  | cons first keys ih =>
      rw [List.foldl_cons, ih]
      by_cases he : first = key
      · subst he
        rw [List.count_cons_self, Function.iterate_succ_apply, Function.update_self]
      · rw [List.count_cons_of_ne he, Function.update_of_ne (Ne.symm he)]

theorem getElem?_foldl_modify (op : α → α) (keys : List Nat) (table : List α) (i : Nat) :
    (keys.foldl (fun table key => table.modify key op) table)[i]? =
      table[i]?.map op^[keys.count i] := by
  induction keys generalizing table with
  | nil => simp
  | cons first keys ih =>
      rw [List.foldl_cons, ih, List.getElem?_modify, Option.map_eq_map, Option.map_map]
      by_cases he : first = i
      · subst he
        simp only [List.count_cons_self, Function.iterate_succ, if_true]
      · rw [List.count_cons_of_ne he]
        simp [he, Function.comp_def]

theorem length_foldl_modify (op : α → α) (keys : List Nat) (table : List α) :
    (keys.foldl (fun table key => table.modify key op) table).length = table.length := by
  induction keys generalizing table with
  | nil => rfl
  | cons first keys ih => rw [List.foldl_cons, ih, List.length_modify]

-- A counter that wraps around.
theorem iterate_succ_mod {m c : Nat} (hc : c < m) (n : Nat) :
    (fun c => (c + 1) % m)^[n] c = (c + n) % m := by
  induction n with
  | zero => exact (Nat.mod_eq_of_lt hc).symm
  | succ n ih => rw [Function.iterate_succ_apply', ih, Nat.mod_add_mod, Nat.add_assoc]

-- A counter that stops at zero.
theorem iterate_pred (n c : Nat) : (fun c => c - 1)^[n] c = c - n := by
  induction n with
  | zero => rfl
  | succ n ih =>
      rw [Function.iterate_succ_apply', ih]
      omega

theorem iterate_map (op : α → α) (n : Nat) (entry : Option α) :
    (Option.map op)^[n] entry = entry.map op^[n] := by
  induction n with
  | zero => exact (Option.map_id_apply).symm
  | succ n ih => rw [Function.iterate_succ_apply', ih, Option.map_map, Function.iterate_succ']

-- An entry that is made when it is first counted.
theorem iterate_entry (m n : Nat) (entry : Option Nat) :
    (fun entry : Option Nat => some ((entry.getD 0 + 1) % m))^[n] entry =
      if n = 0 then entry else some ((entry.getD 0 + n) % m) := by
  induction n with
  | zero => rfl
  | succ n ih =>
      rw [Function.iterate_succ_apply', ih, if_neg (Nat.succ_ne_zero n)]
      by_cases hn : n = 0
      · subst hn
        rfl
      · rw [if_neg hn, Option.getD_some, Nat.mod_add_mod, Nat.add_assoc]

theorem sum_set {sizes : List Nat} {i old : Nat} (h : sizes[i]? = some old) (new : Nat) :
    (sizes.set i new).sum + old = sizes.sum + new := by
  induction sizes generalizing i with
  | nil => exact nomatch h
  | cons size sizes ih =>
      cases i with
      | zero =>
          obtain rfl : size = old := Option.some.inj h
          rw [List.set_cons_zero, List.sum_cons, List.sum_cons]
          omega
      | succ i =>
          have hrest := ih h
          rw [List.set_cons_succ, List.sum_cons, List.sum_cons]
          omega

-- A running total that stops growing once it has used up a budget stays within the budget just
-- when no addition jumps over it.
theorem stopped_le_iff {total : Nat → Nat} (hmono : Monotone total) {budget count bound : Nat}
    (hzero : total 0 ≤ budget) (hcount : count ≤ bound) (hbelow : ∀ i < count, total i < budget)
    (hstop : count = bound ∨ budget ≤ total count) :
    total count ≤ budget ↔ ∀ i < bound, total i < budget → total (i + 1) ≤ budget := by
  constructor
  · intro hle i hi hlt
    have hbefore : i < count := by
      by_contra hafter
      obtain rfl | hused := hstop
      · exact hafter hi
      · have hmore := hmono (Nat.not_lt.mp hafter)
        omega
    exact (hmono hbefore).trans hle
  · intro h
    cases count with
    | zero => exact hzero
    | succ last => exact h last hcount (hbelow last (Nat.lt_succ_self last))

end M1nd.Library.Counters

namespace M1nd.Library.Overflow

-- What an addition or a product does that does not fit in a machine word: it panics where
-- overflows are checked, and wraps around elsewhere.
inductive OverflowMode
  | Panics
  | Wraps
deriving DecidableEq

namespace OverflowMode

variable {w : Nat} {a b : BitVec w}

def fit (mode : OverflowMode) (w exact : Nat) : Option (BitVec w) :=
  if exact < 2 ^ w then some (BitVec.ofNat w exact)
  else
    match mode with
    | Panics => none
    | Wraps => some (BitVec.ofNat w exact)

def add (mode : OverflowMode) (a b : BitVec w) : Option (BitVec w) :=
  mode.fit w (a.toNat + b.toNat)

def mul (mode : OverflowMode) (a b : BitVec w) : Option (BitVec w) :=
  mode.fit w (a.toNat * b.toNat)

theorem exists_fit (mode : OverflowMode) {exact : Nat} (h : exact < 2 ^ w) :
    ∃ c, mode.fit w exact = some c ∧ c.toNat = exact :=
  ⟨BitVec.ofNat w exact, if_pos h, (BitVec.toNat_ofNat exact w).trans (Nat.mod_eq_of_lt h)⟩

theorem exists_add (mode : OverflowMode) (h : a.toNat + b.toNat < 2 ^ w) :
    ∃ c, mode.add a b = some c ∧ c.toNat = a.toNat + b.toNat :=
  exists_fit mode h

theorem exists_mul (mode : OverflowMode) (h : a.toNat * b.toNat < 2 ^ w) :
    ∃ c, mode.mul a b = some c ∧ c.toNat = a.toNat * b.toNat :=
  exists_fit mode h

end OverflowMode

end M1nd.Library.Overflow

namespace M1nd.Library.Ring

variable {α : Type} {capacity head : Nat} {slots : List (Option α)} {past : List α}

-- The items that a ring of a capacity still holds, the oldest first.
def window (capacity : Nat) (past : List α) : List α :=
  past.drop (past.length - capacity)

-- A ring after items were written into it, and the slot that is written next.
structure Holds (capacity : Nat) (slots : List (Option α)) (head : Nat) (past : List α) : Prop where
  length : slots.length = capacity
  head : head = past.length % capacity
  held : ∀ i, past.length ≤ i + capacity → i < past.length → slots[i % capacity]? = some past[i]?
  free : ∀ slot, past.length ≤ slot → slot < capacity → slots[slot]? = some none

theorem holds_nil (capacity : Nat) :
    Holds capacity (List.replicate capacity (none : Option α)) 0 [] where
  length := List.length_replicate
  head := (Nat.zero_mod capacity).symm
  held := fun _ _ hi => absurd hi (Nat.not_lt_zero _)
  free := fun _ _ hslot => List.getElem?_replicate_of_lt hslot

-- The places of a window lie in different slots.
theorem mod_ne {i j : Nat} (hlt : i < j) (hj : j < i + capacity) : i % capacity ≠ j % capacity := by
  intro he
  have hdvd : capacity ∣ j - i := Nat.dvd_of_mod_eq_zero (Nat.sub_mod_eq_zero_of_mod_eq he.symm)
  have hle := Nat.le_of_dvd (by omega) hdvd
  omega

theorem Holds.concat (h : Holds capacity slots head past) (hpos : 0 < capacity) (item : α) :
    Holds capacity (slots.set head (some item)) ((head + 1) % capacity) (past ++ [item]) where
  length := by
    rw [List.length_set]
    exact h.length
  head := by
    rw [h.head, List.length_append, List.length_singleton, Nat.mod_add_mod]
  held i hcapacity hi := by
    rw [List.length_append, List.length_singleton] at hcapacity hi
    by_cases hlast : i = past.length
    · subst hlast
      have hhead : past.length % capacity < slots.length := by
        rw [h.length]
        exact Nat.mod_lt _ hpos
      rw [h.head, List.getElem?_set_self hhead, List.getElem?_concat_length]
    · have hne : head ≠ i % capacity := by
        rw [h.head]
        exact Ne.symm (mod_ne (by omega) (by omega))
      rw [List.getElem?_set_ne hne, List.getElem?_append_left (by omega)]
      exact h.held i (by omega) (by omega)
  free slot hslot hcapacity := by
    rw [List.length_append, List.length_singleton] at hslot
    have hne : head ≠ slot := by
      rw [h.head, Nat.mod_eq_of_lt (by omega)]
      omega
    rw [List.getElem?_set_ne hne]
    exact h.free slot (by omega) hcapacity

-- The slot that is written next holds the oldest item of a full ring.
theorem Holds.evict (h : Holds capacity slots head past) (hpos : 0 < capacity) (item : α) :
    ∃ (old : Option α) (rest : List α), slots[head]? = some old ∧
      window capacity past = old.toList ++ rest ∧
      window capacity (past ++ [item]) = rest ++ [item] := by
  unfold window
  rw [h.head, List.length_append, List.length_singleton]
  by_cases hfull : past.length < capacity
  · refine ⟨none, past, ?_, ?_, ?_⟩
    · rw [Nat.mod_eq_of_lt hfull]
      exact h.free past.length (Nat.le_refl _) hfull
    · rw [Nat.sub_eq_zero_of_le (Nat.le_of_lt hfull)]
      rfl
    · rw [Nat.sub_eq_zero_of_le hfull]
      rfl
  · have hlt : past.length - capacity < past.length := by omega
    have hhead : (past.length - capacity) % capacity = past.length % capacity :=
      (Nat.mod_eq_sub_mod (by omega)).symm
    refine ⟨some past[past.length - capacity], past.drop (past.length - capacity + 1), ?_, ?_, ?_⟩
    · rw [← hhead, h.held _ (by omega) hlt, List.getElem?_eq_getElem hlt]
    · exact List.drop_eq_getElem_cons hlt
    · have hnext : past.length + 1 - capacity = past.length - capacity + 1 := by omega
      rw [hnext, List.drop_append_of_le_length (by omega)]

end M1nd.Library.Ring
