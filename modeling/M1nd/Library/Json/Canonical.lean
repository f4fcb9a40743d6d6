import M1nd.Library.Collections
import M1nd.Library.Json.Theorems

namespace M1nd.Library.Json

-- A JSON form whose keys are in order, all the way down.
structure CanonicalValue where
  form : Value
  canonical : form.sortKeys = form
deriving DecidableEq

theorem CanonicalValue.form_injective : Function.Injective CanonicalValue.form := by
  rintro ⟨a, ha⟩ ⟨b, hb⟩ rfl
  rfl

namespace Value

@[simp]
theorem sortKeys_string (s : String) : (string s).sortKeys = string s := rfl

@[simp]
theorem sortKeys_bool (b : Bool) : (bool b).sortKeys = bool b := rfl

@[simp]
theorem sortKeys_ofNat (n : Nat) : (ofNat n).sortKeys = ofNat n := rfl

@[simp]
theorem sortKeys_null : null.sortKeys = null := rfl

@[simp]
theorem sortKeys_canonical (value : CanonicalValue) : value.form.sortKeys = value.form :=
  value.canonical

theorem sortKeysMembers_eq (members : List (String × Value)) :
    sortKeysMembers members = members.map fun member => (member.1, member.2.sortKeys) := by
  induction members with
  | nil => rfl
  | cons member members ih =>
      obtain ⟨key, value⟩ := member
      rw [sortKeysMembers, ih]
      rfl

theorem sortKeys_single (key : String) (value : Value) :
    (object [(key, value)]).sortKeys = object [(key, value.sortKeys)] := rfl

theorem sortKeys_object_ne_null (members : List (String × Value)) :
    (object members).sortKeys ≠ null := by
  simp [sortKeys]

theorem sortKeys_object_perm {members members' : List (String × Value)}
    (h : (object members).sortKeys = (object members').sortKeys) :
    (members.map fun member => (member.1, member.2.sortKeys)).Perm
      (members'.map fun member => (member.1, member.2.sortKeys)) := by
  simp only [sortKeys, object.injEq, sortKeysMembers_eq] at h
  exact ((List.perm_insertionSort _ _).symm.trans (.of_eq h)).trans (List.perm_insertionSort _ _)

-- Members under different keys that come in the same order are settled by their set.
private theorem eq_of_perm_of_keys {members members' : List (String × Value)}
    (hperm : members.Perm members') (hkeys : members.map Prod.fst = members'.map Prod.fst)
    (hnodup : (members.map Prod.fst).Nodup) : members = members' := by
  refine List.ext_getElem hperm.length_eq fun i hi hi' => ?_
  obtain ⟨j, hj, hsame⟩ := List.getElem_of_mem (hperm.mem_iff.mp (List.getElem_mem hi))
  have hmapped : i < (members.map Prod.fst).length := by rwa [List.length_map]
  have hfound : j < (members.map Prod.fst).length := by
    rwa [List.length_map, hperm.length_eq]
  have hkey : (members.map Prod.fst)[j] = (members.map Prod.fst)[i] := by
    rw [List.getElem_of_eq hkeys hfound, List.getElem_map, List.getElem_map, hsame]
  obtain rfl := (List.Nodup.getElem_inj_iff hnodup).mp hkey
  exact hsame.symm

-- Objects with the same keys have the same canonical form only if their members have.
theorem sortKeys_object_inj {members members' : List (String × Value)}
    (hkeys : members.map Prod.fst = members'.map Prod.fst)
    (hnodup : (members.map Prod.fst).Nodup)
    (h : (object members).sortKeys = (object members').sortKeys) :
    (members.map fun member => member.2.sortKeys) =
      members'.map fun member => member.2.sortKeys := by
  have hfst : ∀ members : List (String × Value),
      (members.map fun member => (member.1, member.2.sortKeys)).map Prod.fst =
        members.map Prod.fst := fun members => List.map_map
  have hsnd : ∀ members : List (String × Value),
      (members.map fun member => (member.1, member.2.sortKeys)).map Prod.snd =
        members.map fun member => member.2.sortKeys := fun members => List.map_map
  have hsame := eq_of_perm_of_keys (sortKeys_object_perm h) (by rw [hfst, hfst, hkeys])
    (by rw [hfst]; exact hnodup)
  rw [← hsnd, ← hsnd, hsame]

theorem sortKeys_ofOption_injective {α : Type} {encode : α → Value}
    (hencode : Function.Injective fun a => (encode a).sortKeys)
    (hnull : ∀ a, (encode a).sortKeys ≠ null) :
    Function.Injective fun o : Option α => (ofOption encode o).sortKeys := by
  intro a b h
  cases a with
  | none =>
      cases b with
      | none => rfl
      | some b => exact absurd h.symm (hnull b)
  | some a =>
      cases b with
      | none => exact absurd h (hnull a)
      | some b => exact congrArg some (hencode h)

end Value

end M1nd.Library.Json

namespace M1nd.Library.Json

open M1nd.Library.Collections (lookup_eq_some_iff)

-- Looking into a value.

def Value.asObject : Value → Option (List (String × Value))
  | .object members => some members
  | _ => none

def Value.asStr : Value → Option String
  | .string s => some s
  | _ => none

def Value.get (key : String) (value : Value) : Option Value :=
  value.asObject.bind (List.lookup key)

variable {members : List (String × Value)} {key : String} {value : Value}

-- Putting the keys in order keeps the members, each in its own order.
theorem asObject_sortKeys (hnodup : (members.map Prod.fst).Nodup) :
    ∃ sorted, (Value.object members).sortKeys.asObject = some sorted ∧
      (sorted.map Prod.fst).Perm (members.map Prod.fst) ∧
      ∀ key, sorted.lookup key = (members.lookup key).map Value.sortKeys := by
  have hperm := List.perm_insertionSort (fun a b : String × Value => a.1 ≤ b.1)
    (Value.sortKeysMembers members)
  have hkeys : (Value.sortKeysMembers members).map Prod.fst = members.map Prod.fst := by
    rw [Value.sortKeysMembers_eq]
    exact List.map_map
  refine ⟨_, rfl, (hperm.map Prod.fst).trans (.of_eq hkeys), fun key => ?_⟩
  have hsorted : (((Value.sortKeysMembers members).insertionSort fun a b => a.1 ≤ b.1).map
      Prod.fst).Nodup := by
    rw [(hperm.map Prod.fst).nodup_iff, hkeys]
    exact hnodup
  refine Option.ext fun value => ?_
  rw [← Option.mem_def, Option.mem_def, lookup_eq_some_iff hsorted, hperm.mem_iff,
    Value.sortKeysMembers_eq, List.mem_map, Option.map_eq_some_iff]
  constructor
  · rintro ⟨⟨other, inner⟩, hmem, ⟨⟩⟩
    exact ⟨inner, (lookup_eq_some_iff hnodup).mpr hmem, rfl⟩
  · rintro ⟨inner, hlookup, rfl⟩
    exact ⟨(key, inner), (lookup_eq_some_iff hnodup).mp hlookup, rfl⟩

end M1nd.Library.Json

namespace M1nd.Library.Json

-- The same value: the members of an object may have been inserted in another order.
mutual

inductive Value.Same : Value → Value → Prop
  | null : Same .null .null
  | bool (value : Bool) : Same (.bool value) (.bool value)
  | number (value : Number) : Same (.number value) (.number value)
  | string (value : String) : Same (.string value) (.string value)
  | array {items items' : List Value} (h : SameItems items items') :
      Same (.array items) (.array items')
  | object {members middle members' : List (String × Value)} (horder : members.Perm middle)
      (h : SameMembers middle members') : Same (.object members) (.object members')

inductive Value.SameItems : List Value → List Value → Prop
  | nil : SameItems [] []
  | cons {item item' : Value} {items items' : List Value} (h : Same item item')
      (hrest : SameItems items items') : SameItems (item :: items) (item' :: items')

inductive Value.SameMembers : List (String × Value) → List (String × Value) → Prop
  | nil : SameMembers [] []
  | cons {key : String} {value value' : Value} {members members' : List (String × Value)}
      (h : Same value value') (hrest : SameMembers members members') :
      SameMembers ((key, value) :: members) ((key, value') :: members')

end

-- No object holds a key twice.
mutual

def Value.DistinctKeys : Value → Prop
  | .array items => DistinctItems items
  | .object members => (members.map Prod.fst).Nodup ∧ DistinctMembers members
  | _ => True

def Value.DistinctItems : List Value → Prop
  | [] => True
  | item :: items => item.DistinctKeys ∧ DistinctItems items

def Value.DistinctMembers : List (String × Value) → Prop
  | [] => True
  | (_, value) :: members => value.DistinctKeys ∧ DistinctMembers members

end

namespace Value

variable {members members' : List (String × Value)}

theorem distinctMembers_iff : DistinctMembers members ↔ ∀ member ∈ members, member.2.DistinctKeys := by
  induction members with
  | nil => simp [DistinctMembers]
  | cons member members ih =>
      obtain ⟨key, value⟩ := member
      simp [DistinctMembers, ih]

-- Members under different keys are put in one order, whatever order they come in.
theorem insertionSort_perm (hkeys : (members.map Prod.fst).Nodup) (h : members.Perm members') :
    (members.insertionSort fun a b => a.1 ≤ b.1) =
      members'.insertionSort fun a b => a.1 ≤ b.1 := by
  have hsorted (items : List (String × Value)) :
      (items.insertionSort fun a b => a.1 ≤ b.1).Pairwise fun a b => a.1 ≤ b.1 :=
    List.pairwise_insertionSort _ _
  have hperm : (members.insertionSort fun a b => a.1 ≤ b.1).Perm
      (members'.insertionSort fun a b => a.1 ≤ b.1) :=
    ((List.perm_insertionSort _ _).trans h).trans (List.perm_insertionSort _ _).symm
  refine hperm.eq_of_pairwise ?_ (hsorted members) (hsorted members')
  intro a b ha hb hab hba
  have hmem : a ∈ members := (List.perm_insertionSort _ _).mem_iff.mp ha
  have hmem' : b ∈ members := by
    rw [h.mem_iff]
    exact (List.perm_insertionSort _ _).mem_iff.mp hb
  exact List.inj_on_of_nodup_map hkeys hmem hmem' (String.le_antisymm hab hba)

-- The canonical order forgets the insertion order.
mutual

theorem Same.sortKeys_eq {v w : Value} (h : Same v w) (hkeys : v.DistinctKeys) : v.sortKeys = w.sortKeys := by
  match h with
  | .null => rfl
  | .bool _ => rfl
  | .number _ => rfl
  | .string _ => rfl
  | .array hitems => rw [sortKeys, sortKeys, hitems.sortKeys_eq hkeys]
  | @Value.Same.object members middle _ horder hmembers =>
      obtain ⟨hnodup, hdistinct⟩ := hkeys
      have hmiddle : DistinctMembers middle := by
        rw [distinctMembers_iff] at hdistinct ⊢
        intro member hmember
        exact hdistinct member (horder.mem_iff.mpr hmember)
      have hperm : (sortKeysMembers members).Perm (sortKeysMembers middle) := by
        rw [sortKeysMembers_eq, sortKeysMembers_eq]
        exact horder.map _
      have hfst : (sortKeysMembers members).map Prod.fst = members.map Prod.fst := by
        rw [sortKeysMembers_eq]
        exact List.map_map
      rw [sortKeys, sortKeys, insertionSort_perm (by rwa [hfst]) hperm,
        hmembers.sortKeys_eq hmiddle]

theorem SameItems.sortKeys_eq {items items' : List Value} (h : SameItems items items')
    (hkeys : DistinctItems items) : sortKeysItems items = sortKeysItems items' := by
  match h with
  | .nil => rfl
  | .cons hitem hrest =>
      rw [sortKeysItems, sortKeysItems, hitem.sortKeys_eq hkeys.1, hrest.sortKeys_eq hkeys.2]

theorem SameMembers.sortKeys_eq {members members' : List (String × Value)}
    (h : SameMembers members members') (hkeys : DistinctMembers members) :
    sortKeysMembers members = sortKeysMembers members' := by
  match h with
  | .nil => rfl
  | .cons hvalue hrest =>
      rw [sortKeysMembers, sortKeysMembers, hvalue.sortKeys_eq hkeys.1, hrest.sortKeys_eq hkeys.2]

end

-- Members that come out the same one by one, each under its own key.
private theorem sameMembers_of_map (h : ∀ member ∈ members, ∀ w : Value,
      member.2.sortKeys = w.sortKeys → Same member.2 w)
    (hmap : (members.map fun member => (member.1, member.2.sortKeys)) =
      members'.map fun member => (member.1, member.2.sortKeys)) :
    SameMembers members members' := by
  induction members generalizing members' with
  | nil =>
      have hnil : members' = [] := by simpa using hmap.symm
      rw [hnil]
      exact .nil
  | cons member members ih =>
      obtain ⟨key, value⟩ := member
      cases members' with
      | nil => simp at hmap
      | cons member' members' =>
          obtain ⟨key', value'⟩ := member'
          simp only [List.map_cons, List.cons.injEq, Prod.mk.injEq] at hmap
          obtain ⟨⟨rfl, hvalue⟩, hrest⟩ := hmap
          have hfirst : Same value value' := h (key, value) List.mem_cons_self value' hvalue
          have hother : SameMembers members members' :=
            ih (fun other hother => h other (List.mem_cons_of_mem _ hother)) hrest
          exact .cons hfirst hother

-- The canonical order keeps everything but the insertion order.
mutual

theorem same_of_sortKeys_eq (v w : Value) (h : v.sortKeys = w.sortKeys) : Same v w := by
  match v, w with
  | .null, .null => exact .null
  | .bool b, .bool c =>
      obtain rfl : b = c := Value.bool.inj h
      exact .bool b
  | .number n, .number m =>
      obtain rfl : n = m := Value.number.inj h
      exact .number n
  | .string s, .string t =>
      obtain rfl : s = t := Value.string.inj h
      exact .string s
  | .array items, .array items' =>
      exact .array (sameItems_of_sortKeys_eq items items' (Value.array.inj h))
  | .object members, .object members' =>
      obtain ⟨middle, hmap, hperm⟩ : ∃ middle : List (String × Value),
          (members'.map fun member => (member.1, member.2.sortKeys)) =
            (middle.map fun member => (member.1, member.2.sortKeys)) ∧ middle.Perm members := by
        have hboth := (sortKeys_object_perm h).symm
        exact (congrFun (congrFun (List.eq_map_comp_perm _) _) _).mpr hboth
      refine .object hperm.symm (sameMembers_of_map ?_ hmap.symm)
      intro member hmember
      exact same_of_member members member (hperm.mem_iff.mp hmember)

theorem sameItems_of_sortKeys_eq (items items' : List Value)
    (h : sortKeysItems items = sortKeysItems items') : SameItems items items' := by
  match items, items' with
  | [], [] => exact .nil
  | item :: items, item' :: items' =>
      obtain ⟨hitem, hrest⟩ := List.cons.inj h
      exact .cons (same_of_sortKeys_eq item item' hitem)
        (sameItems_of_sortKeys_eq items items' hrest)

theorem same_of_member (members : List (String × Value)) (member : String × Value)
    (hmember : member ∈ members) (w : Value) (h : member.2.sortKeys = w.sortKeys) :
    Same member.2 w := by
  match members with
  | (key, value) :: rest =>
      obtain rfl | hrest := List.mem_cons.mp hmember
      · exact same_of_sortKeys_eq value w h
      · exact same_of_member rest member hrest w h

end

theorem sortKeys_eq_iff {v w : Value} (hkeys : v.DistinctKeys) :
    v.sortKeys = w.sortKeys ↔ Same v w :=
  ⟨same_of_sortKeys_eq v w, fun h => h.sortKeys_eq hkeys⟩

end Value

-- A value whose objects are maps: each member was inserted under a key of its own.
structure MapValue where
  form : Value
  distinct : form.DistinctKeys

end M1nd.Library.Json
