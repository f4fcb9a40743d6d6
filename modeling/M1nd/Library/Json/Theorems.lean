import M1nd.Library.Json

namespace M1nd.Library.Json

theorem utf8_injective : Function.Injective utf8 := by
  intro s t h
  apply String.toByteArray_inj.mp
  apply ByteArray.ext
  exact Array.toList_inj.mp h

-- Reads back the byte an escape stands for.
private def unhex (b : UInt8) : UInt8 :=
  if b < 'a'.toUInt8 then b - '0'.toUInt8 else b - 'a'.toUInt8 + 10

private def readByte : Bytes → Option (UInt8 × Bytes)
  | 92 :: 98 :: rest => some (8, rest)
  | 92 :: 116 :: rest => some (9, rest)
  | 92 :: 110 :: rest => some (10, rest)
  | 92 :: 102 :: rest => some (12, rest)
  | 92 :: 114 :: rest => some (13, rest)
  | 92 :: 117 :: _ :: _ :: high :: low :: rest => some ((unhex high <<< 4) + unhex low, rest)
  | 92 :: b :: rest => some (b, rest)
  | b :: rest => some (b, rest)
  | [] => none

private theorem unhex_hexDigit_nibbles :
    ∀ n : Fin 32,
      (unhex (hexDigit (UInt8.ofNat n.val >>> 4)) <<< 4) +
        unhex (hexDigit (UInt8.ofNat n.val &&& 15)) = UInt8.ofNat n.val := by
  decide

private theorem readByte_escapeByte (b : UInt8) (rest : Bytes) :
    readByte (escapeByte b ++ rest) = some (b, rest) := by
  unfold escapeByte
  split_ifs with h8 h9 h10 h12 h13 hquote hslash hcontrol
  · subst h8; rfl
  · subst h9; rfl
  · subst h10; rfl
  · subst h12; rfl
  · subst h13; rfl
  · subst hquote; rfl
  · subst hslash; rfl
  · have hnibbles := unhex_hexDigit_nibbles ⟨b.toNat, by simpa [UInt8.lt_iff_toNat_lt] using hcontrol⟩
    simp only [UInt8.ofNat_toNat] at hnibbles
    change some ((unhex (hexDigit (b >>> 4)) <<< 4) + unhex (hexDigit (b &&& 15)), rest) = _
    rw [hnibbles]
  · have hne : b ≠ 92 := hslash
    unfold readByte
    split <;> simp_all

private theorem escapeByte_append_inj {a b : UInt8} {x y : Bytes}
    (h : escapeByte a ++ x = escapeByte b ++ y) : a = b ∧ x = y := by
  have hread := congrArg readByte h
  rw [readByte_escapeByte, readByte_escapeByte] at hread
  simpa using hread

-- No escape begins with the closing quote, and none holds a control byte.
private theorem escapeByte_ne_quote (b : UInt8) (x y : Bytes) :
    escapeByte b ++ x ≠ '"'.toUInt8 :: y := by
  intro h
  have hread := congrArg readByte h
  rw [readByte_escapeByte] at hread
  have hb : b = '"'.toUInt8 := (Prod.ext_iff.mp (Option.some.inj hread)).1
  subst hb
  have hquote : escapeByte '"'.toUInt8 = [92, 34] := rfl
  rw [hquote, List.cons_append, List.cons.injEq] at h
  exact absurd h.1 (by decide)

private theorem flatMap_escapeByte_inj {s t : Bytes} {x y : Bytes}
    (h : s.flatMap escapeByte ++ '"'.toUInt8 :: x = t.flatMap escapeByte ++ '"'.toUInt8 :: y) :
    s = t ∧ x = y := by
  induction s generalizing t with
  | nil =>
      cases t with
      | nil => simpa using h
      | cons b t =>
          rw [List.flatMap_cons, List.append_assoc] at h
          exact absurd h.symm (escapeByte_ne_quote b _ _)
  | cons a s ih =>
      cases t with
      | nil =>
          rw [List.flatMap_cons, List.append_assoc] at h
          exact absurd h (escapeByte_ne_quote a _ _)
      | cons b t =>
          rw [List.flatMap_cons, List.flatMap_cons, List.append_assoc, List.append_assoc] at h
          obtain ⟨hab, hrest⟩ := escapeByte_append_inj h
          obtain ⟨hst, hxy⟩ := ih hrest
          exact ⟨by rw [hab, hst], hxy⟩

theorem writeString_append_inj {s t : String} {x y : Bytes}
    (h : writeString s ++ x = writeString t ++ y) : s = t ∧ x = y := by
  simp only [writeString, List.cons_append, List.append_assoc, List.cons.injEq, true_and,
    List.nil_append] at h
  obtain ⟨hst, hxy⟩ := flatMap_escapeByte_inj h
  exact ⟨utf8_injective hst, hxy⟩

-- What may follow a number: a byte that does not belong to it, or nothing.
def Follow (x : Bytes) : Prop :=
  ∀ b ∈ x.head?, isNumberByte b = false

private theorem takeWhile_number (n : Number) {x : Bytes} (hx : Follow x) :
    (n.text ++ x).takeWhile isNumberByte = n.text := by
  rw [List.takeWhile_append_of_pos n.wellFormed]
  cases x with
  | nil => simp
  | cons b x => simp [hx b rfl]

private theorem number_append_inj {n m : Number} {x y : Bytes} (hx : Follow x) (hy : Follow y)
    (h : n.text ++ x = m.text ++ y) : n = m ∧ x = y := by
  have htext : n.text = m.text := by
    rw [← takeWhile_number n hx, ← takeWhile_number m hy, h]
  obtain ⟨text, hne, hwf⟩ := n
  obtain ⟨text', hne', hwf'⟩ := m
  obtain rfl : text = text' := htext
  exact ⟨rfl, List.append_cancel_left h⟩

-- The first byte of a written value tells its constructor.
private inductive Shape
  | null | true | false | number | string | array | object | none

private def Value.shape : Value → Shape
  | .null => .null
  | .bool Bool.true => .true
  | .bool Bool.false => .false
  | .number _ => .number
  | .string _ => .string
  | .array _ => .array
  | .object _ => .object

private def shapeOf (b : UInt8) : Shape :=
  if isNumberByte b then .number
  else if b = 'n'.toUInt8 then .null
  else if b = 't'.toUInt8 then .true
  else if b = 'f'.toUInt8 then .false
  else if b = '"'.toUInt8 then .string
  else if b = '['.toUInt8 then .array
  else if b = '{'.toUInt8 then .object
  else .none

private theorem head_write (v : Value) (x : Bytes) :
    (v.write ++ x).head?.map shapeOf = some v.shape := by
  match v with
  | .null => rfl
  | .bool true => rfl
  | .bool false => rfl
  | .number n =>
      obtain ⟨text, hne, hwf⟩ := n
      cases text with
      | nil => exact absurd rfl hne
      | cons b text =>
          have hb : isNumberByte b = true := hwf b List.mem_cons_self
          simp [Value.write, Value.shape, shapeOf, hb]
  | .string s => rfl
  | .array items => rfl
  | .object members => rfl

private theorem shape_eq_of_write_append {v w : Value} {x y : Bytes}
    (h : v.write ++ x = w.write ++ y) : v.shape = w.shape := by
  have hshape := head_write v x
  rw [h, head_write w y] at hshape
  exact (Option.some.inj hshape).symm

private theorem write_append_ne_cons (v : Value) (x y : Bytes) {b : UInt8}
    (hb : shapeOf b = .none) : v.write ++ x ≠ b :: y := by
  intro h
  have hshape := head_write v x
  rw [h, List.head?_cons, Option.map_some, hb] at hshape
  cases v with
  | bool value => cases value <;> cases hshape
  | _ => cases hshape

private theorem follow_cons {b : UInt8} {x : Bytes} (hb : isNumberByte b = false) :
    Follow (b :: x) := by
  intro c hc
  cases hc
  exact hb

private theorem follow_writeMoreItems (items : List Value) (x : Bytes) :
    Follow (Value.writeMoreItems items ++ x) := by
  cases items <;> exact follow_cons rfl

private theorem follow_writeMoreMembers (members : List (String × Value)) (x : Bytes) :
    Follow (Value.writeMoreMembers members ++ x) := by
  cases members <;> exact follow_cons rfl

-- A written value can be read off the front of any bytes that begin with it: the
-- writer is injective, and no written value is a proper prefix of another one
-- unless both are numbers.
mutual

theorem write_append_inj {v w : Value} {x y : Bytes} (hx : Follow x) (hy : Follow y)
    (h : v.write ++ x = w.write ++ y) : v = w ∧ x = y := by
  have hshape := shape_eq_of_write_append h
  match v, w with
  | .null, .null => exact ⟨rfl, List.append_cancel_left h⟩
  | .bool true, .bool true => exact ⟨rfl, List.append_cancel_left h⟩
  | .bool false, .bool false => exact ⟨rfl, List.append_cancel_left h⟩
  | .number n, .number m =>
      obtain ⟨rfl, hxy⟩ := number_append_inj hx hy h
      exact ⟨rfl, hxy⟩
  | .string s, .string t =>
      obtain ⟨rfl, hxy⟩ := writeString_append_inj h
      exact ⟨rfl, hxy⟩
  | .array items, .array items' =>
      obtain ⟨rfl, hxy⟩ := writeItems_append_inj (List.cons.inj h).2
      exact ⟨rfl, hxy⟩
  | .object members, .object members' =>
      obtain ⟨rfl, hxy⟩ := writeMembers_append_inj (List.cons.inj h).2
      exact ⟨rfl, hxy⟩

theorem writeItems_append_inj {items items' : List Value} {x y : Bytes}
    (h : Value.writeItems items ++ x = Value.writeItems items' ++ y) : items = items' ∧ x = y := by
  match items, items' with
  | [], [] => exact ⟨rfl, List.append_cancel_left h⟩
  | [], item :: items' =>
      rw [Value.writeItems, Value.writeItems, List.append_assoc] at h
      exact absurd h.symm (write_append_ne_cons _ _ _ rfl)
  | item :: items, [] =>
      rw [Value.writeItems, Value.writeItems, List.append_assoc] at h
      exact absurd h (write_append_ne_cons _ _ _ rfl)
  | item :: items, item' :: items' =>
      simp only [Value.writeItems, List.append_assoc] at h
      obtain ⟨rfl, hrest⟩ := write_append_inj (follow_writeMoreItems _ _)
        (follow_writeMoreItems _ _) h
      obtain ⟨rfl, hxy⟩ := writeMoreItems_append_inj hrest
      exact ⟨rfl, hxy⟩

theorem writeMoreItems_append_inj {items items' : List Value} {x y : Bytes}
    (h : Value.writeMoreItems items ++ x = Value.writeMoreItems items' ++ y) :
    items = items' ∧ x = y := by
  match items, items' with
  | [], [] => exact ⟨rfl, List.append_cancel_left h⟩
  | [], item :: items' => exact absurd (List.cons.inj h).1 (by decide)
  | item :: items, [] => exact absurd (List.cons.inj h).1 (by decide)
  | item :: items, item' :: items' =>
      simp only [Value.writeMoreItems, List.cons_append, List.append_assoc] at h
      obtain ⟨rfl, hrest⟩ := write_append_inj (follow_writeMoreItems _ _)
        (follow_writeMoreItems _ _) (List.cons.inj h).2
      obtain ⟨rfl, hxy⟩ := writeMoreItems_append_inj hrest
      exact ⟨rfl, hxy⟩

theorem writeMembers_append_inj {members members' : List (String × Value)} {x y : Bytes}
    (h : Value.writeMembers members ++ x = Value.writeMembers members' ++ y) :
    members = members' ∧ x = y := by
  match members, members' with
  | [], [] => exact ⟨rfl, List.append_cancel_left h⟩
  | [], (key, value) :: members' => exact absurd (List.cons.inj h).1 (by decide)
  | (key, value) :: members, [] => exact absurd (List.cons.inj h).1 (by decide)
  | (key, value) :: members, (key', value') :: members' =>
      simp only [Value.writeMembers, List.append_assoc, List.cons_append] at h
      obtain ⟨rfl, hvalue⟩ := writeString_append_inj h
      obtain ⟨rfl, hrest⟩ := write_append_inj (follow_writeMoreMembers _ _)
        (follow_writeMoreMembers _ _) (List.cons.inj hvalue).2
      obtain ⟨rfl, hxy⟩ := writeMoreMembers_append_inj hrest
      exact ⟨rfl, hxy⟩

theorem writeMoreMembers_append_inj {members members' : List (String × Value)} {x y : Bytes}
    (h : Value.writeMoreMembers members ++ x = Value.writeMoreMembers members' ++ y) :
    members = members' ∧ x = y := by
  match members, members' with
  | [], [] => exact ⟨rfl, List.append_cancel_left h⟩
  | [], (key, value) :: members' => exact absurd (List.cons.inj h).1 (by decide)
  | (key, value) :: members, [] => exact absurd (List.cons.inj h).1 (by decide)
  | (key, value) :: members, (key', value') :: members' =>
      simp only [Value.writeMoreMembers, List.append_assoc, List.cons_append] at h
      obtain ⟨rfl, hvalue⟩ := writeString_append_inj (List.cons.inj h).2
      obtain ⟨rfl, hrest⟩ := write_append_inj (follow_writeMoreMembers _ _)
        (follow_writeMoreMembers _ _) (List.cons.inj hvalue).2
      obtain ⟨rfl, hxy⟩ := writeMoreMembers_append_inj hrest
      exact ⟨rfl, hxy⟩

end

theorem write_injective : Function.Injective Value.write := by
  intro v w h
  have happend : v.write ++ [] = w.write ++ [] := by rw [h]
  exact (write_append_inj (fun b hb => by cases hb) (fun b hb => by cases hb) happend).1

-- Two values are compared by what is written for them.
instance : DecidableEq Value :=
  fun _ _ => decidable_of_iff _ write_injective.eq_iff

theorem write_ne_nil (v : Value) : v.write ≠ [] := by
  intro h
  have hshape := head_write v []
  rw [h] at hshape
  cases hshape

-- Nothing the writer emits is a control byte; in particular it emits no newline.
private theorem escapeByte_control :
    ∀ n : Fin 32, (escapeByte (UInt8.ofNat n.val)).all (32 ≤ ·) = true := by
  decide +kernel

private theorem escapeByte_printable (b : UInt8) : ∀ c ∈ escapeByte b, 32 ≤ c := by
  by_cases hb : b.toNat < 32
  · simpa using escapeByte_control ⟨b.toNat, hb⟩
  · have hle : 32 ≤ b := by
      rw [UInt8.le_iff_toNat_le]
      simpa using hb
    have hcontrol : ¬ b < 32 := by
      rw [UInt8.lt_iff_toNat_lt]
      exact hb
    unfold escapeByte
    split_ifs with h8 h9 h10 h12 h13 hquote hslash
    · decide +kernel
    · decide +kernel
    · decide +kernel
    · decide +kernel
    · decide +kernel
    · decide +kernel
    · decide +kernel
    · intro c hc
      rw [List.mem_singleton.mp hc]
      exact hle

private theorem writeString_printable (s : String) : ∀ b ∈ writeString s, 32 ≤ b := by
  intro b hb
  simp only [writeString, List.mem_append, List.mem_cons, List.mem_flatMap,
    List.not_mem_nil, or_false] at hb
  obtain (rfl | ⟨a, -, hb⟩) | rfl := hb
  · decide +kernel
  · exact escapeByte_printable a b hb
  · decide +kernel

private theorem number_printable (n : Number) : ∀ b ∈ n.text, 32 ≤ b := by
  intro b hb
  have hnumber := n.wellFormed b hb
  simp only [isNumberByte, Bool.or_eq_true, Bool.and_eq_true, decide_eq_true_eq] at hnumber
  obtain ((((hdigit | rfl) | rfl) | rfl) | rfl) | rfl := hnumber
  · exact UInt8.le_trans (by decide +kernel) hdigit.1
  all_goals decide +kernel

mutual

theorem write_printable (v : Value) : ∀ b ∈ v.write, 32 ≤ b := by
  match v with
  | .null => decide +kernel
  | .bool true => decide +kernel
  | .bool false => decide +kernel
  | .number n => exact number_printable n
  | .string s => exact writeString_printable s
  | .array items =>
      rw [Value.write, List.forall_mem_cons]
      exact ⟨by decide +kernel, writeItems_printable items⟩
  | .object members =>
      rw [Value.write, List.forall_mem_cons]
      exact ⟨by decide +kernel, writeMembers_printable members⟩

theorem writeItems_printable (items : List Value) : ∀ b ∈ Value.writeItems items, 32 ≤ b := by
  match items with
  | [] => decide +kernel
  | item :: items =>
      rw [Value.writeItems, List.forall_mem_append]
      exact ⟨write_printable item, writeMoreItems_printable items⟩

theorem writeMoreItems_printable (items : List Value) :
    ∀ b ∈ Value.writeMoreItems items, 32 ≤ b := by
  match items with
  | [] => decide +kernel
  | item :: items =>
      rw [Value.writeMoreItems, List.forall_mem_append, List.forall_mem_cons]
      exact ⟨⟨by decide +kernel, write_printable item⟩, writeMoreItems_printable items⟩

theorem writeMembers_printable (members : List (String × Value)) :
    ∀ b ∈ Value.writeMembers members, 32 ≤ b := by
  match members with
  | [] => decide +kernel
  | (key, value) :: members =>
      rw [Value.writeMembers, List.forall_mem_append, List.forall_mem_append,
        List.forall_mem_cons]
      exact ⟨⟨writeString_printable key, by decide +kernel, write_printable value⟩,
        writeMoreMembers_printable members⟩

theorem writeMoreMembers_printable (members : List (String × Value)) :
    ∀ b ∈ Value.writeMoreMembers members, 32 ≤ b := by
  match members with
  | [] => decide +kernel
  | (key, value) :: members =>
      rw [Value.writeMoreMembers, List.forall_mem_append, List.forall_mem_append,
        List.forall_mem_cons, List.forall_mem_cons]
      exact ⟨⟨⟨by decide +kernel, writeString_printable key⟩, by decide +kernel, write_printable value⟩,
        writeMoreMembers_printable members⟩

end

theorem newline_not_mem_write (v : Value) : '\n'.toUInt8 ∉ v.write :=
  fun h => absurd (write_printable v _ h) (by decide +kernel)

private theorem ofNat_toUInt8 {c : Char} (h : c.isDigit = true) :
    Char.ofNat c.toUInt8.toNat = c := by
  have hrange : c.val.toNat ≤ 57 := by
    have hdigit : 48 ≤ c.val.toNat ∧ c.val.toNat ≤ 57 := by
      simpa [Char.isDigit, UInt32.le_iff_toNat_le] using h
    exact hdigit.2
  have hbyte : c.toUInt8.toNat = c.toNat := by
    simp only [Char.toUInt8, UInt32.toNat_toUInt8, Char.toNat]
    omega
  rw [hbyte, Char.ofNat_toNat]

private theorem map_digits (n : Nat) :
    ((Nat.toDigits 10 n).map Char.toUInt8).map (fun b => Char.ofNat b.toNat) =
      Nat.toDigits 10 n := by
  rw [List.map_map]
  calc (Nat.toDigits 10 n).map _
      = (Nat.toDigits 10 n).map id := List.map_congr_left fun c hc =>
        ofNat_toUInt8 (Nat.isDigit_of_mem_toDigits (by omega) (by omega) hc)
    _ = Nat.toDigits 10 n := List.map_id _

theorem Number.ofNat_injective : Function.Injective Number.ofNat := by
  intro n m h
  have htext : (Nat.toDigits 10 n).map Char.toUInt8 = (Nat.toDigits 10 m).map Char.toUInt8 :=
    congrArg Number.text h
  have hdigits : Nat.toDigits 10 n = Nat.toDigits 10 m := by
    rw [← map_digits n, htext, map_digits m]
  rw [← Nat.ofDigitChars_toDigits (b := 10) (n := n) (by omega) (by omega), hdigits,
    Nat.ofDigitChars_toDigits (by omega) (by omega)]

theorem Value.ofNat_injective : Function.Injective Value.ofNat :=
  fun _ _ h => Number.ofNat_injective (Value.number.inj h)

@[simp]
theorem Value.ofNat_inj {n m : Nat} : Value.ofNat n = Value.ofNat m ↔ n = m :=
  Value.ofNat_injective.eq_iff

end M1nd.Library.Json
