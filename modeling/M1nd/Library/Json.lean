import Mathlib.Data.List.Sort
import Mathlib.Data.Nat.Notation

namespace M1nd.Library.Json

abbrev Bytes := List UInt8

def utf8 (s : String) : Bytes :=
  s.toByteArray.data.toList

-- The bytes a number is written with: sign, digits, point and exponent.
def isNumberByte (b : UInt8) : Bool :=
  ('0'.toUInt8 ≤ b && b ≤ '9'.toUInt8) || b = '-'.toUInt8 || b = '+'.toUInt8 ||
    b = '.'.toUInt8 || b = 'E'.toUInt8 || b = 'e'.toUInt8

-- A number is kept as the text it is written with.
structure Number where
  text : Bytes
  nonempty : text ≠ []
  wellFormed : ∀ b ∈ text, isNumberByte b = true

private theorem isNumberByte_of_isDigit {c : Char} (h : c.isDigit = true) :
    isNumberByte c.toUInt8 = true := by
  have hrange : 48 ≤ c.val.toNat ∧ c.val.toNat ≤ 57 := by
    simpa [Char.isDigit, UInt32.le_iff_toNat_le] using h
  have hbyte : c.toUInt8.toNat = c.val.toNat := by
    simp only [Char.toUInt8, UInt32.toNat_toUInt8]
    omega
  have hdigit : '0'.toUInt8 ≤ c.toUInt8 ∧ c.toUInt8 ≤ '9'.toUInt8 := by
    rw [UInt8.le_iff_toNat_le, UInt8.le_iff_toNat_le, hbyte]
    exact hrange
  simp [isNumberByte, hdigit]

-- An object keeps its members in the order they are written in.
inductive Value
  | null
  | bool (value : Bool)
  | number (value : Number)
  | string (value : String)
  | array (items : List Value)
  | object (members : List (String × Value))

def hexDigit (n : UInt8) : UInt8 :=
  if n < 10 then '0'.toUInt8 + n else 'a'.toUInt8 + (n - 10)

def escapeByte (b : UInt8) : Bytes :=
  if b = 8 then utf8 "\\b"
  else if b = 9 then utf8 "\\t"
  else if b = 10 then utf8 "\\n"
  else if b = 12 then utf8 "\\f"
  else if b = 13 then utf8 "\\r"
  else if b = '"'.toUInt8 then utf8 "\\\""
  else if b = '\\'.toUInt8 then utf8 "\\\\"
  else if b < 32 then utf8 "\\u00" ++ [hexDigit (b >>> 4), hexDigit (b &&& 15)]
  else [b]

def writeString (s : String) : Bytes :=
  '"'.toUInt8 :: (utf8 s).flatMap escapeByte ++ ['"'.toUInt8]

-- The compact writer: no blanks, commas between items, a colon after each key.
mutual

def Value.write : Value → Bytes
  | .null => utf8 "null"
  | .bool true => utf8 "true"
  | .bool false => utf8 "false"
  | .number n => n.text
  | .string s => writeString s
  | .array items => '['.toUInt8 :: writeItems items
  | .object members => '{'.toUInt8 :: writeMembers members

def Value.writeItems : List Value → Bytes
  | [] => [']'.toUInt8]
  | item :: items => item.write ++ writeMoreItems items

def Value.writeMoreItems : List Value → Bytes
  | [] => [']'.toUInt8]
  | item :: items => ','.toUInt8 :: item.write ++ writeMoreItems items

def Value.writeMembers : List (String × Value) → Bytes
  | [] => ['}'.toUInt8]
  | (key, value) :: members =>
      writeString key ++ ':'.toUInt8 :: value.write ++ writeMoreMembers members

def Value.writeMoreMembers : List (String × Value) → Bytes
  | [] => ['}'.toUInt8]
  | (key, value) :: members =>
      ','.toUInt8 :: writeString key ++ ':'.toUInt8 :: value.write ++ writeMoreMembers members

end

-- Objects with their keys in order, all the way down.
mutual

def Value.sortKeys : Value → Value
  | .array items => .array (sortKeysItems items)
  | .object members =>
      .object ((sortKeysMembers members).insertionSort fun a b => a.1 ≤ b.1)
  | value => value

def Value.sortKeysItems : List Value → List Value
  | [] => []
  | item :: items => item.sortKeys :: sortKeysItems items

def Value.sortKeysMembers : List (String × Value) → List (String × Value)
  | [] => []
  | (key, value) :: members => (key, value.sortKeys) :: sortKeysMembers members

end

def Value.remove (key : String) : Value → Value
  | .object members => .object (members.filter fun member => member.1 ≠ key)
  | value => value

def Value.adjust (key : String) (f : Value → Value) : Value → Value
  | .object members =>
      .object (members.map fun member => if member.1 = key then (key, f member.2) else member)
  | value => value

def Value.ofOption {α : Type} (encode : α → Value) : Option α → Value
  | none => .null
  | some a => encode a

def Number.ofNat (n : Nat) : Number where
  text := (Nat.toDigits 10 n).map Char.toUInt8
  nonempty := by simp
  wellFormed := by
    intro b hb
    obtain ⟨c, hc, rfl⟩ := List.mem_map.mp hb
    have hdigit := Nat.isDigit_of_mem_toDigits (by omega) (by omega) hc
    exact isNumberByte_of_isDigit hdigit

def Value.ofNat (n : Nat) : Value :=
  .number (.ofNat n)

end M1nd.Library.Json
