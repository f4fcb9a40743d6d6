import M1nd.Library.Json.Theorems

namespace M1nd.Library.Json

-- The writer for people: every item and member on a line of its own, two blanks deeper than
-- the brackets around it.
def newLine (depth : Nat) : Bytes :=
  '\n'.toUInt8 :: List.replicate (2 * depth) ' '.toUInt8

mutual

def Value.pretty (depth : Nat) : Value → Bytes
  | .null => utf8 "null"
  | .bool true => utf8 "true"
  | .bool false => utf8 "false"
  | .number n => n.text
  | .string s => writeString s
  | .array items => '['.toUInt8 :: prettyItems depth items
  | .object members => '{'.toUInt8 :: prettyMembers depth members

def Value.prettyItems (depth : Nat) : List Value → Bytes
  | [] => [']'.toUInt8]
  | item :: items =>
      newLine (depth + 1) ++ item.pretty (depth + 1) ++ prettyMoreItems depth items

def Value.prettyMoreItems (depth : Nat) : List Value → Bytes
  | [] => newLine depth ++ [']'.toUInt8]
  | item :: items =>
      ','.toUInt8 :: newLine (depth + 1) ++ item.pretty (depth + 1) ++ prettyMoreItems depth items

def Value.prettyMembers (depth : Nat) : List (String × Value) → Bytes
  | [] => ['}'.toUInt8]
  | (key, value) :: members =>
      newLine (depth + 1) ++ writeString key ++ utf8 ": " ++ value.pretty (depth + 1) ++
        prettyMoreMembers depth members

def Value.prettyMoreMembers (depth : Nat) : List (String × Value) → Bytes
  | [] => newLine depth ++ ['}'.toUInt8]
  | (key, value) :: members =>
      ','.toUInt8 :: newLine (depth + 1) ++ writeString key ++ utf8 ": " ++
        value.pretty (depth + 1) ++ prettyMoreMembers depth members

end

-- Drops the blanks that stand outside of strings.
private inductive Reading
  | Plain
  | Quoted
  | Escaped

private def minify : Reading → Bytes → Bytes
  | _, [] => []
  | .Plain, b :: rest =>
      if b = ' '.toUInt8 ∨ b = '\n'.toUInt8 then minify .Plain rest
      else if b = '"'.toUInt8 then b :: minify .Quoted rest
      else b :: minify .Plain rest
  | .Quoted, b :: rest =>
      if b = '\\'.toUInt8 then b :: minify .Escaped rest
      else if b = '"'.toUInt8 then b :: minify .Plain rest
      else b :: minify .Quoted rest
  | .Escaped, b :: rest => b :: minify .Quoted rest

private theorem minify_newLine (depth : Nat) (rest : Bytes) :
    minify .Plain (newLine depth ++ rest) = minify .Plain rest := by
  have hblanks : ∀ count : Nat, minify .Plain (List.replicate count ' '.toUInt8 ++ rest) =
      minify .Plain rest := by
    intro count
    induction count with
    | zero => rfl
    | succ count ih => simp [List.replicate_succ, minify, ih]
  simp [newLine, minify, hblanks]

private theorem hexDigit_plain :
    ∀ n : Fin 16, hexDigit (UInt8.ofNat n.val) ≠ '\\'.toUInt8 ∧
      hexDigit (UInt8.ofNat n.val) ≠ '"'.toUInt8 := by
  decide

private theorem hexDigit_quoted {digit : UInt8} (h : digit.toNat < 16) (rest : Bytes) :
    minify .Quoted (hexDigit digit :: rest) = hexDigit digit :: minify .Quoted rest := by
  obtain ⟨hslash, hquote⟩ := hexDigit_plain ⟨digit.toNat, h⟩
  simp only [UInt8.ofNat_toNat] at hslash hquote
  rw [minify, if_neg hslash, if_neg hquote]

private theorem minify_escapeByte (b : UInt8) (rest : Bytes) :
    minify .Quoted (escapeByte b ++ rest) = escapeByte b ++ minify .Quoted rest := by
  unfold escapeByte
  split_ifs with h8 h9 h10 h12 h13 hquote hslash hcontrol
  iterate 7 rfl
  · have hhigh : (b >>> 4).toNat < 16 := by
      have hsixteen : 2 ^ (UInt8.toNat 4 % 8) = 16 := rfl
      have hb := b.toNat_lt
      rw [UInt8.toNat_shiftRight, Nat.shiftRight_eq_div_pow, hsixteen]
      omega
    have hlow : (b &&& 15).toNat < 16 := by
      rw [UInt8.toNat_and]
      exact Nat.and_lt_two_pow _ (by decide : (15 : UInt8).toNat < 2 ^ 4)
    have hstart : utf8 "\\u00" = ['\\'.toUInt8, 'u'.toUInt8, '0'.toUInt8, '0'.toUInt8] := rfl
    rw [hstart]
    simp only [List.cons_append, List.nil_append]
    rw [minify, if_pos rfl, minify, minify, if_neg (by decide), if_neg (by decide), minify,
      if_neg (by decide), if_neg (by decide), hexDigit_quoted hhigh, hexDigit_quoted hlow]
  · simp [minify, hslash, hquote]

private theorem minify_writeString (s : String) (rest : Bytes) :
    minify .Plain (writeString s ++ rest) = writeString s ++ minify .Plain rest := by
  have hbytes : ∀ bytes : Bytes,
      minify .Quoted (bytes.flatMap escapeByte ++ '"'.toUInt8 :: rest) =
        bytes.flatMap escapeByte ++ '"'.toUInt8 :: minify .Plain rest := by
    intro bytes
    induction bytes with
    | nil => rfl
    | cons b bytes ih =>
        rw [List.flatMap_cons, List.append_assoc, minify_escapeByte, ih, List.append_assoc]
  simp only [writeString, List.cons_append, List.append_assoc, List.nil_append]
  rw [minify, if_neg (by decide), if_pos rfl, hbytes]

private theorem minify_number (n : Number) (rest : Bytes) :
    minify .Plain (n.text ++ rest) = n.text ++ minify .Plain rest := by
  have hplain : ∀ text : Bytes, (∀ b ∈ text, isNumberByte b = true) →
      minify .Plain (text ++ rest) = text ++ minify .Plain rest := by
    intro text htext
    induction text with
    | nil => rfl
    | cons b text ih =>
        have hb := htext b List.mem_cons_self
        have hblank : ¬ (b = ' '.toUInt8 ∨ b = '\n'.toUInt8) := by
          rintro (rfl | rfl) <;> exact absurd hb (by decide)
        have hquote : b ≠ '"'.toUInt8 := by
          rintro rfl
          exact absurd hb (by decide)
        rw [List.cons_append, minify, if_neg hblank, if_neg hquote,
          ih fun c hc => htext c (List.mem_cons_of_mem b hc), List.cons_append]
  exact hplain n.text n.wellFormed

private theorem minify_colon (rest : Bytes) :
    minify .Plain (utf8 ": " ++ rest) = ':'.toUInt8 :: minify .Plain rest :=
  rfl

-- Without its blanks the text is the one the compact writer writes.
mutual

private theorem minify_pretty (depth : Nat) (value : Value) (rest : Bytes) :
    minify .Plain (value.pretty depth ++ rest) = value.write ++ minify .Plain rest := by
  match value with
  | .null => rfl
  | .bool true => rfl
  | .bool false => rfl
  | .number n => exact minify_number n rest
  | .string s => exact minify_writeString s rest
  | .array items =>
      exact congrArg ('['.toUInt8 :: ·) (minify_prettyItems depth items rest)
  | .object members =>
      exact congrArg ('{'.toUInt8 :: ·) (minify_prettyMembers depth members rest)

private theorem minify_prettyItems (depth : Nat) (items : List Value) (rest : Bytes) :
    minify .Plain (Value.prettyItems depth items ++ rest) =
      Value.writeItems items ++ minify .Plain rest := by
  match items with
  | [] => rfl
  | item :: items =>
      simp only [Value.prettyItems, Value.writeItems, List.append_assoc]
      rw [minify_newLine, minify_pretty, minify_prettyMoreItems]

private theorem minify_prettyMoreItems (depth : Nat) (items : List Value) (rest : Bytes) :
    minify .Plain (Value.prettyMoreItems depth items ++ rest) =
      Value.writeMoreItems items ++ minify .Plain rest := by
  match items with
  | [] =>
      simp only [Value.prettyMoreItems, List.append_assoc]
      rw [minify_newLine]
      rfl
  | item :: items =>
      simp only [Value.prettyMoreItems, Value.writeMoreItems, List.cons_append, List.append_assoc]
      rw [minify, if_neg (by decide), if_neg (by decide), minify_newLine, minify_pretty,
        minify_prettyMoreItems]

private theorem minify_prettyMembers (depth : Nat) (members : List (String × Value))
    (rest : Bytes) :
    minify .Plain (Value.prettyMembers depth members ++ rest) =
      Value.writeMembers members ++ minify .Plain rest := by
  match members with
  | [] => rfl
  | (key, value) :: members =>
      simp only [Value.prettyMembers, Value.writeMembers, List.cons_append, List.append_assoc]
      rw [minify_newLine, minify_writeString, minify_colon, minify_pretty,
        minify_prettyMoreMembers]

private theorem minify_prettyMoreMembers (depth : Nat) (members : List (String × Value))
    (rest : Bytes) :
    minify .Plain (Value.prettyMoreMembers depth members ++ rest) =
      Value.writeMoreMembers members ++ minify .Plain rest := by
  match members with
  | [] =>
      simp only [Value.prettyMoreMembers, List.append_assoc]
      rw [minify_newLine]
      rfl
  | (key, value) :: members =>
      simp only [Value.prettyMoreMembers, Value.writeMoreMembers, List.cons_append,
        List.append_assoc]
      rw [minify, if_neg (by decide), if_neg (by decide), minify_newLine, minify_writeString,
        minify_colon, minify_pretty, minify_prettyMoreMembers]

end

theorem pretty_injective : Function.Injective (Value.pretty 0) := by
  intro v w h
  have hminified := congrArg (minify .Plain) h
  rw [← List.append_nil (v.pretty 0), ← List.append_nil (w.pretty 0), minify_pretty,
    minify_pretty, List.append_cancel_right_eq] at hminified
  exact write_injective hminified

end M1nd.Library.Json
