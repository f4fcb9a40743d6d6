import M1nd.Library.Json.Theorems
import M1nd.Library.Sha256
import Mathlib.Data.Set.Function
import Mathlib.Tactic.NormNum

namespace M1nd.Control

open M1nd.Library.Json

def CANONICALIZATION_VERSION : String := "m1nd-canonical-json-v1"

def DIGEST_PREFIX : Bytes := utf8 "m1nd-domain-separated-sha256-v1\x00"

-- The hash function of the sha2 crate.
class Sha256 where
  finalize : Bytes → Vector UInt8 32

@[reducible]
def standardSha256 : Sha256 where
  finalize := Library.Sha256.digest

def canonicalJson (value : Value) : Bytes :=
  value.sortKeys.write

-- A u64 in big-endian order.
def toBeBytes (n : Nat) : Bytes :=
  (List.range 8).map fun i => UInt8.ofNat (n >>> (8 * (7 - i)))

def HEX (nibble : UInt8) : Char :=
  "0123456789abcdef".toList.getD nibble.toNat '0'

def hexLower (bytes : Bytes) : String :=
  String.ofList (bytes.flatMap fun (byte : UInt8) => [HEX (byte >>> 4), HEX (byte &&& 0x0f)])

section

variable [Sha256]

def digestPreimage (domain : String) (payload : Bytes) : Bytes :=
  DIGEST_PREFIX ++ toBeBytes (utf8 domain).length ++ utf8 domain ++
    toBeBytes payload.length ++ payload

def digestDomainBytes (domain : String) (payload : Bytes) : String :=
  hexLower (Sha256.finalize (digestPreimage domain payload)).toList

def digestCanonical (domain : String) (value : Value) : String :=
  digestDomainBytes domain (canonicalJson value)

end

def isHexByte (byte : UInt8) : Bool :=
  ('0'.toUInt8 ≤ byte && byte ≤ '9'.toUInt8) || ('a'.toUInt8 ≤ byte && byte ≤ 'f'.toUInt8)

-- The digest format every contract asks for: 64 lowercase hexadecimal digits.
def isDigest (value : String) : Bool :=
  (utf8 value).length = 64 && (utf8 value).all isHexByte

end M1nd.Control

namespace M1nd.Control

open M1nd.Library.Json

theorem utf8_ofList (chars : List Char) :
    utf8 (String.ofList chars) = chars.flatMap String.utf8EncodeChar := by
  unfold utf8
  rw [String.toByteArray_ofList, List.utf8Encode]
  simp

private theorem utf8EncodeChar_HEX :
    ∀ n : Fin 16, String.utf8EncodeChar (HEX (UInt8.ofNat n.val)) =
      [(HEX (UInt8.ofNat n.val)).toUInt8] := by
  decide

private theorem isHexByte_HEX :
    ∀ n : Fin 16, isHexByte (HEX (UInt8.ofNat n.val)).toUInt8 = true := by
  decide

private theorem nibble_lt (byte : UInt8) :
    (byte >>> 4).toNat < 16 ∧ (byte &&& 0x0f).toNat < 16 := by
  have hhigh : (byte >>> 4).toNat = byte.toNat / 16 := by
    simp [UInt8.toNat_shiftRight, Nat.shiftRight_eq_div_pow]
  have hlow : (byte &&& 0x0f).toNat = byte.toNat % 16 := by
    rw [UInt8.toNat_and]
    exact Nat.and_two_pow_sub_one_eq_mod byte.toNat 4
  have hbyte := byte.toNat_lt
  omega

private theorem utf8_nibble {nibble : UInt8} (h : nibble.toNat < 16) :
    String.utf8EncodeChar (HEX nibble) = [(HEX nibble).toUInt8] := by
  simpa using utf8EncodeChar_HEX ⟨nibble.toNat, h⟩

private theorem hex_nibble {nibble : UInt8} (h : nibble.toNat < 16) :
    isHexByte (HEX nibble).toUInt8 = true := by
  simpa using isHexByte_HEX ⟨nibble.toNat, h⟩

private theorem utf8_hexLower (bytes : Bytes) :
    utf8 (hexLower bytes) =
      bytes.flatMap fun (byte : UInt8) => [(HEX (byte >>> 4)).toUInt8, (HEX (byte &&& 0x0f)).toUInt8] := by
  rw [hexLower, utf8_ofList]
  induction bytes with
  | nil => rfl
  | cons byte bytes ih =>
      obtain ⟨hhigh, hlow⟩ := nibble_lt byte
      rw [List.flatMap_cons, List.flatMap_append, ih, List.flatMap_cons]
      simp only [List.flatMap_cons, List.flatMap_nil, utf8_nibble hhigh, utf8_nibble hlow,
        List.append_nil, List.cons_append, List.nil_append]

theorem isDigest_hexLower {bytes : Bytes} (h : bytes.length = 32) :
    isDigest (hexLower bytes) = true := by
  have hlength : (utf8 (hexLower bytes)).length = 64 := by
    rw [utf8_hexLower, List.length_flatMap]
    simp [h]
  have hall : (utf8 (hexLower bytes)).all isHexByte = true := by
    rw [utf8_hexLower, List.all_flatMap, List.all_eq_true]
    intro byte _
    obtain ⟨hhigh, hlow⟩ := nibble_lt byte
    simp [hex_nibble hhigh, hex_nibble hlow]
  simp only [isDigest, hlength, hall, decide_true, Bool.and_self]

private theorem HEX_injective :
    ∀ n m : Fin 16, HEX (UInt8.ofNat n.val) = HEX (UInt8.ofNat m.val) → n = m := by
  decide

private theorem nibble_inj {nibble other : UInt8} (h : nibble.toNat < 16)
    (hother : other.toNat < 16) (hsame : HEX nibble = HEX other) : nibble = other := by
  have hfin := HEX_injective ⟨nibble.toNat, h⟩ ⟨other.toNat, hother⟩
  simp only [UInt8.ofNat_toNat, Fin.mk.injEq] at hfin
  exact UInt8.toNat_inj.mp (hfin hsame)

private theorem byte_of_nibbles {byte other : UInt8} (hhigh : byte >>> 4 = other >>> 4)
    (hlow : byte &&& 0x0f = other &&& 0x0f) : byte = other := by
  have hdiv : byte.toNat / 16 = other.toNat / 16 := by
    have hnat := congrArg UInt8.toNat hhigh
    simpa [UInt8.toNat_shiftRight, Nat.shiftRight_eq_div_pow] using hnat
  have hmod : byte.toNat % 16 = other.toNat % 16 := by
    have hnat := congrArg UInt8.toNat hlow
    rw [UInt8.toNat_and, UInt8.toNat_and] at hnat
    have hmask := Nat.and_two_pow_sub_one_eq_mod byte.toNat 4
    have hmask' := Nat.and_two_pow_sub_one_eq_mod other.toNat 4
    exact hmask.symm.trans (hnat.trans hmask')
  apply UInt8.toNat_inj.mp
  omega

theorem hexLower_injective : Function.Injective hexLower := by
  intro bytes others h
  have hchars := String.ofList_injective h
  induction bytes generalizing others with
  | nil =>
      cases others with
      | nil => rfl
      | cons other others => simp at hchars
  | cons byte bytes ih =>
      cases others with
      | nil => simp at hchars
      | cons other others =>
          simp only [List.flatMap_cons, List.cons_append, List.nil_append, List.cons.injEq]
            at hchars
          obtain ⟨hhigh, hlow, hrest⟩ := hchars
          obtain ⟨hbytehigh, hbytelow⟩ := nibble_lt byte
          obtain ⟨hotherhigh, hotherlow⟩ := nibble_lt other
          have hbyte : byte = other := byte_of_nibbles (nibble_inj hbytehigh hotherhigh hhigh)
            (nibble_inj hbytelow hotherlow hlow)
          rw [hbyte, ih (congrArg String.ofList hrest) hrest]

-- A fixed text of one repeated hexadecimal digit.
theorem isDigest_replicate {digit : Char} (hascii : String.utf8EncodeChar digit = [digit.toUInt8])
    (hhex : isHexByte digit.toUInt8 = true) :
    isDigest (String.ofList (List.replicate 64 digit)) = true := by
  have hbytes : utf8 (String.ofList (List.replicate 64 digit)) =
      List.replicate 64 digit.toUInt8 := by
    rw [utf8_ofList, List.flatMap_replicate, hascii]
    simp
  simp only [isDigest, hbytes, List.length_replicate, List.all_replicate, hhex]
  rfl

@[simp]
theorem isDigest_digestCanonical [Sha256] (domain : String) (value : Value) :
    isDigest (digestCanonical domain value) = true :=
  isDigest_hexLower (by simp)

-- The framing of a digest preimage.

@[simp]
theorem length_toBeBytes (n : Nat) : (toBeBytes n).length = 8 := by
  simp [toBeBytes]

theorem toBeBytes_inj {n m : Nat} (hn : n < 2 ^ 64) (hm : m < 2 ^ 64)
    (h : toBeBytes n = toBeBytes m) : n = m := by
  have hbyte : ∀ i < 8, n / 2 ^ (8 * (7 - i)) % 256 = m / 2 ^ (8 * (7 - i)) % 256 := by
    intro i hi
    have hget := congrArg (fun bytes => (bytes.getD i 0).toNat) h
    simpa [toBeBytes, hi, Nat.shiftRight_eq_div_pow] using hget
  have h0 := hbyte 0 (by omega)
  have h1 := hbyte 1 (by omega)
  have h2 := hbyte 2 (by omega)
  have h3 := hbyte 3 (by omega)
  have h4 := hbyte 4 (by omega)
  have h5 := hbyte 5 (by omega)
  have h6 := hbyte 6 (by omega)
  have h7 := hbyte 7 (by omega)
  norm_num at h0 h1 h2 h3 h4 h5 h6 h7
  omega

-- A domain is a text of the program, so its length is a u64.
theorem digestPreimage_inj {domain domain' : String} {payload payload' : Bytes}
    (hdomain : (utf8 domain).length < 2 ^ 64) (hdomain' : (utf8 domain').length < 2 ^ 64)
    (h : digestPreimage domain payload = digestPreimage domain' payload') :
    domain = domain' ∧ payload = payload' := by
  simp only [digestPreimage, List.append_assoc] at h
  have hframed := List.append_cancel_left h
  obtain ⟨hlength, hrest⟩ := List.append_inj hframed (by simp)
  have hsize : (utf8 domain).length = (utf8 domain').length := toBeBytes_inj hdomain hdomain' hlength
  obtain ⟨hbytes, hpayload⟩ := List.append_inj hrest hsize
  obtain ⟨-, hsame⟩ := List.append_inj hpayload (by simp)
  exact ⟨utf8_injective hbytes, hsame⟩

theorem digestPreimage_payload {domain : String} {payload payload' : Bytes}
    (h : digestPreimage domain payload = digestPreimage domain payload') : payload = payload' := by
  simp only [digestPreimage, List.append_assoc] at h
  have hframed := List.append_cancel_left (List.append_cancel_left (List.append_cancel_left h))
  exact (List.append_inj hframed (by simp)).2

-- The hash tells the messages at hand apart.
def CollisionFree [Sha256] (messages : Set Bytes) : Prop :=
  Set.InjOn Sha256.finalize messages

theorem digestDomainBytes_inj [Sha256] {domain : String} {payload payload' : Bytes}
    (hfree : CollisionFree {digestPreimage domain payload, digestPreimage domain payload'})
    (h : digestDomainBytes domain payload = digestDomainBytes domain payload') :
    payload = payload' := by
  have hhash : Sha256.finalize (digestPreimage domain payload) =
      Sha256.finalize (digestPreimage domain payload') :=
    Vector.toList_inj.mp (hexLower_injective h)
  exact digestPreimage_payload (hfree (by simp) (by simp) hhash)

theorem digestCanonical_inj [Sha256] {domain : String} {value value' : Value}
    (hfree : CollisionFree {digestPreimage domain (canonicalJson value),
      digestPreimage domain (canonicalJson value')})
    (h : digestCanonical domain value = digestCanonical domain value') :
    value.sortKeys = value'.sortKeys :=
  write_injective (digestDomainBytes_inj hfree h)

end M1nd.Control
