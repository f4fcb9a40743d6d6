namespace M1nd.Library.Sha256

abbrev Word := UInt32

-- The cube roots of the first 64 primes and the square roots of the first 8.
def K : List Word := [
  0x428a2f98, 0x71374491, 0xb5c0fbcf, 0xe9b5dba5, 0x3956c25b, 0x59f111f1, 0x923f82a4, 0xab1c5ed5,
  0xd807aa98, 0x12835b01, 0x243185be, 0x550c7dc3, 0x72be5d74, 0x80deb1fe, 0x9bdc06a7, 0xc19bf174,
  0xe49b69c1, 0xefbe4786, 0x0fc19dc6, 0x240ca1cc, 0x2de92c6f, 0x4a7484aa, 0x5cb0a9dc, 0x76f988da,
  0x983e5152, 0xa831c66d, 0xb00327c8, 0xbf597fc7, 0xc6e00bf3, 0xd5a79147, 0x06ca6351, 0x14292967,
  0x27b70a85, 0x2e1b2138, 0x4d2c6dfc, 0x53380d13, 0x650a7354, 0x766a0abb, 0x81c2c92e, 0x92722c85,
  0xa2bfe8a1, 0xa81a664b, 0xc24b8b70, 0xc76c51a3, 0xd192e819, 0xd6990624, 0xf40e3585, 0x106aa070,
  0x19a4c116, 0x1e376c08, 0x2748774c, 0x34b0bcb5, 0x391c0cb3, 0x4ed8aa4a, 0x5b9cca4f, 0x682e6ff3,
  0x748f82ee, 0x78a5636f, 0x84c87814, 0x8cc70208, 0x90befffa, 0xa4506ceb, 0xbef9a3f7, 0xc67178f2]

structure State where
  a : Word
  b : Word
  c : Word
  d : Word
  e : Word
  f : Word
  g : Word
  h : Word

def initial : State where
  a := 0x6a09e667
  b := 0xbb67ae85
  c := 0x3c6ef372
  d := 0xa54ff53a
  e := 0x510e527f
  f := 0x9b05688c
  g := 0x1f83d9ab
  h := 0x5be0cd19

def rotr (x : Word) (n : Word) : Word :=
  (x >>> n) ||| (x <<< (32 - n))

def bytesOf (width n : Nat) : List UInt8 :=
  (List.range width).map fun i => UInt8.ofNat (n >>> (8 * (width - 1 - i)))

-- One bit, zeros up to eight bytes before a block boundary, then the length in bits.
def pad (message : List UInt8) : List UInt8 :=
  message ++ [0x80] ++ List.replicate ((119 - message.length % 64) % 64) 0 ++
    bytesOf 8 (8 * message.length)

def wordOf (bytes : List UInt8) : Word :=
  bytes.foldl (fun word byte => (word <<< 8) ||| byte.toUInt32) 0

-- The message schedule, kept with the newest word first.
def extend (words : List Word) : List Word :=
  let s0 := fun x => rotr x 7 ^^^ rotr x 18 ^^^ (x >>> 3)
  let s1 := fun x => rotr x 17 ^^^ rotr x 19 ^^^ (x >>> 10)
  (s1 (words.getD 1 0) + words.getD 6 0 + s0 (words.getD 14 0) + words.getD 15 0) :: words

def schedule (block : List Word) : List Word :=
  (Nat.repeat extend 48 block.reverse).reverse

def round (s : State) (input : Word × Word) : State :=
  let s1 := rotr s.e 6 ^^^ rotr s.e 11 ^^^ rotr s.e 25
  let choice := (s.e &&& s.f) ^^^ (~~~s.e &&& s.g)
  let t1 := s.h + s1 + choice + input.1 + input.2
  let s0 := rotr s.a 2 ^^^ rotr s.a 13 ^^^ rotr s.a 22
  let majority := (s.a &&& s.b) ^^^ (s.a &&& s.c) ^^^ (s.b &&& s.c)
  { a := t1 + (s0 + majority), b := s.a, c := s.b, d := s.c
    e := s.d + t1, f := s.e, g := s.f, h := s.g }

def compress (s : State) (block : List Word) : State :=
  let t := (K.zip (schedule block)).foldl round s
  { a := s.a + t.a, b := s.b + t.b, c := s.c + t.c, d := s.d + t.d
    e := s.e + t.e, f := s.f + t.f, g := s.g + t.g, h := s.h + t.h }

def chunks (size : Nat) (count : Nat) {α : Type} (items : List α) : List (List α) :=
  (List.range count).map fun i => (items.drop (size * i)).take size

def blocks (message : List UInt8) : List (List Word) :=
  (chunks 64 ((pad message).length / 64) (pad message)).map fun block =>
    (chunks 4 16 block).map wordOf

def State.words (s : State) : Vector Word 8 :=
  #v[s.a, s.b, s.c, s.d, s.e, s.f, s.g, s.h]

def digest (message : List UInt8) : Vector UInt8 32 :=
  let words := ((blocks message).foldl compress initial).words
  Vector.ofFn fun i : Fin 32 =>
    UInt8.ofNat (words[i.val / 4].toNat >>> (8 * (3 - i.val % 4)))

end M1nd.Library.Sha256
