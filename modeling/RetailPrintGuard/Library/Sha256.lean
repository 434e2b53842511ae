import Mathlib.Algebra.GroupWithZero.Nat
import Mathlib.Data.List.Basic

/-! # SHA-256

The digest of a list of bytes as 64 hexadecimal digits. Words are numbers below
`2 ^ 32`. -/
namespace RetailPrintGuard.Library.Sha256

def word (n : Nat) : Nat := n % 2 ^ 32

def rotr (n : Nat) (x : Nat) : Nat := word (x >>> n ||| x <<< (32 - n))

def roundConstants : List Nat := [
  0x428a2f98, 0x71374491, 0xb5c0fbcf, 0xe9b5dba5, 0x3956c25b, 0x59f111f1, 0x923f82a4, 0xab1c5ed5,
  0xd807aa98, 0x12835b01, 0x243185be, 0x550c7dc3, 0x72be5d74, 0x80deb1fe, 0x9bdc06a7, 0xc19bf174,
  0xe49b69c1, 0xefbe4786, 0x0fc19dc6, 0x240ca1cc, 0x2de92c6f, 0x4a7484aa, 0x5cb0a9dc, 0x76f988da,
  0x983e5152, 0xa831c66d, 0xb00327c8, 0xbf597fc7, 0xc6e00bf3, 0xd5a79147, 0x06ca6351, 0x14292967,
  0x27b70a85, 0x2e1b2138, 0x4d2c6dfc, 0x53380d13, 0x650a7354, 0x766a0abb, 0x81c2c92e, 0x92722c85,
  0xa2bfe8a1, 0xa81a664b, 0xc24b8b70, 0xc76c51a3, 0xd192e819, 0xd6990624, 0xf40e3585, 0x106aa070,
  0x19a4c116, 0x1e376c08, 0x2748774c, 0x34b0bcb5, 0x391c0cb3, 0x4ed8aa4a, 0x5b9cca4f, 0x682e6ff3,
  0x748f82ee, 0x78a5636f, 0x84c87814, 0x8cc70208, 0x90befffa, 0xa4506ceb, 0xbef9a3f7, 0xc67178f2]

/-- The eight words of the chaining state. -/
structure State where
  a : Nat
  b : Nat
  c : Nat
  d : Nat
  e : Nat
  f : Nat
  g : Nat
  h : Nat

def initial : State where
  a := 0x6a09e667
  b := 0xbb67ae85
  c := 0x3c6ef372
  d := 0xa54ff53a
  e := 0x510e527f
  f := 0x9b05688c
  g := 0x1f83d9ab
  h := 0x5be0cd19

def State.words (s : State) : List Nat := [s.a, s.b, s.c, s.d, s.e, s.f, s.g, s.h]

/-- One round with its constant and its word of the schedule. -/
def round (s : State) (input : Nat × Nat) : State :=
  let choice := (s.e &&& s.f) ^^^ ((0xffffffff ^^^ s.e) &&& s.g)
  let majority := (s.a &&& s.b) ^^^ (s.a &&& s.c) ^^^ (s.b &&& s.c)
  let t1 := s.h + (rotr 6 s.e ^^^ rotr 11 s.e ^^^ rotr 25 s.e) + choice + input.1 + input.2
  let t2 := (rotr 2 s.a ^^^ rotr 13 s.a ^^^ rotr 22 s.a) + majority
  { a := word (t1 + t2), b := s.a, c := s.b, d := s.c
    e := word (s.d + t1), f := s.e, g := s.f, h := s.g }

/-- The schedule from its last sixteen words on. -/
def schedule : Nat → List Nat → List Nat
  | 0, _ => []
  | n + 1, window =>
    let w := window.headD 0
    let w1 := window.getD 1 0
    let w14 := window.getD 14 0
    let next := word ((rotr 17 w14 ^^^ rotr 19 w14 ^^^ w14 >>> 10) + window.getD 9 0 +
      (rotr 7 w1 ^^^ rotr 18 w1 ^^^ w1 >>> 3) + w)
    w :: schedule n (window.tail ++ [next])

def State.add (s t : State) : State :=
  ⟨word (s.a + t.a), word (s.b + t.b), word (s.c + t.c), word (s.d + t.d), word (s.e + t.e),
    word (s.f + t.f), word (s.g + t.g), word (s.h + t.h)⟩

def compress (s : State) (block : List Nat) : State :=
  s.add ((roundConstants.zip (schedule 64 block)).foldl round s)

/-- Big-endian words. -/
def wordsOf : List Nat → List Nat
  | w :: x :: y :: z :: rest => (((w * 256 + x) * 256 + y) * 256 + z) :: wordsOf rest
  | _ => []

def blocksOf : Nat → List Nat → List (List Nat)
  | 0, _ => []
  | n + 1, words => words.take 16 :: blocksOf n (words.drop 16)

def padding (length : Nat) : List Nat :=
  0x80 :: List.replicate ((119 - length % 64) % 64) 0 ++
    (List.range 8).map fun i => 8 * length / 256 ^ (7 - i) % 256

def digestState (bytes : List UInt8) : State :=
  let padded := bytes.map UInt8.toNat ++ padding bytes.length
  (blocksOf (padded.length / 64) (wordsOf padded)).foldl compress initial

def hexOfWord (w : Nat) : List Char :=
  (List.range 8).map fun i => Nat.digitChar (w / 16 ^ (7 - i) % 16)

/-- `hexdigest` -/
def hexdigest (bytes : List UInt8) : String :=
  String.ofList ((digestState bytes).words.flatMap hexOfWord)

theorem length_hexdigest (bytes : List UInt8) : (hexdigest bytes).length = 64 := by
  simp [hexdigest, State.words, hexOfWord]

theorem digitChar_hex : ∀ n < 16, (Nat.digitChar n).isDigit ||
    ('a' ≤ Nat.digitChar n && Nat.digitChar n ≤ 'f') := by decide

theorem hexdigest_chars (bytes : List UInt8) :
    ∀ c ∈ (hexdigest bytes).toList, c.isDigit || ('a' ≤ c && c ≤ 'f') := by
  intro c hc
  rw [hexdigest, String.toList_ofList] at hc
  obtain ⟨w, -, hc⟩ := List.mem_flatMap.mp hc
  obtain ⟨i, -, rfl⟩ := List.mem_map.mp hc
  exact digitChar_hex _ (Nat.mod_lt _ (by decide))

example : hexdigest [0x61, 0x62, 0x63] =
    "ba7816bf8f01cfea414140de5dae2223b00361a396177a9cb410ff61f20015ad" := by decide +kernel

end RetailPrintGuard.Library.Sha256
