/-
**SHA-256, on lists of bytes.**

The hash function of FIPS 180-4, written on natural numbers below `2 ^ 32` so that a digest of a
concrete message can be computed by evaluation.  Nothing here is about what is hashed.

Main definitions:

* `Sha256.pad` — the padded message, a whole number of 64-byte blocks;
* `Sha256.compress` — the compression function, one block into the chaining value;
* `Sha256.hexdigest` — **the digest of a string**, encoded in UTF-8, as 64 hexadecimal digits.
-/

import Mathlib.Data.List.Basic

set_option relaxedAutoImplicit false
set_option autoImplicit false

namespace Sha256

/-! ### Words of 32 bits -/

/-- Addition of words. -/
def add (x y : ℕ) : ℕ := (x + y) % 4294967296

/-- Rotation of a word to the right. -/
def rotr (n x : ℕ) : ℕ := (x >>> n) ||| ((x <<< (32 - n)) % 4294967296)

/-- The bits of `y` where `x` has a one and those of `z` where it has a zero. -/
def ch (x y z : ℕ) : ℕ := (x &&& y) ^^^ ((4294967295 ^^^ x) &&& z)

/-- The majority of three words, bit by bit. -/
def maj (x y z : ℕ) : ℕ := (x &&& y) ^^^ (x &&& z) ^^^ (y &&& z)

def bigSigma0 (x : ℕ) : ℕ := rotr 2 x ^^^ rotr 13 x ^^^ rotr 22 x
def bigSigma1 (x : ℕ) : ℕ := rotr 6 x ^^^ rotr 11 x ^^^ rotr 25 x
def smallSigma0 (x : ℕ) : ℕ := rotr 7 x ^^^ rotr 18 x ^^^ (x >>> 3)
def smallSigma1 (x : ℕ) : ℕ := rotr 17 x ^^^ rotr 19 x ^^^ (x >>> 10)

/-- The round constants. -/
def roundConstants : List ℕ :=
  [0x428a2f98, 0x71374491, 0xb5c0fbcf, 0xe9b5dba5, 0x3956c25b, 0x59f111f1, 0x923f82a4, 0xab1c5ed5,
   0xd807aa98, 0x12835b01, 0x243185be, 0x550c7dc3, 0x72be5d74, 0x80deb1fe, 0x9bdc06a7, 0xc19bf174,
   0xe49b69c1, 0xefbe4786, 0x0fc19dc6, 0x240ca1cc, 0x2de92c6f, 0x4a7484aa, 0x5cb0a9dc, 0x76f988da,
   0x983e5152, 0xa831c66d, 0xb00327c8, 0xbf597fc7, 0xc6e00bf3, 0xd5a79147, 0x06ca6351, 0x14292967,
   0x27b70a85, 0x2e1b2138, 0x4d2c6dfc, 0x53380d13, 0x650a7354, 0x766a0abb, 0x81c2c92e, 0x92722c85,
   0xa2bfe8a1, 0xa81a664b, 0xc24b8b70, 0xc76c51a3, 0xd192e819, 0xd6990624, 0xf40e3585, 0x106aa070,
   0x19a4c116, 0x1e376c08, 0x2748774c, 0x34b0bcb5, 0x391c0cb3, 0x4ed8aa4a, 0x5b9cca4f, 0x682e6ff3,
   0x748f82ee, 0x78a5636f, 0x84c87814, 0x8cc70208, 0x90befffa, 0xa4506ceb, 0xbef9a3f7, 0xc67178f2]

/-- The initial chaining value. -/
def initial : List ℕ :=
  [0x6a09e667, 0xbb67ae85, 0x3c6ef372, 0xa54ff53a, 0x510e527f, 0x9b05688c, 0x1f83d9ab, 0x5be0cd19]

/-! ### Padding -/

/-- The big-endian bytes of `n`, `k` of them. -/
def bigEndian : ℕ → ℕ → List ℕ
  | 0, _ => []
  | k + 1, n => (n >>> (8 * k)) % 256 :: bigEndian k n

/-- The message, a one bit, zeros, and the length of the message in bits. -/
def pad (message : List ℕ) : List ℕ :=
  message ++ 128 :: List.replicate ((119 - message.length % 64) % 64) 0 ++
    bigEndian 8 (8 * message.length)

/-- The bytes read four at a time, as words. -/
def words : List ℕ → List ℕ
  | a :: b :: c :: d :: rest => (((a * 256 + b) * 256 + c) * 256 + d) :: words rest
  | _ => []

/-! ### Compression -/

/-- The message schedule, most recent word first: `n` more words after those in `recent`. -/
def schedule : ℕ → List ℕ → List ℕ
  | 0, recent => recent
  | n + 1, recent =>
      schedule n (add (add (smallSigma1 (recent.getD 1 0)) (recent.getD 6 0))
        (add (smallSigma0 (recent.getD 14 0)) (recent.getD 15 0)) :: recent)

/-- One round. -/
def round : List ℕ → ℕ × ℕ → List ℕ
  | [a, b, c, d, e, f, g, h], (k, w) =>
      let t₁ := add (add h (bigSigma1 e)) (add (ch e f g) (add k w))
      let t₂ := add (bigSigma0 a) (maj a b c)
      [add t₁ t₂, a, b, c, add d t₁, e, f, g]
  | state, _ => state

/-- **The compression function.** -/
def compress (state block : List ℕ) : List ℕ :=
  let w := (schedule 48 block.reverse).reverse
  List.zipWith add state ((roundConstants.zip w).foldl round state)

/-- The chaining value after all the blocks, `n` of them. -/
def digestWords : ℕ → List ℕ → List ℕ → List ℕ
  | 0, state, _ => state
  | n + 1, state, ws => digestWords n (compress state (ws.take 16)) (ws.drop 16)

/-! ### The digest -/

def hexDigit (n : ℕ) : Char := "0123456789abcdef".toList.getD n '0'

/-- The `k` low hexadecimal digits of `n`. -/
def hexDigits : ℕ → ℕ → List Char
  | 0, _ => []
  | k + 1, n => hexDigit ((n >>> (4 * k)) % 16) :: hexDigits k n

theorem hexDigits_length : ∀ k n : ℕ, (hexDigits k n).length = k
  | 0, _ => rfl
  | k + 1, n => by simp [hexDigits, hexDigits_length k n]

/-- The digest of a list of bytes, as a string of hexadecimal digits. -/
def hexdigestBytes (message : List ℕ) : String :=
  let ws := words (pad message)
  String.ofList ((digestWords (ws.length / 16) initial ws).flatMap (hexDigits 8))

/-- **The digest of a string**, as `hashlib.sha256(s.encode("utf-8")).hexdigest()` gives it. -/
def hexdigest (s : String) : String := hexdigestBytes (s.toUTF8.toList.map UInt8.toNat)

example : hexdigest "abc" = "ba7816bf8f01cfea414140de5dae2223b00361a396177a9cb410ff61f20015ad" := by
  decide +kernel

end Sha256
