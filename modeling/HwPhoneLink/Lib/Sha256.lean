import HwPhoneLink.Lib.BigEndian

/-!
# SHA-256

The hash function of FIPS 180-4, and its digest in lowercase hex.
-/

namespace Sha256

open BigEndian

def roundConstants : List UInt32 :=
  [0x428a2f98, 0x71374491, 0xb5c0fbcf, 0xe9b5dba5, 0x3956c25b, 0x59f111f1, 0x923f82a4, 0xab1c5ed5,
   0xd807aa98, 0x12835b01, 0x243185be, 0x550c7dc3, 0x72be5d74, 0x80deb1fe, 0x9bdc06a7, 0xc19bf174,
   0xe49b69c1, 0xefbe4786, 0x0fc19dc6, 0x240ca1cc, 0x2de92c6f, 0x4a7484aa, 0x5cb0a9dc, 0x76f988da,
   0x983e5152, 0xa831c66d, 0xb00327c8, 0xbf597fc7, 0xc6e00bf3, 0xd5a79147, 0x06ca6351, 0x14292967,
   0x27b70a85, 0x2e1b2138, 0x4d2c6dfc, 0x53380d13, 0x650a7354, 0x766a0abb, 0x81c2c92e, 0x92722c85,
   0xa2bfe8a1, 0xa81a664b, 0xc24b8b70, 0xc76c51a3, 0xd192e819, 0xd6990624, 0xf40e3585, 0x106aa070,
   0x19a4c116, 0x1e376c08, 0x2748774c, 0x34b0bcb5, 0x391c0cb3, 0x4ed8aa4a, 0x5b9cca4f, 0x682e6ff3,
   0x748f82ee, 0x78a5636f, 0x84c87814, 0x8cc70208, 0x90befffa, 0xa4506ceb, 0xbef9a3f7, 0xc67178f2]

/-- The eight words of the state. -/
structure State where
  a : UInt32
  b : UInt32
  c : UInt32
  d : UInt32
  e : UInt32
  f : UInt32
  g : UInt32
  h : UInt32

def State.init : State :=
  ⟨0x6a09e667, 0xbb67ae85, 0x3c6ef372, 0xa54ff53a,
    0x510e527f, 0x9b05688c, 0x1f83d9ab, 0x5be0cd19⟩

def rotr (x n : UInt32) : UInt32 := (x >>> n) ||| (x <<< (32 - n))

def bigSigma0 (x : UInt32) : UInt32 := rotr x 2 ^^^ rotr x 13 ^^^ rotr x 22
def bigSigma1 (x : UInt32) : UInt32 := rotr x 6 ^^^ rotr x 11 ^^^ rotr x 25
def smallSigma0 (x : UInt32) : UInt32 := rotr x 7 ^^^ rotr x 18 ^^^ (x >>> 3)
def smallSigma1 (x : UInt32) : UInt32 := rotr x 17 ^^^ rotr x 19 ^^^ (x >>> 10)

def ch (x y z : UInt32) : UInt32 := (x &&& y) ^^^ (~~~x &&& z)
def maj (x y z : UInt32) : UInt32 := (x &&& y) ^^^ (x &&& z) ^^^ (y &&& z)

/-- `n` more words of the schedule, the last word first. -/
def extend : ℕ → List UInt32 → List UInt32
  | 0, w => w
  | n + 1, w =>
      extend n
        ((smallSigma1 (w.getD 1 0) + w.getD 6 0 + smallSigma0 (w.getD 14 0) + w.getD 15 0) :: w)

/-- The words of a block. -/
def words : ℕ → Bytes → List UInt32
  | 0, _ => []
  | n + 1, block => u32At block 0 :: words n (block.drop 4)

def schedule (block : Bytes) : List UInt32 := (extend 48 (words 16 block).reverse).reverse

def State.round (s : State) (k w : UInt32) : State :=
  let t1 := s.h + bigSigma1 s.e + ch s.e s.f s.g + k + w
  let t2 := bigSigma0 s.a + maj s.a s.b s.c
  ⟨t1 + t2, s.a, s.b, s.c, s.d + t1, s.e, s.f, s.g⟩

def State.add (s t : State) : State :=
  ⟨s.a + t.a, s.b + t.b, s.c + t.c, s.d + t.d, s.e + t.e, s.f + t.f, s.g + t.g, s.h + t.h⟩

def compress (s : State) (block : Bytes) : State :=
  s.add ((roundConstants.zip (schedule block)).foldl (fun t kw => t.round kw.1 kw.2) s)

def pad (m : Bytes) : Bytes :=
  m ++ (0x80 :: (List.replicate ((119 - m.length % 64) % 64) 0 ++
    putU64 (UInt64.ofNat (8 * m.length))))

/-- The state after `n` blocks. -/
def blocks : ℕ → Bytes → State → State
  | 0, _, s => s
  | n + 1, m, s => blocks n (m.drop 64) (compress s (m.take 64))

def State.bytes (s : State) : Bytes :=
  [s.a, s.b, s.c, s.d, s.e, s.f, s.g, s.h].flatMap putU32

def hash (m : Bytes) : Bytes :=
  let p := pad m
  (blocks (p.length / 64) p State.init).bytes

/-! ## Lowercase hex -/

def hexDigit (n : UInt8) : UInt8 := if n < 10 then 48 + n else 87 + n

def hexByte (b : UInt8) : Bytes := [hexDigit (b >>> 4), hexDigit (b &&& 0x0f)]

def hashHex (m : Bytes) : Bytes := (hash m).flatMap hexByte

/-- Sixty-four lowercase hex digits. -/
structure HexDigest (d : Bytes) : Prop where
  length : d.length = 64
  digits : ∀ b ∈ d, (48 ≤ b ∧ b ≤ 57) ∨ (97 ≤ b ∧ b ≤ 102)

theorem State.bytes_length (s : State) : s.bytes.length = 32 := rfl

theorem flatMap_hexByte_length (bs : Bytes) : (bs.flatMap hexByte).length = 2 * bs.length := by
  induction bs with
  | nil => rfl
  | cons b bs ih =>
      rw [List.flatMap_cons, List.length_append, ih, List.length_cons]
      show 2 + _ = _
      omega

theorem hexByte_digits : ∀ b : UInt8, ∀ d ∈ hexByte b, (48 ≤ d ∧ d ≤ 57) ∨ (97 ≤ d ∧ d ≤ 102) := by
  have hall : ∀ k : Fin 256, ∀ d ∈ hexByte (UInt8.ofNat k),
      (48 ≤ d ∧ d ≤ 57) ∨ (97 ≤ d ∧ d ≤ 102) := by decide +kernel
  intro b
  have hb := hall ⟨b.toNat, b.toNat_lt⟩
  rw [UInt8.ofNat_toNat] at hb
  exact hb

/-- **The form of a digest.** -/
theorem hashHex_hexDigest (m : Bytes) : HexDigest (hashHex m) where
  length := by
    rw [hashHex, flatMap_hexByte_length, hash, State.bytes_length]
  digits d hd := by
    obtain ⟨b, -, hd⟩ := List.mem_flatMap.mp hd
    exact hexByte_digits b d hd

/-- The digest of "abc". -/
example : hash [97, 98, 99] =
    [0xba, 0x78, 0x16, 0xbf, 0x8f, 0x01, 0xcf, 0xea, 0x41, 0x41, 0x40, 0xde, 0x5d, 0xae, 0x22, 0x23,
      0xb0, 0x03, 0x61, 0xa3, 0x96, 0x17, 0x7a, 0x9c, 0xb4, 0x10, 0xff, 0x61, 0xf2, 0x00, 0x15,
      0xad] := by
  decide +kernel

end Sha256
