import Mathlib.Algebra.Group.Nat.Defs

/-!
# SHA-2 and SHA-3

The hash functions in executable form, on byte lists and natural-number words.
They are only evaluated, on inputs of a few blocks: results about programs that
hash are stated for arbitrary hash functions.
-/

namespace Digest

/-- Consecutive pieces of length `n`. -/
def chunks {α : Type} (n : Nat) : Nat → List α → List (List α)
  | 0, _ => []
  | count + 1, xs => xs.take n :: chunks n count (xs.drop n)

/-- The first `n` bytes as an array; a digest is exactly that long. -/
def fit (n : Nat) (bytes : List UInt8) : Vector UInt8 n :=
  ⟨((bytes ++ List.replicate n 0).take n).toArray, by simp⟩

/-- A big-endian word. -/
def ofBytesBE (bytes : List UInt8) : Nat := bytes.foldl (fun n b => n * 256 + b.toNat) 0

def toBytesBE : Nat → Nat → List UInt8
  | 0, _ => []
  | n + 1, x => UInt8.ofNat (x >>> (8 * n)) :: toBytesBE n x

/-- A little-endian word. -/
def ofBytesLE : List UInt8 → Nat
  | [] => 0
  | b :: bytes => b.toNat + 256 * ofBytesLE bytes

def toBytesLE : Nat → Nat → List UInt8
  | 0, _ => []
  | n + 1, x => UInt8.ofNat x :: toBytesLE n (x / 256)

end Digest

/-! ## SHA-2 -/

/-- What distinguishes the members of the SHA-2 family. -/
structure Sha2 where
  wordBits : Nat
  rounds : Nat
  bigSigma0 : Nat × Nat × Nat
  bigSigma1 : Nat × Nat × Nat
  smallSigma0 : Nat × Nat × Nat
  smallSigma1 : Nat × Nat × Nat
  initial : List Nat

namespace Sha2

open Digest

/-- The round constants for 64-bit words; 32-bit words use their upper halves. -/
def roundConstants : List Nat :=
  [ 0x428a2f98d728ae22, 0x7137449123ef65cd, 0xb5c0fbcfec4d3b2f, 0xe9b5dba58189dbbc,
    0x3956c25bf348b538, 0x59f111f1b605d019, 0x923f82a4af194f9b, 0xab1c5ed5da6d8118,
    0xd807aa98a3030242, 0x12835b0145706fbe, 0x243185be4ee4b28c, 0x550c7dc3d5ffb4e2,
    0x72be5d74f27b896f, 0x80deb1fe3b1696b1, 0x9bdc06a725c71235, 0xc19bf174cf692694,
    0xe49b69c19ef14ad2, 0xefbe4786384f25e3, 0x0fc19dc68b8cd5b5, 0x240ca1cc77ac9c65,
    0x2de92c6f592b0275, 0x4a7484aa6ea6e483, 0x5cb0a9dcbd41fbd4, 0x76f988da831153b5,
    0x983e5152ee66dfab, 0xa831c66d2db43210, 0xb00327c898fb213f, 0xbf597fc7beef0ee4,
    0xc6e00bf33da88fc2, 0xd5a79147930aa725, 0x06ca6351e003826f, 0x142929670a0e6e70,
    0x27b70a8546d22ffc, 0x2e1b21385c26c926, 0x4d2c6dfc5ac42aed, 0x53380d139d95b3df,
    0x650a73548baf63de, 0x766a0abb3c77b2a8, 0x81c2c92e47edaee6, 0x92722c851482353b,
    0xa2bfe8a14cf10364, 0xa81a664bbc423001, 0xc24b8b70d0f89791, 0xc76c51a30654be30,
    0xd192e819d6ef5218, 0xd69906245565a910, 0xf40e35855771202a, 0x106aa07032bbd1b8,
    0x19a4c116b8d2d0c8, 0x1e376c085141ab53, 0x2748774cdf8eeb99, 0x34b0bcb5e19b48a8,
    0x391c0cb3c5c95a63, 0x4ed8aa4ae3418acb, 0x5b9cca4f7763e373, 0x682e6ff3d6b2b8a3,
    0x748f82ee5defb2fc, 0x78a5636f43172f60, 0x84c87814a1f0ab72, 0x8cc702081a6439ec,
    0x90befffa23631e28, 0xa4506cebde82bde9, 0xbef9a3f7b2c67915, 0xc67178f2e372532b,
    0xca273eceea26619c, 0xd186b8c721c0c207, 0xeada7dd6cde0eb1e, 0xf57d4f7fee6ed178,
    0x06f067aa72176fba, 0x0a637dc5a2c898a6, 0x113f9804bef90dae, 0x1b710b35131c471b,
    0x28db77f523047d84, 0x32caab7b40c72493, 0x3c9ebe0a15c9bebc, 0x431d67c49c100d4c,
    0x4cc5d4becb3e42b6, 0x597f299cfc657e2a, 0x5fcb6fab3ad6faec, 0x6c44198c4a475817 ]

variable (p : Sha2)

def rotr (n x : Nat) : Nat := (x >>> n) ||| ((x <<< (p.wordBits - n)) % 2 ^ p.wordBits)

def bigSigma (r : Nat × Nat × Nat) (x : Nat) : Nat :=
  p.rotr r.1 x ^^^ p.rotr r.2.1 x ^^^ p.rotr r.2.2 x

def smallSigma (r : Nat × Nat × Nat) (x : Nat) : Nat :=
  p.rotr r.1 x ^^^ p.rotr r.2.1 x ^^^ (x >>> r.2.2)

def choose (x y z : Nat) : Nat := z ^^^ (x &&& (y ^^^ z))

def majority (x y z : Nat) : Nat := (x &&& y) ^^^ (x &&& z) ^^^ (y &&& z)

/-- The message word sixteen places after the head of the window. -/
def nextWord (window : List Nat) : Nat :=
  (p.smallSigma p.smallSigma1 (window.getD 14 0) + window.getD 9 0
    + p.smallSigma p.smallSigma0 (window.getD 1 0) + window.getD 0 0) % 2 ^ p.wordBits

/-- One round on the message window and the eight working variables. -/
def round (k : Nat) : List Nat × List Nat → List Nat × List Nat
  | (window, [a, b, c, d, e, f, g, h]) =>
      let t1 := h + p.bigSigma p.bigSigma1 e + choose e f g + k + window.headD 0
      let t2 := p.bigSigma p.bigSigma0 a + majority a b c
      (window.tail ++ [p.nextWord window],
        [(t1 + t2) % 2 ^ p.wordBits, a, b, c, (d + t1) % 2 ^ p.wordBits, e, f, g])
  | state => state

def compress (state block : List Nat) : List Nat :=
  let constants := (roundConstants.map (· >>> (64 - p.wordBits))).take p.rounds
  let final := constants.foldl (fun s k => p.round k s) (block, state)
  List.zipWith (fun a b => (a + b) % 2 ^ p.wordBits) state final.2

def pad (message : List UInt8) : List UInt8 :=
  let blockBytes := 2 * p.wordBits
  let lengthBytes := p.wordBits / 4
  let used := (message.length + 1 + lengthBytes) % blockBytes
  let zeros := (blockBytes - used) % blockBytes
  message ++ 0x80 :: List.replicate zeros 0 ++ toBytesBE lengthBytes (8 * message.length)

/-- The words of the final state. -/
def hash (message : List UInt8) : List UInt8 :=
  let padded := p.pad message
  let wordBytes := p.wordBits / 8
  let blocks := chunks (16 * wordBytes) (padded.length / (16 * wordBytes)) padded
  let final := blocks.foldl
    (fun state block => p.compress state ((chunks wordBytes 16 block).map ofBytesBE)) p.initial
  final.flatMap (toBytesBE wordBytes)

end Sha2

namespace Digest

def sha256 (message : List UInt8) : Vector UInt8 32 :=
  let p : Sha2 :=
    { wordBits := 32
      rounds := 64
      bigSigma0 := (2, 13, 22)
      bigSigma1 := (6, 11, 25)
      smallSigma0 := (7, 18, 3)
      smallSigma1 := (17, 19, 10)
      initial := [0x6a09e667, 0xbb67ae85, 0x3c6ef372, 0xa54ff53a,
        0x510e527f, 0x9b05688c, 0x1f83d9ab, 0x5be0cd19] }
  fit 32 (p.hash message)

def sha384 (message : List UInt8) : Vector UInt8 48 :=
  let p : Sha2 :=
    { wordBits := 64
      rounds := 80
      bigSigma0 := (28, 34, 39)
      bigSigma1 := (14, 18, 41)
      smallSigma0 := (1, 8, 7)
      smallSigma1 := (19, 61, 6)
      initial := [0xcbbb9d5dc1059ed8, 0x629a292a367cd507, 0x9159015a3070dd17, 0x152fecd8f70e5939,
        0x67332667ffc00b31, 0x8eb44a8768581511, 0xdb0c2e0d64f98fa7, 0x47b5481dbefa4fa4] }
  fit 48 (p.hash message)

end Digest

/-! ## SHA-3 -/

namespace Sha3

open Digest

/-- Five rows of five 64-bit lanes. -/
abbrev State := List (List Nat)

def rotl (x n : Nat) : Nat := ((x <<< n) % 2 ^ 64) ||| (x >>> (64 - n))

/-- The row moved `k` places to the left, cyclically. -/
def shift {α : Type} (k : Nat) (row : List α) : List α := row.drop k ++ row.take k

def offsets : State :=
  [[0, 1, 62, 28, 27], [36, 44, 6, 55, 20], [3, 10, 43, 25, 39], [41, 45, 15, 21, 8],
    [18, 2, 61, 56, 14]]

def roundConstants : List Nat :=
  [ 0x0000000000000001, 0x0000000000008082, 0x800000000000808a, 0x8000000080008000,
    0x000000000000808b, 0x0000000080000001, 0x8000000080008081, 0x8000000000008009,
    0x000000000000008a, 0x0000000000000088, 0x0000000080008009, 0x000000008000000a,
    0x000000008000808b, 0x800000000000008b, 0x8000000000008089, 0x8000000000008003,
    0x8000000000008002, 0x8000000000000080, 0x000000000000800a, 0x800000008000000a,
    0x8000000080008081, 0x8000000000008080, 0x0000000080000001, 0x8000000080008008 ]

def theta (a : State) : State :=
  let parity := a.foldl (List.zipWith (· ^^^ ·)) (List.replicate 5 0)
  let mask := List.zipWith (fun l r => l ^^^ rotl r 1) (shift 4 parity) (shift 1 parity)
  a.map (List.zipWith (· ^^^ ·) mask)

def rho (a : State) : State := List.zipWith (List.zipWith rotl) a offsets

/-- Row `y` of the result is the diagonal that starts at column `3 * y`. -/
def pi (a : State) : State :=
  [0, 3, 1, 4, 2].map fun k =>
    List.zipWith (fun row i => (shift k row).getD i 0) a [0, 1, 2, 3, 4]

def chi (a : State) : State :=
  a.map fun row => List.zipWith (· ^^^ ·) row
    (List.zipWith (fun b c => (b ^^^ (2 ^ 64 - 1)) &&& c) (shift 1 row) (shift 2 row))

def iota (constant : Nat) : State → State
  | (lane :: row) :: rows => ((lane ^^^ constant) :: row) :: rows
  | a => a

def permute (a : State) : State :=
  roundConstants.foldl (fun a constant => iota constant (chi (pi (rho (theta a))))) a

def pad (rate : Nat) (message : List UInt8) : List UInt8 :=
  let missing := rate - message.length % rate
  if missing = 1 then message ++ [0x86]
  else message ++ 0x06 :: List.replicate (missing - 2) 0 ++ [0x80]

def absorb (a : State) (block : List UInt8) : State :=
  let lanes := (chunks 8 25 block).map ofBytesLE
  permute (List.zipWith (List.zipWith (· ^^^ ·)) a (chunks 5 5 lanes))

end Sha3

namespace Digest

def sha3_384 (message : List UInt8) : Vector UInt8 48 :=
  let rate := 104
  let padded := Sha3.pad rate message
  let initial := List.replicate 5 (List.replicate 5 0)
  let final := (chunks rate (padded.length / rate) padded).foldl Sha3.absorb initial
  fit 48 (final.flatten.flatMap (toBytesLE 8))

/-! The published values for `abc`. -/

example : ofBytesBE (sha256 [97, 98, 99]).toList =
    0xba7816bf8f01cfea414140de5dae2223b00361a396177a9cb410ff61f20015ad := by decide +kernel

example : ofBytesBE (sha384 [97, 98, 99]).toList =
    0xcb00753f45a35e8bb5a03d699ac65007272c32ab0eded1631a8b605a43ff5bed8086072ba1e7cc2358baeca134c825a7 := by
  decide +kernel

example : ofBytesBE (sha3_384 [97, 98, 99]).toList =
    0xec01498288516fc926459f58e2c6ad8df9b473cb0fc08c2596da7cf0e49be4b298d88cea927ac7f539f1edf228376d25 := by
  decide +kernel

end Digest
