/-
  Keccak-256, executable.

  The modelled code takes `keccak256` from a library, so its properties are stated
  for an arbitrary hash function. This file is the concrete function the code calls:
  the sponge over Keccak-f[1600] with rate 136 bytes and the original Keccak padding
  (`0x01 … 0x80`, not the SHA-3 one). Lanes are naturals below 2^64 in a list of 25,
  lane `x + 5 * y` at column `x` and row `y`, so that the kernel can evaluate it.

  Nothing is proved about its strength.
-/
import Arbreth.Lib.Bytes

namespace Arbreth.Lib.Keccak

/-! ## The permutation -/

def laneMask : Nat := 2 ^ 64 - 1

/-- Rotate a 64-bit lane left by `r`. -/
def rotl (x r : Nat) : Nat := ((x <<< r) &&& laneMask) ||| (x >>> (64 - r))

def lane (s : List Nat) (i : Nat) : Nat := s.getD i 0

/-- The constants of the 24 rounds. -/
def roundConstants : List Nat :=
  [0x0000000000000001, 0x0000000000008082, 0x800000000000808A, 0x8000000080008000,
   0x000000000000808B, 0x0000000080000001, 0x8000000080008081, 0x8000000000008009,
   0x000000000000008A, 0x0000000000000088, 0x0000000080008009, 0x000000008000000A,
   0x000000008000808B, 0x800000000000008B, 0x8000000000008089, 0x8000000000008003,
   0x8000000000008002, 0x8000000000000080, 0x000000000000800A, 0x800000008000000A,
   0x8000000080008081, 0x8000000000008080, 0x0000000080000001, 0x8000000080008008]

/-- The rotation of each lane in the ρ step. -/
def rotations : List Nat :=
  [0, 1, 62, 28, 27, 36, 44, 6, 55, 20, 3, 10, 43, 25, 39, 41, 45, 15, 21, 8, 18, 2, 61, 56, 14]

/-- θ: add to each lane the parities of two neighbouring columns. -/
def theta (s : List Nat) : List Nat :=
  let c := (List.range 5).map fun x =>
    lane s x ^^^ lane s (x + 5) ^^^ lane s (x + 10) ^^^ lane s (x + 15) ^^^ lane s (x + 20)
  (List.range 25).map fun i =>
    lane s i ^^^ lane c ((i + 4) % 5) ^^^ rotl (lane c ((i + 1) % 5)) 1

/-- ρ and π: rotate every lane, then move it. The lane that lands on `(x, y)` comes
    from `(x + 3 * y, x)`. -/
def rhoPi (s : List Nat) : List Nat :=
  (List.range 25).map fun i =>
    let j := (i % 5 + 3 * (i / 5)) % 5 + 5 * (i % 5)
    rotl (lane s j) (lane rotations j)

/-- χ: the only non-linear step, along rows. -/
def chi (s : List Nat) : List Nat :=
  (List.range 25).map fun i =>
    let y := 5 * (i / 5)
    lane s i ^^^ ((lane s ((i + 1) % 5 + y) ^^^ laneMask) &&& lane s ((i + 2) % 5 + y))

/-- ι: add the round constant to lane 0. -/
def iota (rc : Nat) : List Nat → List Nat
  | [] => []
  | a :: s => (a ^^^ rc) :: s

/-- Keccak-f[1600]. -/
def keccakF (s : List Nat) : List Nat :=
  roundConstants.foldl (fun s rc => iota rc (chi (rhoPi (theta s)))) s

/-! ## The sponge -/

/-- The rate in bytes. -/
def rate : Nat := 136

/-- The first `k` little-endian lanes of a block. -/
def lanesOf : Nat → Bytes → List Nat
  | 0, _ => []
  | k + 1, bs => leNat (bs.take 8) :: lanesOf k (bs.drop 8)

/-- Pad to a multiple of the rate. -/
def pad (m : Bytes) : Bytes :=
  let q := rate - m.length % rate
  if q = 1 then m ++ [0x81] else m ++ 0x01 :: (List.replicate (q - 2) 0 ++ [0x80])

/-- Absorb `k` blocks. -/
def absorb : Nat → List Nat → Bytes → List Nat
  | 0, s, _ => s
  | k + 1, s, bs =>
    let block := lanesOf 17 bs ++ List.replicate 8 0
    absorb k (keccakF (List.zipWith (· ^^^ ·) s block)) (bs.drop rate)

/-- Keccak-256 of a byte string. -/
def keccak256 (m : Bytes) : B256 :=
  let p := pad m
  wordOfBytes (((absorb (p.length / rate) (List.replicate 25 0) p).take 4).flatMap (leBytes 8))

example : keccak256 [] =
    0xc5d2460186f7233c927e7db2dcc703c0e500b653ca82273b7bfad8045d85a470#256 := by
  decide +kernel

/-- Keccak-256 with the preimages of zero, if there are any, sent to one. It is the function
    itself on every input whose hash is not zero, and the concrete case of a statement that
    assumes the hash is never zero. -/
def keccak256Nz (m : Bytes) : B256 := if keccak256 m = 0 then 1 else keccak256 m

theorem keccak256Nz_ne_zero (m : Bytes) : keccak256Nz m ≠ 0 := by
  unfold keccak256Nz
  split
  · decide
  · assumption

end Arbreth.Lib.Keccak
