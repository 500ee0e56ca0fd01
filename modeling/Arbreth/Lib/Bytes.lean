/-
  Fixed-width byte encodings of naturals.

  A byte string is a `List UInt8`. `leBytes w n` is the `w` low bytes of `n`, least
  significant first; `beBytes` is the same list reversed, which is how the EVM and
  every `to_be_bytes` of the modelled code lay a word out. Bits above `8 * w` are
  dropped, so the encoders are total and the round trips are modulo `256 ^ w`.
-/
import Mathlib.Algebra.Order.Ring.Nat
import Mathlib.Data.UInt
import Mathlib.Tactic.Ring

namespace Arbreth.Lib

/-- A byte string. -/
abbrev Bytes := List UInt8

/-! ## Little endian -/

/-- The `w` little-endian bytes of `n`. -/
def leBytes : Nat → Nat → Bytes
  | 0, _ => []
  | w + 1, n => UInt8.ofNat (n % 256) :: leBytes w (n / 256)

/-- The natural whose little-endian bytes are given. -/
def leNat : Bytes → Nat
  | [] => 0
  | b :: bs => b.toNat + 256 * leNat bs

variable (w n : Nat) (bs : Bytes)

@[simp] theorem leBytes_length : (leBytes w n).length = w := by
  induction w generalizing n with
  | zero => rfl
  | succ w ih => simp only [leBytes, List.length_cons, ih]

theorem leNat_leBytes : leNat (leBytes w n) = n % 256 ^ w := by
  induction w generalizing n with
  | zero => simp [leBytes, leNat, Nat.mod_one]
  | succ w ih =>
    have hb : (UInt8.ofNat (n % 256)).toNat = n % 256 := by
      rw [UInt8.toNat_ofNat']
      omega
    rw [leBytes, leNat, ih, hb, pow_succ', Nat.mod_mul]

theorem leNat_lt : leNat bs < 256 ^ bs.length := by
  induction bs with
  | nil => simp [leNat]
  | cons b bs ih =>
    have hb : b.toNat < 256 := b.toNat_lt
    rw [leNat, List.length_cons, pow_succ]
    omega

theorem leNat_append (xs ys : Bytes) :
    leNat (xs ++ ys) = leNat xs + 256 ^ xs.length * leNat ys := by
  induction xs with
  | nil => simp [leNat]
  | cons b xs ih =>
    rw [List.cons_append, leNat, leNat, ih, List.length_cons, pow_succ]
    ring

theorem leBytes_leNat : leBytes bs.length (leNat bs) = bs := by
  induction bs with
  | nil => rfl
  | cons b bs ih =>
    have hb : b.toNat < 256 := b.toNat_lt
    have hmod : (b.toNat + 256 * leNat bs) % 256 = b.toNat := by omega
    have hdiv : (b.toNat + 256 * leNat bs) / 256 = leNat bs := by omega
    rw [List.length_cons, leNat, leBytes, hmod, hdiv, ih, UInt8.ofNat_toNat]

/-! ## Big endian -/

/-- The `w` big-endian bytes of `n`. -/
def beBytes (w n : Nat) : Bytes := (leBytes w n).reverse

/-- The natural whose big-endian bytes are given. -/
def beNat (bs : Bytes) : Nat := leNat bs.reverse

@[simp] theorem beBytes_length : (beBytes w n).length = w := by
  simp [beBytes]

theorem beNat_beBytes : beNat (beBytes w n) = n % 256 ^ w := by
  rw [beNat, beBytes, List.reverse_reverse, leNat_leBytes]

theorem beNat_lt : beNat bs < 256 ^ bs.length := by
  have h := leNat_lt bs.reverse
  rwa [List.length_reverse] at h

theorem beNat_append (xs ys : Bytes) :
    beNat (xs ++ ys) = beNat xs * 256 ^ ys.length + beNat ys := by
  rw [beNat, List.reverse_append, leNat_append, List.length_reverse, beNat, beNat]
  ring

theorem beBytes_beNat : beBytes bs.length (beNat bs) = bs := by
  have h := leBytes_leNat bs.reverse
  rw [List.length_reverse] at h
  rw [beBytes, beNat, h, List.reverse_reverse]

theorem beBytes_inj {w n m : Nat} (hn : n < 256 ^ w) (hm : m < 256 ^ w)
    (h : beBytes w n = beBytes w m) : n = m := by
  have h' := congrArg beNat h
  rwa [beNat_beBytes, beNat_beBytes, Nat.mod_eq_of_lt hn, Nat.mod_eq_of_lt hm] at h'

theorem beBytes_succ : beBytes (w + 1) n = beBytes w (n / 256) ++ [UInt8.ofNat (n % 256)] := by
  simp [beBytes, leBytes]

theorem beBytes_add (k w n : Nat) :
    beBytes (k + w) n = beBytes k (n / 256 ^ w) ++ beBytes w n := by
  induction w generalizing n with
  | zero => simp [beBytes, leBytes]
  | succ w ih =>
    rw [← Nat.add_assoc, beBytes_succ, ih, beBytes_succ w, Nat.div_div_eq_div_mul,
      ← pow_succ', List.append_assoc]

theorem beNat_drop (w k n : Nat) : beNat ((beBytes (k + w) n).drop k) = n % 256 ^ w := by
  rw [beBytes_add, List.drop_left' (by simp), beNat_beBytes]

theorem beBytes_zero (w : Nat) : beBytes w 0 = List.replicate w 0 := by
  induction w with
  | zero => rfl
  | succ w ih => rw [beBytes_succ, Nat.zero_div, ih, List.replicate_succ']; rfl

theorem beBytes_of_lt {w n : Nat} (hn : n < 256 ^ w) (k : Nat) :
    beBytes (k + w) n = List.replicate k 0 ++ beBytes w n := by
  rw [beBytes_add, Nat.div_eq_of_lt hn, beBytes_zero]

/-! ## 256-bit words -/

/-- A 32-byte word: a hash (`B256`) or an EVM integer (`U256`). The source's
    `from_be_bytes` and `to_be_bytes` between the two are the identity here. -/
abbrev B256 := BitVec 256

/-- A 256-bit EVM integer. -/
abbrev U256 := BitVec 256

/-- A 20-byte account address. -/
abbrev Address := BitVec 160

instance : LawfulBEq B256 := inferInstance

instance : LawfulBEq Address := inferInstance

/-- The 32 big-endian bytes of a word. -/
def wordBytes (x : B256) : Bytes := beBytes 32 x.toNat

/-- The word with the given big-endian bytes. -/
def wordOfBytes (bs : Bytes) : B256 := BitVec.ofNat 256 (beNat bs)

/-- The 20 big-endian bytes of an address. -/
def addressBytes (a : Address) : Bytes := beBytes 20 a.toNat

@[simp] theorem wordBytes_length (x : B256) : (wordBytes x).length = 32 := by
  simp [wordBytes]

theorem wordBytes_inj {x y : B256} (h : wordBytes x = wordBytes y) : x = y := by
  apply BitVec.eq_of_toNat_eq
  exact beBytes_inj (by simpa using x.isLt) (by simpa using y.isLt) h

theorem wordOfBytes_wordBytes (x : B256) : wordOfBytes (wordBytes x) = x := by
  refine BitVec.eq_of_toNat_eq ?_
  rw [wordOfBytes, wordBytes, beNat_beBytes, BitVec.toNat_ofNat]
  have hx : x.toNat < 2 ^ 256 := x.isLt
  have hpow : (256 : Nat) ^ 32 = 2 ^ 256 := by norm_num
  rw [hpow, Nat.mod_mod, Nat.mod_eq_of_lt hx]

theorem wordBytes_wordOfBytes {bs : Bytes} (h : bs.length = 32) :
    wordBytes (wordOfBytes bs) = bs := by
  have hlt : beNat bs < 2 ^ 256 := by
    have := beNat_lt bs
    rw [h] at this
    simpa using this
  rw [wordBytes, wordOfBytes, BitVec.toNat_ofNat, Nat.mod_eq_of_lt hlt, ← h, beBytes_beNat]

/-- Two words laid end to end, the 64-byte input of an inner hash node. -/
def pairBytes (x y : B256) : Bytes := wordBytes x ++ wordBytes y

theorem pairBytes_inj {x y x' y' : B256} (h : pairBytes x y = pairBytes x' y') :
    x = x' ∧ y = y' := by
  obtain ⟨hx, hy⟩ := List.append_inj h (by simp)
  exact ⟨wordBytes_inj hx, wordBytes_inj hy⟩

end Arbreth.Lib
