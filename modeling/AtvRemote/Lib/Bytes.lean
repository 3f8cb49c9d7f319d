import Mathlib.Algebra.Ring.Int.Defs
import Mathlib.Algebra.Ring.Nat
import Mathlib.Data.List.Basic

/-!
# Byte strings and fixed-width integers

Unsigned integers in `w` bytes, least significant byte first (`toLE`/`ofLE`) or most
significant byte first (`toBE`/`ofBE`), and two's-complement integers in `w` bytes,
least significant byte first (`packSigned`/`unpackSigned`).

`toLE` truncates, as `int.to_bytes` does not: the callers that must raise check the
range first, and `packSigned` carries that check itself.
-/

namespace Lib

/-- A byte string. -/
abbrev Bytes := List UInt8

/-! ## Unsigned integers -/

/-- The low `w` bytes of `n`, least significant first. -/
def toLE : Nat → Nat → Bytes
  | 0, _ => []
  | w + 1, n => UInt8.ofNat n :: toLE w (n / 256)

/-- The number a byte string stands for, least significant byte first. -/
def ofLE : Bytes → Nat
  | [] => 0
  | b :: bs => b.toNat + 256 * ofLE bs

/-- The low `w` bytes of `n`, most significant first. -/
def toBE (w n : Nat) : Bytes := (toLE w n).reverse

/-- The number a byte string stands for, most significant byte first. -/
def ofBE (bs : Bytes) : Nat := ofLE bs.reverse

@[simp] theorem length_toLE (w n : Nat) : (toLE w n).length = w := by
  induction w generalizing n with
  | zero => rfl
  | succ w ih => simp [toLE, ih]

@[simp] theorem length_toBE (w n : Nat) : (toBE w n).length = w := by simp [toBE]

/-- Truncation to `w` bytes is reduction modulo `256 ^ w`. -/
theorem ofLE_toLE_mod (w n : Nat) : ofLE (toLE w n) = n % 256 ^ w := by
  induction w generalizing n with
  | zero => simp [toLE, ofLE, Nat.mod_one]
  | succ w ih =>
      have hsplit : n % 256 ^ (w + 1) = n % 256 + 256 * (n / 256 % 256 ^ w) := by
        rw [Nat.pow_succ, Nat.mul_comm, Nat.mod_mul]
      rw [toLE, ofLE, ih, hsplit, UInt8.toNat_ofNat']

/-- A number below `256 ^ w` survives being written in `w` bytes. -/
theorem ofLE_toLE {w n : Nat} (h : n < 256 ^ w) : ofLE (toLE w n) = n := by
  rw [ofLE_toLE_mod, Nat.mod_eq_of_lt h]

/-- A number below `256 ^ w` survives being written in `w` bytes, big end first. -/
theorem ofBE_toBE {w n : Nat} (h : n < 256 ^ w) : ofBE (toBE w n) = n := by
  rw [ofBE, toBE, List.reverse_reverse, ofLE_toLE h]

/-- A byte string of length `w` stands for a number below `256 ^ w`. -/
theorem ofLE_lt (bs : Bytes) : ofLE bs < 256 ^ bs.length := by
  induction bs with
  | nil => simp [ofLE]
  | cons b bs ih =>
      have hb : b.toNat < 256 := b.toNat_lt
      rw [ofLE, List.length_cons, Nat.pow_succ]
      omega

/-! ## Two's complement -/

/-- The `w` bytes of `n` in two's complement, or `none` when `n` does not fit. -/
def packSigned (w : Nat) (n : Int) : Option Bytes :=
  if -((256 ^ w : Nat) : Int) ≤ 2 * n ∧ 2 * n < ((256 ^ w : Nat) : Int) then
    some (toLE w (n % ((256 ^ w : Nat) : Int)).toNat)
  else none

/-- The number a byte string stands for in two's complement. -/
def unpackSigned (bs : Bytes) : Int := Int.bmod (ofLE bs) (256 ^ bs.length)

/-- A packed integer has the width it was packed to. -/
theorem length_of_packSigned {w : Nat} {n : Int} {bs : Bytes} (h : packSigned w n = some bs) :
    bs.length = w := by
  unfold packSigned at h
  split at h
  · rw [← Option.some.inj h, length_toLE]
  · cases h

/-- An integer that fits in `w` bytes survives being packed. -/
theorem unpackSigned_of_packSigned {w : Nat} {n : Int} {bs : Bytes}
    (h : packSigned w n = some bs) : unpackSigned bs = n := by
  have hlen := length_of_packSigned h
  unfold packSigned at h
  split at h
  case isFalse => cases h
  case isTrue hfit =>
    have hpos : 0 < 256 ^ w := Nat.pow_pos (by decide)
    have hne : ((256 ^ w : Nat) : Int) ≠ 0 := by omega
    have hlt : (n % ((256 ^ w : Nat) : Int)).toNat < 256 ^ w := by
      have := Int.emod_lt_of_pos n (b := ((256 ^ w : Nat) : Int)) (by omega)
      have := Int.emod_nonneg n hne
      omega
    rw [unpackSigned, hlen, ← Option.some.inj h, ofLE_toLE hlt,
      Int.toNat_of_nonneg (Int.emod_nonneg n hne), Int.emod_bmod, Int.bmod_eq_iff hpos]
    refine ⟨?_, ?_, ⟨0, by simp⟩⟩ <;> omega

/-- Every integer in the signed range of `w` bytes can be packed. -/
theorem packSigned_isSome {w : Nat} {n : Int} (hlo : -((256 ^ w : Nat) : Int) ≤ 2 * n)
    (hhi : 2 * n < ((256 ^ w : Nat) : Int)) : (packSigned w n).isSome := by
  rw [packSigned, if_pos ⟨hlo, hhi⟩]
  rfl

end Lib
