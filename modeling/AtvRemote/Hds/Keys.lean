import AtvRemote.Hds.Transparent

/-!
# The keys of a dictionary

A dictionary finds a key with `==`, and so it has a key once only if `==` is an equivalence:
objects that equal the same object equal each other (`pyEq_of_common`).  Across `int` and
`float` that is so because an integer is the value of at most one float, but for the zeros
(`eq_of_eqInt`).
-/

namespace AtvRemote

open Lib

namespace Float64

/-! ## The value of an integral float -/

/-- The value of a float, in units of its least exponent. -/
theorem value_of_isInteger {x : Float64} (h : x.isInteger = true) :
    x.mantissa * 2 ^ x.scale = x.magnitude * 2 ^ 1075 := by
  rw [magnitude]
  split
  · next hle =>
    rw [Nat.mul_assoc, ← Nat.pow_add, Nat.sub_add_cancel hle]
  · next hlt =>
    rw [isInteger, Bool.or_eq_true, decide_eq_true_eq, beq_iff_eq] at h
    have hdvd := Nat.dvd_of_mod_eq_zero (h.resolve_left hlt)
    have hsplit : 2 ^ 1075 = 2 ^ (1075 - x.scale) * 2 ^ x.scale := by
      rw [← Nat.pow_add, Nat.sub_add_cancel (Nat.le_of_not_le hlt)]
    rw [hsplit, ← Nat.mul_assoc, Nat.div_mul_cancel hdvd]

/-- A mantissa is normalized, unless the exponent is the least. -/
theorem mantissa_lt (x : Float64) : x.mantissa < 2 ^ 53 := by
  have hlt := Nat.mod_lt x.bits.toNat (Nat.two_pow_pos 52)
  rw [mantissa, fraction]
  split <;> omega

theorem le_mantissa {x : Float64} (h : x.exponent ≠ 0) : 2 ^ 52 ≤ x.mantissa := by
  rw [mantissa, if_neg h]
  exact Nat.le_add_left _ _

/-- Of floats of one value, the scales do not differ. -/
theorem scale_le {x y : Float64} (h : x.mantissa * 2 ^ x.scale = y.mantissa * 2 ^ y.scale) :
    y.scale ≤ x.scale := by
  by_contra hlt
  have hlt := Nat.lt_of_not_le hlt
  have hnormal : y.exponent ≠ 0 := by
    intro hzero
    rw [scale, scale, hzero] at hlt
    omega
  -- its mantissa would be twice as large at least
  have hshift : x.mantissa = y.mantissa * 2 ^ (y.scale - x.scale) := by
    have hpow : 2 ^ y.scale = 2 ^ (y.scale - x.scale) * 2 ^ x.scale := by
      rw [← Nat.pow_add, Nat.sub_add_cancel (Nat.le_of_lt hlt)]
    rw [hpow, ← Nat.mul_assoc] at h
    exact Nat.eq_of_mul_eq_mul_right (Nat.two_pow_pos _) h
  have htwice : 2 ≤ 2 ^ (y.scale - x.scale) :=
    Nat.le_pow (Nat.sub_pos_of_lt hlt)
  have hle := Nat.mul_le_mul (le_mantissa hnormal) htwice
  have := mantissa_lt x
  omega

theorem exponent_eq {x y : Float64} (hscale : x.scale = y.scale)
    (hmantissa : x.mantissa = y.mantissa) : x.exponent = y.exponent ∧ x.fraction = y.fraction := by
  have hx := Nat.mod_lt x.bits.toNat (Nat.two_pow_pos 52)
  have hy := Nat.mod_lt y.bits.toNat (Nat.two_pow_pos 52)
  rw [scale, scale] at hscale
  rw [mantissa, mantissa] at hmantissa
  simp only [fraction] at hmantissa ⊢
  split at hmantissa <;> split at hmantissa <;> omega

/-- A float is its sign, its exponent and its fraction. -/
theorem ext_fields {x y : Float64} (hsign : x.negative = y.negative)
    (hexponent : x.exponent = y.exponent) (hfraction : x.fraction = y.fraction) : x = y := by
  obtain ⟨a⟩ := x
  obtain ⟨b⟩ := y
  have ha := a.toNat_lt
  have hb := b.toNat_lt
  simp only [negative, decide_eq_decide] at hsign
  simp only [exponent] at hexponent
  simp only [fraction] at hfraction
  rw [mk.injEq]
  refine UInt64.toNat.inj ?_
  omega

theorem isZero_of_mantissa {x : Float64} (h : x.mantissa = 0) : x.isZero = true := by
  rw [mantissa] at h
  split at h
  · next hexponent =>
    rw [isZero, hexponent, h]
    rfl
  · omega

theorem natAbs_trunc (x : Float64) : x.trunc.natAbs = x.magnitude := by
  rw [trunc]
  split
  · rw [Int.natAbs_neg, Int.natAbs_natCast]
  · exact Int.natAbs_natCast _

theorem negative_eq {x : Float64} (h : x.magnitude ≠ 0) :
    x.negative = decide (x.trunc < 0) := by
  rw [trunc]
  split
  · next hsign =>
    rw [hsign]
    symm
    apply decide_eq_true
    omega
  · next hsign =>
    rw [Bool.eq_false_iff.mpr hsign]
    symm
    apply decide_eq_false
    omega

/-- **An integer is the value of at most one float, but for the zeros.** -/
theorem eq_of_eqInt {x y : Float64} {n : Int} (hx : x.eqInt n = true) (hy : y.eqInt n = true) :
    x.eq y = true := by
  simp only [eqInt, Bool.and_eq_true, beq_iff_eq] at hx hy
  obtain ⟨⟨⟨hnan, -⟩, hinteger⟩, hn⟩ := hx
  obtain ⟨⟨⟨hnan', -⟩, hinteger'⟩, hn'⟩ := hy
  have hmagnitude : x.magnitude = y.magnitude := by
    rw [← natAbs_trunc x, ← natAbs_trunc y, hn, hn']
  have hvalue := value_of_isInteger hinteger
  have hvalue' := value_of_isInteger hinteger'
  by_cases hzero : x.magnitude = 0
  · rw [hzero, Nat.zero_mul] at hvalue
    rw [← hmagnitude, hzero, Nat.zero_mul] at hvalue'
    have hnone : ∀ {m s : Nat}, m * 2 ^ s = 0 → m = 0 := fun h ↦
      (Nat.mul_eq_zero.mp h).resolve_right (Nat.ne_of_gt (Nat.two_pow_pos _))
    exact eq_of_isZero (isZero_of_mantissa (hnone hvalue)) (isZero_of_mantissa (hnone hvalue'))
  · have hsame : x.mantissa * 2 ^ x.scale = y.mantissa * 2 ^ y.scale := by
      rw [hvalue, hvalue', hmagnitude]
    have hscale := Nat.le_antisymm (scale_le hsame.symm) (scale_le hsame)
    rw [hscale] at hsame
    obtain ⟨hexponent, hfraction⟩ :=
      exponent_eq hscale (Nat.eq_of_mul_eq_mul_right (Nat.two_pow_pos _) hsame)
    have hsign : x.negative = y.negative := by
      rw [negative_eq hzero, negative_eq (hmagnitude ▸ hzero), hn, hn']
    obtain rfl := ext_fields hsign hexponent hfraction
    rw [eq, hnan, beq_self_eq_true]
    rfl

/-- Equal floats equal the same integers. -/
theorem eqInt_of_eq {x y : Float64} {n : Int} (h : x.eq y = true) (hy : y.eqInt n = true) :
    x.eqInt n = true := by
  rcases eq_cases h with rfl | ⟨hx, hzero⟩
  · exact hy
  · rw [eq_zero hzero, zero_eqInt] at hy
    rwa [eq_zero hx, zero_eqInt]

theorem eqInt_unique {x : Float64} {m n : Int} (hm : x.eqInt m = true) (hn : x.eqInt n = true) :
    m = n := by
  simp only [eqInt, Bool.and_eq_true, beq_iff_eq] at hm hn
  exact hm.2.symm.trans hn.2

end Float64

namespace Obj

/-! ## Objects that equal the same object -/

/-- The number that an object is. -/
def number? : Obj → Option (Int ⊕ Float64)
  | .bool b => some (.inl (if b then 1 else 0))
  | .int n => some (.inl n)
  | .float x => some (.inr x)
  | _ => Option.none

/-- Numbers are equal, whatever their classes. -/
def numberEq : Int ⊕ Float64 → Int ⊕ Float64 → Bool
  | .inl m, .inl n => m == n
  | .inl n, .inr x | .inr x, .inl n => x.eqInt n
  | .inr x, .inr y => x.eq y

theorem pyEq_number {x y : Obj} {a b : Int ⊕ Float64} (hx : x.number? = some a)
    (hy : y.number? = some b) : x.pyEq y = numberEq a b := by
  cases x with
  | bool p =>
      cases hx
      cases y with
      | bool q =>
          cases hy
          cases p <;> cases q <;> rfl
      | int | float =>
          cases hy
          first | rfl | exact BEq.comm
      | _ => cases hy
  | int m =>
      cases hx
      cases y with
      | bool | int | float =>
          cases hy
          rfl
      | _ => cases hy
  | float =>
      cases hx
      cases y with
      | bool | int | float =>
          cases hy
          rfl
      | _ => cases hy
  | _ => cases hx

/-- Only a number equals a number. -/
theorem number_of_pyEq {x y : Obj} {b : Int ⊕ Float64} (h : x.pyEq y = true)
    (hy : y.number? = some b) : ∃ a, x.number? = some a := by
  cases y with
  | bool | int | float =>
      cases x with
      | bool | int | float => exact ⟨_, rfl⟩
      | _ => cases h
  | _ => cases hy

theorem numberEq_of_common {a b c : Int ⊕ Float64} (hac : numberEq a c = true)
    (hbc : numberEq b c = true) : numberEq a b = true := by
  rcases c with k | z
  · rcases a with m | x <;> rcases b with n | y
    · rw [numberEq, beq_iff_eq] at hac hbc ⊢
      exact hac.trans hbc.symm
    · rw [numberEq, beq_iff_eq] at hac
      exact hac ▸ hbc
    · rw [numberEq, beq_iff_eq] at hbc
      exact hbc ▸ hac
    · exact Float64.eq_of_eqInt hac hbc
  · rcases a with m | x <;> rcases b with n | y
    · exact beq_iff_eq.mpr (Float64.eqInt_unique hac hbc)
    · exact Float64.eqInt_of_eq hbc hac
    · exact Float64.eqInt_of_eq hac hbc
    · exact Float64.eq_trans hac ((Float64.eq_comm z y).trans hbc)

theorem eq_none_of_pyEq {x : Obj} (h : x.pyEq .none = true) : x = .none := by
  cases x with
  | none => rfl
  | _ => cases h

theorem eq_terminator_of_pyEq {x : Obj} (h : x.pyEq .terminator = true) : x = .terminator := by
  cases x with
  | terminator => rfl
  | _ => cases h

/-- **Objects that equal the same object equal each other.** -/
theorem pyEq_of_common {x y z : Obj} (hxz : x.pyEq z = true) (hyz : y.pyEq z = true) :
    x.pyEq y = true := by
  have hnumber : ∀ {c : Int ⊕ Float64}, z.number? = some c → x.pyEq y = true := by
    intro c hc
    obtain ⟨a, ha⟩ := number_of_pyEq hxz hc
    obtain ⟨b, hb⟩ := number_of_pyEq hyz hc
    rw [pyEq_number ha hc] at hxz
    rw [pyEq_number hb hc] at hyz
    rw [pyEq_number ha hb]
    exact numberEq_of_common hxz hyz
  cases z with
  | bool | int | float => exact hnumber rfl
  | intN | str | uuid =>
      first
      | rw [eq_of_pyEq_intN hxz, eq_of_pyEq_intN hyz]
      | rw [eq_of_pyEq_str hxz, eq_of_pyEq_str hyz]
      | rw [eq_of_pyEq_uuid hxz, eq_of_pyEq_uuid hyz]
      simp [pyEq]
  | bytes =>
      obtain ⟨k, rfl⟩ := eq_of_pyEq_bytes hxz
      obtain ⟨k', rfl⟩ := eq_of_pyEq_bytes hyz
      simp [pyEq]
  | float32 c | float64 c | date c =>
      cases x with
      | float32 a | float64 a | date a =>
          first
          | cases hxz
          | cases y with
            | float32 b | float64 b | date b =>
                first
                | cases hyz
                | exact Float64.eq_trans hxz ((Float64.eq_comm c b).trans hyz)
            | _ => cases hyz
      | _ => cases hxz
  | none =>
      rw [eq_none_of_pyEq hxz, eq_none_of_pyEq hyz]
      rfl
  | terminator =>
      rw [eq_terminator_of_pyEq hxz, eq_terminator_of_pyEq hyz]
      rfl
  | seq | dict => cases x <;> cases hxz

/-- Of keys that differ from each other, at most one equals an object. -/
theorem pairwise_pyEq {items : List (Obj × Obj)}
    (h : items.Pairwise fun p q ↦ p.1.pyEq q.1 = false) (k : Obj) :
    items.Pairwise fun p q ↦ p.1.pyEq k = true → q.1.pyEq k = false := by
  refine h.imp fun {p q} hne hp ↦ ?_
  apply Bool.eq_false_iff.mpr
  intro hq
  rw [pyEq_of_common hp hq] at hne
  cases hne

end Obj

end AtvRemote
