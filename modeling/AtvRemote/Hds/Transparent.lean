import AtvRemote.Hds.Received

/-!
# The zeros of a message

The encoder finds an earlier scalar with `==`, and the two zeros of a float are equal.  A
message keeps its floats exactly when no zero follows one of the other sign under the same
tag, unless that one is too far back to be referred to: it is the first zero under a tag that
stands for all later ones.
-/

namespace AtvRemote

open Lib

namespace Float64

/-- The zero of the given sign. -/
def zero (negative : Bool) : Float64 := ⟨if negative then 0x8000000000000000 else 0⟩

theorem eq_zero {x : Float64} (h : x.isZero = true) : x = zero x.negative := by
  obtain ⟨bits⟩ := x
  simp only [isZero, exponent, fraction, Bool.and_eq_true, beq_iff_eq] at h
  have hlt := bits.toNat_lt
  rw [zero, mk.injEq]
  refine UInt64.toNat.inj ?_
  by_cases hsign : 2 ^ 63 ≤ bits.toNat
  · rw [if_pos (show negative ⟨bits⟩ = true from decide_eq_true hsign)]
    show bits.toNat = 2 ^ 63
    omega
  · rw [if_neg (show ¬ negative ⟨bits⟩ = true from fun hn ↦ hsign (of_decide_eq_true hn))]
    show bits.toNat = 0
    omega

theorem zero_inj {s s' : Bool} (h : zero s = zero s') : s = s' := by
  cases s <;> cases s' <;> first | rfl | exact absurd h (by decide)

/-- Equal floats are the same, unless they are zeros. -/
theorem eq_cases {x y : Float64} (h : x.eq y = true) :
    x = y ∨ x.isZero = true ∧ y.isZero = true := by
  obtain ⟨a⟩ := x
  obtain ⟨b⟩ := y
  simp only [eq, Bool.and_eq_true, Bool.or_eq_true, beq_iff_eq] at h
  rcases h.2 with heq | hzero
  · exact .inl (congrArg mk heq)
  · exact .inr hzero

theorem eq_of_isZero {x y : Float64} (hx : x.isZero = true) (hy : y.isZero = true) :
    x.eq y = true := by
  rw [eq_zero hx, eq_zero hy]
  cases x.negative <;> cases y.negative <;> decide

theorem eq_trans {x y z : Float64} (hxy : x.eq y = true) (hyz : y.eq z = true) :
    x.eq z = true := by
  rcases eq_cases hxy with rfl | ⟨hx, -⟩
  · exact hyz
  · rcases eq_cases hyz with rfl | ⟨-, hz⟩
    · exact hxy
    · exact eq_of_isZero hx hz

/-- The zeros equal the same numbers. -/
theorem zero_eq (s : Bool) (x : Float64) : (zero s).eq x = x.isZero := by
  have hzero : (zero s).isZero = true := by cases s <;> decide
  rw [Bool.eq_iff_iff]
  constructor
  · intro h
    rcases eq_cases h with rfl | hboth
    · exact hzero
    · exact hboth.2
  · exact eq_of_isZero hzero

theorem eq_comm (x y : Float64) : x.eq y = y.eq x := by
  rw [eq, eq, Bool.and_comm (!x.isNaN), Bool.and_comm x.isZero, BEq.comm]

theorem zero_eqInt (s : Bool) (n : Int) : (zero s).eqInt n = (0 == n) := by
  have hmantissa : (zero s).mantissa = 0 := by cases s <;> decide
  have hnan : (zero s).isNaN = false := by cases s <;> decide
  have hinf : (zero s).isInf = false := by cases s <;> decide
  have hinteger : (zero s).isInteger = true := by
    rw [isInteger, hmantissa, Nat.zero_mod]
    exact Bool.or_true _
  have hmagnitude : (zero s).magnitude = 0 := by
    rw [magnitude, hmantissa, Nat.zero_mul, Nat.zero_div, ite_self]
  have htrunc : (zero s).trunc = 0 := by
    rw [trunc, hmagnitude]
    exact ite_self 0
  rw [eqInt, hnan, hinf, hinteger, htrunc]
  rfl

/-- A zero goes through eight bytes, and through four. -/
theorem unpack64_zero (s : Bool) : unpack64 (zero s).pack64 = zero s := by
  cases s <;> decide

theorem pack32_zero (s : Bool) : ∃ b, (zero s).pack32 = some b ∧ unpack32 b = zero s := by
  cases s with
  | true => exact ⟨[0, 0, 0, 0x80], by decide, by decide⟩
  | false => exact ⟨[0, 0, 0, 0], by decide, by decide⟩

end Float64

namespace Obj

open Hds

/-! ## Zeros -/

/-- The sign of the zero that an object is, if it is written under this tag: `float` and
`Float64` share theirs. -/
def zero? (tag : Nat) : Obj → Option Bool
  | .float32 x => if tag = Tag.float32 ∧ x.isZero then some x.negative else Option.none
  | .float64 x | .float x =>
      if tag = Tag.float64 ∧ x.isZero then some x.negative else Option.none
  | .date x => if tag = Tag.date ∧ x.isZero then some x.negative else Option.none
  | _ => Option.none

/-- A zero decodes to itself when it is alone. -/
theorem alone_zero {x : Obj} {tag : Nat} {s : Bool} (h : x.zero? tag = some s) :
    x.alone = .float (.zero s) := by
  cases x with
  | float32 x =>
      rw [zero?] at h
      split at h
      · next hzero =>
        cases h
        obtain ⟨b, hb, hunpack⟩ := Float64.pack32_zero x.negative
        rw [← Float64.eq_zero hzero.2] at hb
        simp only [alone, hb, hunpack]
      · cases h
  | float x | float64 x | date x =>
      rw [zero?] at h
      split at h
      · next hzero =>
        cases h
        rw [alone]
        conv_lhs => rw [Float64.eq_zero hzero.2, Float64.unpack64_zero]
      · cases h
  | _ => cases h

/-- What is looked up for a zero is that zero. -/
theorem zero_lookedUp {x y : Obj} (h : x.lookedUp? = some y) (tag : Nat) :
    y.zero? tag = x.zero? tag := by
  cases x with
  | int n =>
      rw [lookedUp?] at h
      split at h <;> cases h
      rfl
  | _ => cases h <;> rfl

/-- A zero is looked up. -/
theorem lookedUp_of_zero {x : Obj} {tag : Nat} {s : Bool} (h : x.zero? tag = some s) :
    ∃ y, x.lookedUp? = some y := by
  cases x with
  | float | float32 | float64 | date => exact ⟨_, rfl⟩
  | _ => cases h

/-- A `float`, which is no object of the table. -/
def isPlainFloat : Obj → Bool
  | .float _ => true
  | _ => false

/-- What is looked up is no plain float. -/
theorem isPlainFloat_lookedUp {x y : Obj} (h : x.lookedUp? = some y) : y.isPlainFloat = false := by
  cases x with
  | int n =>
      rw [lookedUp?] at h
      split at h <;> cases h
      rfl
  | _ => cases h <;> rfl

/-- A float in the table, by the value it is a wrapper of. -/
theorem zero_float_iff {tag own : Nat} {x : Float64} {s : Bool}
    (h : (if tag = own ∧ x.isZero then some x.negative else Option.none) = some s) :
    tag = own ∧ x.isZero = true ∧ x.negative = s := by
  split at h
  · next hzero => exact ⟨hzero.1, hzero.2, Option.some.inj h⟩
  · cases h

/-- In the table, the zeros under one tag are the objects that equal one of them. -/
theorem pyEq_of_zero {y z : Obj} {tag : Nat} {s : Bool} (h : y.zero? tag = some s)
    (hy : y.isPlainFloat = false) (hz : z.isPlainFloat = false) :
    z.pyEq y = (z.zero? tag).isSome := by
  have hfloat : ∀ {own : Nat} {x x' : Float64}, tag = own → x.isZero = true →
      x'.eq x = (if tag = own ∧ x'.isZero then some x'.negative else Option.none).isSome := by
    intro own x x' htag hx
    by_cases hx' : x'.isZero = true
    · rw [if_pos ⟨htag, hx'⟩]
      exact Float64.eq_of_isZero hx' hx
    · rw [if_neg fun h ↦ hx' h.2]
      refine Bool.eq_false_iff.mpr fun heq ↦ ?_
      rcases Float64.eq_cases heq with rfl | hzero
      · exact hx' hx
      · exact hx' hzero.1
  cases y with
  | float => cases hy
  | float32 | float64 | date =>
      obtain ⟨rfl, hx, -⟩ := zero_float_iff h
      cases z with
      | float => cases hz
      | float32 | float64 | date => first | exact hfloat rfl hx | rfl
      | _ => rfl
  | _ => cases h

/-- Equal objects decode to the same unless they are zeros. -/
theorem alone_of_pyEq_of_zero {y z : Obj} (hlooked : y.lookedUp? = some y)
    (hzero : ∀ tag, y.zero? tag = Option.none) (h : z.pyEq y = true) : z.alone = y.alone := by
  have hnone : ∀ {own : Nat} {x : Float64},
      (∀ tag, (if tag = own ∧ x.isZero then some x.negative else Option.none) = Option.none) →
      ¬ x.isZero = true := by
    intro own x hall hx
    have hown := hall own
    rw [if_pos ⟨rfl, hx⟩] at hown
    cases hown
  cases hfloat : y.isFloat with
  | false => exact alone_of_pyEq h hfloat hlooked
  | true =>
      cases y with
      | float => cases hlooked
      | float32 x | float64 x | date x =>
          have hx : ¬ x.isZero = true := hnone hzero
          cases z with
          | float32 x' | float64 x' | date x' =>
              first
              | cases h
              | rcases Float64.eq_cases h with rfl | hboth
                · rfl
                · exact absurd hboth.2 hx
          | _ => cases h
      | _ => cases hfloat

/-! ## Places in the table -/

/-- One of the scalars equals the object. -/
def anyEqual (before : List Obj) (y : Obj) : Bool :=
  before.any fun z ↦ match z.lookedUp? with
    | some w => w.pyEq y
    | Option.none => false

/-- The scalar takes a place in the table: a boolean and a small integer always do, and any
other one if no scalar before it equals it. -/
def takesPlace (before : List Obj) (x : Obj) : Bool :=
  match x.lookedUp? with
  | some y => !anyEqual before y
  | Option.none => x.tracked

/-- How many places the scalars take behind those of `before`. -/
def placesBehind (before : List Obj) : List Obj → Nat
  | [] => 0
  | x :: xs => (if takesPlace before x then 1 else 0) + placesBehind (before ++ [x]) xs

/-- How many places the scalars take in an empty table. -/
def places (xs : List Obj) : Nat := placesBehind [] xs

theorem prefix_record (seen : List Obj) (x : Obj) : seen <+: record seen x := by
  rw [record]
  split
  · split
    · exact List.prefix_rfl
    · exact List.prefix_append ..
  · split
    · exact List.prefix_append ..
    · exact List.prefix_rfl

theorem prefix_recordAll (seen xs : List Obj) : seen <+: recordAll seen xs := by
  induction xs generalizing seen with
  | nil => exact List.prefix_rfl
  | cons x xs ih => exact (prefix_record seen x).trans (ih (record seen x))

/-- What one scalar adds to the table: itself, or what is looked up for it. -/
theorem mem_record {seen : List Obj} {x z : Obj} (h : z ∈ record seen x) :
    z ∈ seen ∨ x.lookedUp? = some z ∨ x.lookedUp? = Option.none ∧ x.tracked = true ∧ z = x := by
  rw [record] at h
  split at h
  · next y hy =>
    split at h
    · exact .inl h
    · rcases List.mem_append.mp h with h | h
      · exact .inl h
      · exact .inr (.inl (by rw [List.mem_singleton.mp h, hy]))
  · next hnone =>
    split at h
    · next htracked =>
      rcases List.mem_append.mp h with h | h
      · exact .inl h
      · exact .inr (.inr ⟨hnone, htracked, List.mem_singleton.mp h⟩)
    · exact .inl h

/-- Everything in the table comes from a scalar. -/
theorem mem_recordAll {seen xs : List Obj} {z : Obj} (h : z ∈ recordAll seen xs) :
    z ∈ seen ∨
      ∃ x ∈ xs, x.lookedUp? = some z ∨ x.lookedUp? = Option.none ∧ x.tracked = true ∧ z = x := by
  induction xs generalizing seen with
  | nil => exact .inl h
  | cons x xs ih =>
      rcases ih h with h | ⟨w, hw, hcases⟩
      · rcases mem_record h with h | h
        · exact .inl h
        · exact .inr ⟨x, List.mem_cons_self .., h⟩
      · exact .inr ⟨w, List.mem_cons_of_mem _ hw, hcases⟩

/-- No plain float is in the table. -/
theorem isPlainFloat_recordAll {xs : List Obj} {z : Obj} (h : z ∈ recordAll [] xs) :
    z.isPlainFloat = false := by
  obtain ⟨x, -, hlooked | ⟨-, htracked, rfl⟩⟩ := (mem_recordAll h).resolve_left List.not_mem_nil
  · exact isPlainFloat_lookedUp hlooked
  · cases z with
    | float => cases htracked
    | _ => rfl

/-- A zero in the table comes from a zero of the same sign. -/
theorem zero_recordAll {xs : List Obj} {z : Obj} {tag : Nat} {s : Bool}
    (h : z ∈ recordAll [] xs) (hzero : z.zero? tag = some s) :
    ∃ x ∈ xs, x.zero? tag = some s := by
  obtain ⟨x, hx, hlooked | ⟨-, -, rfl⟩⟩ := (mem_recordAll h).resolve_left List.not_mem_nil
  · exact ⟨x, hx, by rw [← zero_lookedUp hlooked, hzero]⟩
  · exact ⟨z, hx, hzero⟩

/-- `==` is transitive up to what is looked up. -/
theorem pyEq_trans {x y z : Obj} (hy : y.lookedUp? = some y) (hz : z.lookedUp? = some z)
    (hxy : x.pyEq y = true) (hyz : y.pyEq z = true) : x.pyEq z = true := by
  cases z with
  | intN | str | uuid =>
      first
      | rw [eq_of_pyEq_intN hyz] at hxy
      | rw [eq_of_pyEq_str hyz] at hxy
      | rw [eq_of_pyEq_uuid hyz] at hxy
      exact hxy
  | bytes =>
      obtain ⟨k, rfl⟩ := eq_of_pyEq_bytes hyz
      obtain ⟨k', rfl⟩ := eq_of_pyEq_bytes hxy
      exact hyz
  | float32 c | float64 c | date c =>
      cases y with
      | float32 b | float64 b | date b =>
          first
          | cases hyz
          | cases x with
            | float32 a | float64 a | date a =>
                first
                | cases hxy
                | exact Float64.eq_trans hxy hyz
            | _ => cases hxy
      | _ => cases hyz
  | int n =>
      rw [lookedUp?] at hz
      split at hz <;> cases hz
  | _ => cases hz

/-- Booleans and plain integers equal nothing that is looked up. -/
theorem pyEq_of_tracked {x y : Obj} (hx : x.tracked = true) (hy : y.lookedUp? = some y) :
    x.pyEq y = false := by
  cases x with
  | bool b =>
      cases y with
      | bool | float => cases hy
      | int n =>
          rw [lookedUp?] at hy
          split at hy <;> cases hy
      | _ => rfl
  | int m =>
      cases y with
      | bool | float => cases hy
      | int n =>
          rw [lookedUp?] at hy
          split at hy <;> cases hy
      | _ => rfl
  | _ => cases hx

theorem any_record {seen : List Obj} {x y : Obj} (hy : y.lookedUp? = some y) :
    (∃ z ∈ record seen x, z.pyEq y = true) ↔
      (∃ z ∈ seen, z.pyEq y = true) ∨ ∃ w, x.lookedUp? = some w ∧ w.pyEq y = true := by
  constructor
  · rintro ⟨z, hz, heq⟩
    rcases mem_record hz with hz | hz | ⟨-, htracked, rfl⟩
    · exact .inl ⟨z, hz, heq⟩
    · exact .inr ⟨z, hz, heq⟩
    · rw [pyEq_of_tracked htracked hy] at heq
      cases heq
  · rintro (⟨z, hz, heq⟩ | ⟨w, hw, heq⟩)
    · exact ⟨z, (prefix_record seen x).subset hz, heq⟩
    · -- recorded now, or an equal one was before
      cases hany : seen.any fun z ↦ z.pyEq w with
      | false =>
          refine ⟨w, ?_, heq⟩
          rw [record, hw]
          simp only [hany]
          exact List.mem_append_right _ (List.mem_singleton_self w)
      | true =>
          obtain ⟨z, hz, hzw⟩ := List.any_eq_true.mp hany
          exact ⟨z, (prefix_record seen x).subset hz,
            pyEq_trans (lookedUp_lookedUp hw).1 hy hzw heq⟩

/-- What is looked up is found in the table exactly if a scalar before it equals it. -/
theorem any_recordAll {seen xs : List Obj} {y : Obj} (hy : y.lookedUp? = some y) :
    (∃ z ∈ recordAll seen xs, z.pyEq y = true) ↔
      (∃ z ∈ seen, z.pyEq y = true) ∨
        ∃ x ∈ xs, ∃ w, x.lookedUp? = some w ∧ w.pyEq y = true := by
  induction xs generalizing seen with
  | nil => simp
  | cons x xs ih =>
      rw [show recordAll seen (x :: xs) = recordAll (record seen x) xs from rfl, ih,
        any_record hy, or_assoc]
      simp only [List.mem_cons, exists_eq_or_imp]

theorem length_record (before : List Obj) (x : Obj) :
    (record (recordAll [] before) x).length =
      (recordAll [] before).length + if takesPlace before x then 1 else 0 := by
  rw [record, takesPlace]
  cases hx : x.lookedUp? with
  | none =>
      cases x.tracked
      · rfl
      · exact List.length_append
  | some y =>
      have hany : ((recordAll [] before).any fun z ↦ z.pyEq y) =
          anyEqual before y := by
        rw [Bool.eq_iff_iff, anyEqual, List.any_eq_true, List.any_eq_true,
          any_recordAll (lookedUp_lookedUp hx).1]
        constructor
        · rintro (⟨z, hz, -⟩ | ⟨z, hz, w, hw, heq⟩)
          · cases hz
          · exact ⟨z, hz, by rw [hw]; exact heq⟩
        · rintro ⟨z, hz, heq⟩
          cases hw : z.lookedUp? with
          | none => rw [hw] at heq; cases heq
          | some w =>
              rw [hw] at heq
              exact .inr ⟨z, hz, w, hw, heq⟩
      simp only [hany]
      split
      · next hequal => simp [hequal]
      · next hequal => simp [hequal]

theorem length_recordAll_append (before xs : List Obj) :
    (recordAll [] (before ++ xs)).length =
      (recordAll [] before).length + placesBehind before xs := by
  induction xs generalizing before with
  | nil =>
      rw [List.append_nil]
      rfl
  | cons x xs ih =>
      rw [List.append_cons, ih, placesBehind, ← Nat.add_assoc, recordAll_append,
        recordAll_singleton, length_record]

/-- The length of the table. -/
theorem length_recordAll (xs : List Obj) : (recordAll [] xs).length = places xs := by
  have hlen := length_recordAll_append [] xs
  rwa [List.nil_append, recordAll_nil, List.length_nil, Nat.zero_add] at hlen

/-! ## The first zero under a tag -/

/-- Where the first zero under a tag stands in the table. -/
theorem findIdx_zero {before rest : List Obj} {x y : Obj} {tag : Nat} {s : Bool}
    (hx : x.zero? tag = some s) (hlooked : x.lookedUp? = some y)
    (hfirst : ∀ z ∈ before, z.zero? tag = Option.none) :
    (recordAll [] (before ++ x :: rest)).findIdx? (fun z ↦ (z.zero? tag).isSome) =
        some (places before) ∧
      (recordAll [] (before ++ x :: rest))[places before]? = some y := by
  have hy : y.zero? tag = some s := by rw [zero_lookedUp hlooked, hx]
  have hnone : ∀ z ∈ recordAll [] before, z.zero? tag = Option.none := by
    intro z hz
    cases hzero : z.zero? tag with
    | none => rfl
    | some s' =>
        obtain ⟨w, hw, hsign⟩ := zero_recordAll hz hzero
        rw [hfirst w hw] at hsign
        cases hsign
  have hany : ((recordAll [] before).any fun z ↦ z.pyEq y) = false := by
    refine List.any_eq_false.mpr fun z hz ↦ ?_
    rw [pyEq_of_zero hy (isPlainFloat_lookedUp hlooked) (isPlainFloat_recordAll hz), hnone z hz]
    exact nofun
  have hrecord : record (recordAll [] before) x = recordAll [] before ++ [y] := by
    rw [record, hlooked]
    simp only [hany]
    rfl
  obtain ⟨more, hmore⟩ := prefix_recordAll (recordAll [] before ++ [y]) rest
  have htable : recordAll [] (before ++ x :: rest) = recordAll [] before ++ ([y] ++ more) := by
    rw [recordAll_append, ← List.append_assoc, hmore, ← hrecord]
    rfl
  rw [htable, ← length_recordAll]
  constructor
  · rw [List.findIdx?_append, List.findIdx?_eq_none_iff.mpr fun z hz ↦ by rw [hnone z hz]; rfl]
    rw [List.singleton_append, List.findIdx?_cons, hy]
    simp
  · simp

/-- Without a zero under the tag before it, nothing in the table stands for a zero. -/
theorem findIdx_zero_of_none {xs : List Obj} {tag : Nat}
    (h : ∀ z ∈ xs, z.zero? tag = Option.none) :
    (recordAll [] xs).findIdx? (fun z ↦ (z.zero? tag).isSome) = Option.none := by
  refine List.findIdx?_eq_none_iff.mpr fun z hz ↦ ?_
  cases hzero : z.zero? tag with
  | none => rfl
  | some s =>
      obtain ⟨w, hw, hsign⟩ := zero_recordAll hz hzero
      rw [h w hw] at hsign
      cases hsign

/-- The zeros under a tag in a list, up to the first. -/
theorem first_zero (xs : List Obj) (tag : Nat) :
    (∀ z ∈ xs, z.zero? tag = Option.none) ∨
      ∃ before x rest s, xs = before ++ x :: rest ∧ (∀ z ∈ before, z.zero? tag = Option.none) ∧
        x.zero? tag = some s := by
  induction xs with
  | nil => exact .inl fun _ h ↦ nomatch h
  | cons w xs ih =>
      cases hw : w.zero? tag with
      | some s => exact .inr ⟨[], w, xs, s, rfl, fun _ h ↦ (nomatch h), hw⟩
      | none =>
          rcases ih with hnone | ⟨before, x, rest, s, rfl, hbefore, hx⟩
          · exact .inl (List.forall_mem_cons.mpr ⟨hw, hnone⟩)
          · exact .inr ⟨w :: before, x, rest, s, rfl,
              List.forall_mem_cons.mpr ⟨hw, hbefore⟩, hx⟩

/-- The place that is looked up for a zero is that of the first zero under its tag. -/
theorem findIdx_pyEq {xs : List Obj} {y : Obj} {tag : Nat} {s : Bool}
    (hy : y.zero? tag = some s) (hplain : y.isPlainFloat = false) :
    (recordAll [] xs).findIdx? (fun z ↦ z.pyEq y) =
      (recordAll [] xs).findIdx? fun z ↦ (z.zero? tag).isSome := by
  have hall : ∀ z ∈ recordAll [] xs, z.pyEq y = (z.zero? tag).isSome :=
    fun z hz ↦ pyEq_of_zero hy hplain (isPlainFloat_recordAll hz)
  generalize recordAll [] xs = table at hall ⊢
  induction table with
  | nil => rfl
  | cons z zs ih =>
      rw [List.findIdx?_cons, List.findIdx?_cons, hall z (List.mem_cons_self ..),
        ih fun w hw ↦ hall w (List.mem_cons_of_mem _ hw)]

/-! ## Messages that keep their floats -/

/-- Every scalar behind the ones in the table is received as it is alone. -/
def Transparent (seen : List Obj) : List Obj → Prop
  | [] => True
  | x :: xs => receivedScalar seen x = x.alone ∧ Transparent (record seen x) xs

theorem transparent_append {seen xs ys : List Obj} :
    Transparent seen (xs ++ ys) ↔ Transparent seen xs ∧ Transparent (recordAll seen xs) ys := by
  induction xs generalizing seen with
  | nil => simp [Transparent]
  | cons x xs ih =>
      rw [List.cons_append, Transparent, Transparent, ih, and_assoc]
      rfl

theorem transparent_iff {seen xs : List Obj} :
    Transparent seen xs ↔ ∀ before y after, xs = before ++ y :: after →
      receivedScalar (recordAll seen before) y = y.alone := by
  constructor
  · rintro h before y after rfl
    exact (transparent_append.mp h).2.1
  · intro h
    induction xs generalizing seen with
    | nil => trivial
    | cons x xs ih =>
        refine ⟨h [] x xs rfl, ih ?_⟩
        rintro before y after rfl
        exact h (x :: before) y after rfl

/-- No zero has the other sign than the first one under its tag, if that one has one of the
48 places that can be referred to. -/
def ZerosAgree (xs : List Obj) : Prop :=
  ∀ before x mid y after, xs = before ++ x :: (mid ++ y :: after) → places before ≤ 47 →
    ∀ tag s s', (∀ z ∈ before, z.zero? tag = Option.none) → x.zero? tag = some s →
      y.zero? tag = some s' → s = s'

theorem receivedScalar_lookedUp {x y : Obj} (h : x.lookedUp? = some y) (seen : List Obj) :
    receivedScalar seen x = (standIn seen y).alone := by
  rw [receivedScalar, h]

/-- A scalar that is no zero is received as it is. -/
theorem receivedScalar_of_zero {y : Obj} (h : ∀ tag, y.zero? tag = Option.none)
    (seen : List Obj) : receivedScalar seen y = y.alone := by
  rw [receivedScalar]
  split
  · next w hlooked =>
    rw [← alone_lookedUp hlooked]
    rcases standIn_cases seen w with hself | ⟨z, -, hpyEq, hother⟩
    · rw [hself]
    · rw [hother]
      refine alone_of_pyEq_of_zero (lookedUp_lookedUp hlooked).1 (fun tag ↦ ?_) hpyEq
      rw [zero_lookedUp hlooked, h]
  · rfl

/-- A zero is received as the first zero under its tag, if that can be referred to. -/
theorem receivedScalar_zero {before rest : List Obj} {x y : Obj} {tag : Nat} {s s' : Bool}
    (hfirst : ∀ z ∈ before, z.zero? tag = Option.none) (hx : x.zero? tag = some s)
    (hy : y.zero? tag = some s') :
    receivedScalar (recordAll [] (before ++ x :: rest)) y =
      .float (.zero (if places before ≤ 47 then s else s')) := by
  obtain ⟨x', hx'⟩ := lookedUp_of_zero hx
  obtain ⟨y', hy'⟩ := lookedUp_of_zero hy
  have hzero' : y'.zero? tag = some s' := by rw [zero_lookedUp hy', hy]
  obtain ⟨hfind, hget⟩ := findIdx_zero hx hx' hfirst
  rw [receivedScalar_lookedUp hy', standIn, findIdx_pyEq hzero' (isPlainFloat_lookedUp hy'), hfind]
  show (if places before ≤ 47 then _ else y').alone = _
  split
  · rw [List.getD_eq_getElem?_getD, hget]
    exact alone_zero (x := x') (by rw [zero_lookedUp hx', hx])
  · exact alone_zero hzero'

/-- A zero without one under its tag before it is received as it is. -/
theorem receivedScalar_first_zero {xs : List Obj} {y : Obj} {tag : Nat} {s : Bool}
    (hnone : ∀ z ∈ xs, z.zero? tag = Option.none) (hy : y.zero? tag = some s) :
    receivedScalar (recordAll [] xs) y = y.alone := by
  obtain ⟨y', hy'⟩ := lookedUp_of_zero hy
  have hzero' : y'.zero? tag = some s := by rw [zero_lookedUp hy', hy]
  rw [receivedScalar_lookedUp hy', standIn, findIdx_pyEq hzero' (isPlainFloat_lookedUp hy'),
    findIdx_zero_of_none hnone]
  exact alone_lookedUp hy'

theorem transparent_iff_zerosAgree {xs : List Obj} : Transparent [] xs ↔ ZerosAgree xs := by
  rw [transparent_iff]
  constructor
  · rintro h before x mid y after rfl hplaces tag s s' hfirst hx hy
    have hreceived := h (before ++ x :: mid) y after (by simp)
    rw [receivedScalar_zero hfirst hx hy, if_pos hplaces, alone_zero hy] at hreceived
    exact Float64.zero_inj (Obj.float.inj hreceived)
  · rintro h before y after rfl
    by_cases hzero : ∃ tag s, y.zero? tag = some s
    · obtain ⟨tag, s, hy⟩ := hzero
      rcases first_zero before tag with hnone | ⟨before, x, mid, s', rfl, hfirst, hx⟩
      · exact receivedScalar_first_zero hnone hy
      · rw [receivedScalar_zero hfirst hx hy, alone_zero hy]
        split
        · next hplaces =>
          rw [h before x mid y after (by simp) hplaces tag s' s hfirst hx hy]
        · rfl
    · refine receivedScalar_of_zero (fun tag ↦ ?_) _
      cases hy : y.zero? tag with
      | none => rfl
      | some s => exact absurd ⟨tag, s, hy⟩ hzero

/-! ## What is received -/

/-- A message whose scalars are received as they are is received as it is. -/
theorem received_of_transparent (v : Obj) {seen : List Obj} (h : Transparent seen v.leaves) :
    received seen v = v.alone := by
  induction v using containers generalizing seen with
  | scalar x hx =>
      rw [leaves_scalar hx] at h
      rw [received_scalar hx]
      exact h.1
  | seq k xs ih =>
      rw [leaves] at h
      rw [received, alone]
      refine congrArg Obj.list ?_
      induction xs generalizing seen with
      | nil => rw [receivedList]; rfl
      | cons x xs ihxs =>
          rw [leavesList] at h
          obtain ⟨hx, hxs⟩ := transparent_append.mp h
          rw [receivedList, aloneList, ih x (List.mem_cons_self ..) hx,
            ihxs (fun y hy ↦ ih y (List.mem_cons_of_mem _ hy)) hxs]
  | dict items ihk ihv =>
      rw [leaves] at h
      rw [received, alone]
      refine congrArg Obj.dict ?_
      generalize ([] : List (Obj × Obj)) = acc
      induction items generalizing seen acc with
      | nil => rw [receivedItems]; rfl
      | cons item items ih =>
          obtain ⟨k, v⟩ := item
          rw [leavesItems] at h
          obtain ⟨hk, h⟩ := transparent_append.mp h
          obtain ⟨hv, hitems⟩ := transparent_append.mp h
          rw [receivedItems, aloneItems, ihk _ (List.mem_cons_self ..) hk,
            ihv _ (List.mem_cons_self ..) hv]
          exact ih (fun p hp ↦ ihk p (List.mem_cons_of_mem _ hp))
            (fun p hp ↦ ihv p (List.mem_cons_of_mem _ hp)) hitems _

/-! ### Keys -/

/-- The zeros equal the same objects. -/
theorem zero_pyEq (s s' : Bool) (w : Obj) :
    (Obj.float (.zero s)).pyEq w = (Obj.float (.zero s')).pyEq w := by
  cases w with
  | bool | int =>
      simp only [pyEq, Float64.zero_eqInt]
  | float x =>
      simp only [pyEq, Float64.zero_eq]
  | _ => rfl

theorem pyEq_zero (s s' : Bool) (w : Obj) :
    w.pyEq (.float (.zero s)) = w.pyEq (.float (.zero s')) := by
  cases w with
  | bool | int =>
      simp only [pyEq, Float64.zero_eqInt]
  | float x =>
      simp only [pyEq, Float64.eq_comm x, Float64.zero_eq]
  | _ => rfl

/-- A scalar is received as it is, or as the other zero. -/
theorem receivedScalar_cases (seen : List Obj) (x : Obj) :
    receivedScalar seen x = x.alone ∨
      ∃ s s', receivedScalar seen x = .float (.zero s) ∧ x.alone = .float (.zero s') := by
  by_cases hzero : ∃ tag s, x.zero? tag = some s
  · obtain ⟨tag, s, hx⟩ := hzero
    obtain ⟨y, hy⟩ := lookedUp_of_zero hx
    have hyzero : y.zero? tag = some s := by rw [zero_lookedUp hy, hx]
    rw [receivedScalar_lookedUp hy]
    rcases standIn_cases seen y with hself | ⟨z, -, hpyEq, hother⟩
    · exact .inl (by rw [hself]; exact alone_lookedUp hy)
    · have hz : z.isPlainFloat = false := by
        cases z with
        | float =>
            cases y with
            | float => cases isPlainFloat_lookedUp hy
            | float32 | float64 | date => cases hpyEq
            | _ => cases hyzero
        | _ => rfl
      rw [pyEq_of_zero hyzero (isPlainFloat_lookedUp hy) hz] at hpyEq
      obtain ⟨s', hs'⟩ := Option.isSome_iff_exists.mp hpyEq
      exact .inr ⟨s', s, by rw [hother]; exact alone_zero hs', alone_zero hx⟩
  · refine .inl (receivedScalar_of_zero (fun tag ↦ ?_) _)
    cases hx : x.zero? tag with
    | none => rfl
    | some s => exact absurd ⟨tag, s, hx⟩ hzero

/-- As a key, a scalar is received as one that equals the same keys. -/
theorem received_pyEq {k : Obj} (hk : k.isContainer = false) (seen : List Obj) (w : Obj) :
    (received seen k).pyEq w = k.alone.pyEq w := by
  rw [received_scalar hk]
  rcases receivedScalar_cases seen k with h | ⟨s, s', h, halone⟩
  · rw [h]
  · rw [h, halone]
    exact zero_pyEq s s' w

theorem pyEq_received {k : Obj} (hk : k.isContainer = false) (seen : List Obj) (w : Obj) :
    w.pyEq (received seen k) = w.pyEq k.alone := by
  rw [received_scalar hk]
  rcases receivedScalar_cases seen k with h | ⟨s, s', h, halone⟩
  · rw [h]
  · rw [h, halone]
    exact pyEq_zero s s' w

/-- The keys of every dictionary stay different once they are decoded. -/
inductive DistinctKeys : Obj → Prop
  | scalar (x : Obj) (hx : x.isContainer = false) : DistinctKeys x
  | seq (k : SeqKind) (xs : List Obj) (elems : ∀ x ∈ xs, DistinctKeys x) :
      DistinctKeys (.seq k xs)
  | dict (items : List (Obj × Obj)) (keys : ∀ p ∈ items, DistinctKeys p.1)
      (values : ∀ p ∈ items, DistinctKeys p.2)
      (distinct : items.Pairwise fun p q ↦ p.1.alone.pyEq q.1.alone = false) :
      DistinctKeys (.dict items)

theorem unreadableList_eq_false {xs : List Obj} :
    unreadableList xs = false ↔ ∀ x ∈ xs, x.unreadable = false := by
  induction xs with
  | nil => simp [unreadableList]
  | cons x xs ih => simp [unreadableList, ih]

theorem unreadableItems_eq_false {items : List (Obj × Obj)} :
    unreadableItems items = false ↔ ∀ p ∈ items,
      p.1.unreadable = false ∧ p.2.unreadable = false ∧ p.1.isContainer = false := by
  induction items with
  | nil => simp [unreadableItems]
  | cons p items ih => simp [unreadableItems, ih, and_assoc]

/-- The entries of a dictionary whose keys stay different, from those read before on. -/
theorem transparent_of_receivedItems {items : List (Obj × Obj)}
    (hscalar : ∀ p ∈ items, p.1.isContainer = false)
    (hks : ∀ p ∈ items, ∀ seen, received seen p.1 = p.1.alone → Transparent seen p.1.leaves)
    (hvs : ∀ p ∈ items, ∀ seen, received seen p.2 = p.2.alone → Transparent seen p.2.leaves)
    (hdistinct : items.Pairwise fun p q ↦ p.1.alone.pyEq q.1.alone = false)
    {seen : List Obj} {acc acc' : List (Obj × Obj)} (hlen : acc.length = acc'.length)
    (hacc : ∀ p ∈ acc, ∀ q ∈ items, p.1.pyEq q.1.alone = false)
    (hacc' : ∀ p ∈ acc', ∀ q ∈ items, p.1.pyEq q.1.alone = false)
    (h : receivedItems seen acc items = aloneItems acc' items) :
    acc = acc' ∧ Transparent seen (leavesItems items) := by
  induction items generalizing seen acc acc' with
  | nil =>
      rw [receivedItems, aloneItems] at h
      exact ⟨h, trivial⟩
  | cons item items ih =>
      obtain ⟨k, v⟩ := item
      obtain ⟨hnew, hdistinct⟩ := List.pairwise_cons.mp hdistinct
      have hk : k.isContainer = false := hscalar _ (List.mem_cons_self ..)
      rw [receivedItems, aloneItems,
        setItem_of_forall_ne fun p hp ↦ by
          rw [pyEq_received hk]
          exact hacc p hp _ (List.mem_cons_self ..),
        setItem_of_forall_ne fun p hp ↦ hacc' p hp _ (List.mem_cons_self ..)] at h
      have hext : ∀ {acc : List (Obj × Obj)} {p : Obj × Obj},
          (∀ p ∈ acc, ∀ q ∈ (k, v) :: items, p.1.pyEq q.1.alone = false) →
          (∀ w, p.1.pyEq w = k.alone.pyEq w) →
          ∀ p' ∈ acc ++ [p], ∀ q ∈ items, p'.1.pyEq q.1.alone = false := by
        intro acc p hacc hp p' hp' q hq
        rcases List.mem_append.mp hp' with hp' | hp'
        · exact hacc p' hp' q (List.mem_cons_of_mem _ hq)
        · rw [List.mem_singleton.mp hp', hp]
          exact hnew q hq
      obtain ⟨heq, hitems⟩ := ih (fun p hp ↦ hscalar p (List.mem_cons_of_mem _ hp))
        (fun p hp ↦ hks p (List.mem_cons_of_mem _ hp))
        (fun p hp ↦ hvs p (List.mem_cons_of_mem _ hp)) hdistinct
        (by rw [List.length_append, List.length_append, hlen]; rfl)
        (hext hacc (received_pyEq hk seen)) (hext hacc' fun _ ↦ rfl) h
      obtain ⟨hacceq, hentry⟩ := List.append_inj heq hlen
      obtain ⟨hkey, hvalue⟩ := Prod.mk.inj (List.cons.inj hentry).1
      refine ⟨hacceq, ?_⟩
      rw [leavesItems]
      exact transparent_append.mpr ⟨hks _ (List.mem_cons_self ..) seen hkey,
        transparent_append.mpr ⟨hvs _ (List.mem_cons_self ..) _ hvalue, hitems⟩⟩

/-- A message that is received as it is has scalars that are, if its keys stay different. -/
theorem transparent_of_received {v : Obj} (hkeys : v.DistinctKeys) (hread : v.unreadable = false)
    {seen : List Obj} (h : received seen v = v.alone) : Transparent seen v.leaves := by
  induction hkeys generalizing seen with
  | scalar x hx =>
      rw [leaves_scalar hx]
      rw [received_scalar hx] at h
      exact ⟨h, trivial⟩
  | seq k xs elems ih =>
      rw [unreadable] at hread
      rw [received, alone] at h
      rw [leaves]
      have hlist := (Obj.seq.inj h).2
      have hread := unreadableList_eq_false.mp hread
      clear h elems
      induction xs generalizing seen with
      | nil => trivial
      | cons x xs ihxs =>
          rw [receivedList, aloneList] at hlist
          obtain ⟨hx, hxs⟩ := List.cons.inj hlist
          rw [leavesList]
          exact transparent_append.mpr
            ⟨ih x (List.mem_cons_self ..) (hread x (List.mem_cons_self ..)) hx,
              ihxs (fun y hy ↦ ih y (List.mem_cons_of_mem _ hy))
                (unreadableList_eq_false.mpr fun y hy ↦ hread y (List.mem_cons_of_mem _ hy)) hxs
                fun y hy ↦ hread y (List.mem_cons_of_mem _ hy)⟩
  | dict items keys values distinct ihk ihv =>
      rw [unreadable] at hread
      rw [received, alone] at h
      rw [leaves]
      have hread := unreadableItems_eq_false.mp hread
      exact (transparent_of_receivedItems (fun p hp ↦ (hread p hp).2.2)
        (fun p hp seen ↦ ihk p hp (hread p hp).1) (fun p hp seen ↦ ihv p hp (hread p hp).2.1)
        distinct rfl (List.forall_mem_nil _) (List.forall_mem_nil _) (Obj.dict.inj h)).2

end Obj

namespace Hds

open Obj

/-! ## Transparency -/

/-- A message is decoded as if each scalar had been written alone, if the decoder can read it
and its zeros agree. -/
theorem decode_alone {v : Obj} {b : Bytes} (hb : encode v = .ok b) (hread : v.unreadable = false)
    (hzeros : ZerosAgree v.leaves) : decode b = .ok v.alone := by
  have hdecode := decode_of_encode hb
  rw [hread] at hdecode
  rw [← received_of_transparent v (transparent_iff_zerosAgree.mpr hzeros)]
  exact hdecode

/-- **Compression is transparent for the floats of a message exactly when its zeros agree**, for
messages that the decoder can read and whose keys stay different; for any other message that
can be read it is transparent at least then. -/
theorem decode_alone_iff (v : Obj) (b : Bytes) (hb : encode v = .ok b) :
    (v.unreadable = false ∧ ZerosAgree v.leaves → decode b = .ok v.alone) ∧
      (v.DistinctKeys →
        (decode b = .ok v.alone ↔ v.unreadable = false ∧ ZerosAgree v.leaves)) := by
  have henough : v.unreadable = false ∧ ZerosAgree v.leaves → decode b = .ok v.alone :=
    fun h ↦ decode_alone hb h.1 h.2
  refine ⟨henough, fun hkeys ↦ ⟨fun h ↦ ?_, henough⟩⟩
  have hdecode := decode_of_encode hb
  cases hread : v.unreadable with
  | true =>
      rw [hread] at hdecode
      obtain ⟨err, herr⟩ := hdecode
      cases herr.symm.trans h
  | false =>
      rw [hread] at hdecode
      have hreceived : received [] v = v.alone := Except.ok.inj (hdecode.symm.trans h)
      exact ⟨rfl, transparent_iff_zerosAgree.mp (transparent_of_received hkeys hread hreceived)⟩

/-- Zeros of one sign under each tag. -/
def agreeingZeros : Obj :=
  .list [.float64 (.zero true), .float (.zero true), .float32 (.zero false), .date (.zero true)]

theorem decode_alone_iff_agreeingZeros :
    decode [0xD4, 0x36, 0, 0, 0, 0, 0, 0, 0, 0x80, 0xA0, 0x35, 0, 0, 0, 0,
        0x06, 0, 0, 0, 0, 0, 0, 0, 0x80] =
      .ok (.list [.float (.zero true), .float (.zero true), .float (.zero false),
        .float (.zero true)]) :=
  (decode_alone_iff agreeingZeros _ (by decide +kernel)).1
    ⟨rfl, transparent_iff_zerosAgree.mp ⟨rfl, rfl, rfl, rfl, trivial⟩⟩

/-- Of two zeros under one tag, the second is received as the first. -/
def opposedZeros : Obj := .list [.float64 (.zero false), .float64 (.zero true)]

theorem not_decode_alone_opposedZeros :
    encode opposedZeros = .ok [0xD2, 0x36, 0, 0, 0, 0, 0, 0, 0, 0, 0xA0] ∧
      decode [0xD2, 0x36, 0, 0, 0, 0, 0, 0, 0, 0, 0xA0] =
        .ok (.list [.float (.zero false), .float (.zero false)]) ∧
      opposedZeros.alone = .list [.float (.zero false), .float (.zero true)] ∧
      Float64.zero false ≠ Float64.zero true :=
  ⟨by decide +kernel, rfl, rfl, by decide⟩

end Hds

end AtvRemote
