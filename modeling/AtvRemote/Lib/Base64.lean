import AtvRemote.Lib.Bytes

/-!
# Base64

`base64.b64encode`, and `base64.b64decode` with `validate=True`: groups of four
characters of the alphabet, where only the last group may end in one or two `=`.  As in
the original, the bits of a last character that no byte takes are not looked at, and any
number of `=` is skipped behind groups that are whole, but not in front of all groups.
-/

namespace Lib.Base64

/-- The character of six bits. -/
def digit (n : Nat) : Char :=
  if n < 26 then Char.ofNat (65 + n)
  else if n < 52 then Char.ofNat (97 + (n - 26))
  else if n < 62 then Char.ofNat (48 + (n - 52))
  else if n = 62 then '+' else '/'

/-- The six bits of a character, if it is in the alphabet. -/
def digit? (c : Char) : Option Nat :=
  if c.isUpper then some (c.toNat - 65)
  else if c.isLower then some (c.toNat - 97 + 26)
  else if c.isDigit then some (c.toNat - 48 + 52)
  else if c = '+' then some 62
  else if c = '/' then some 63
  else none

/-- `base64.b64encode` -/
def encode : Bytes → List Char
  | [] => []
  | [a] =>
      let n := a.toNat * 16
      [digit (n / 64), digit (n % 64), '=', '=']
  | [a, b] =>
      let n := (a.toNat * 256 + b.toNat) * 4
      [digit (n / 4096), digit (n / 64 % 64), digit (n % 64), '=']
  | a :: b :: c :: rest =>
      let n := (a.toNat * 256 + b.toNat) * 256 + c.toNat
      digit (n / 262144) :: digit (n / 4096 % 64) :: digit (n / 64 % 64) :: digit (n % 64) ::
        encode rest

/-- The groups of `base64.b64decode(s, validate=True)`, `none` when it raises. -/
def decodeGroups : List Char → Option Bytes
  | [] => some []
  -- whole groups are read, and nothing is due any more
  | '=' :: rest => if rest.all (· == '=') then some [] else none
  | [x, y, '=', '='] => do
      let n := (← digit? x) * 64 + (← digit? y)
      return [UInt8.ofNat (n / 16)]
  | [x, y, z, '='] => do
      let n := ((← digit? x) * 64 + (← digit? y)) * 64 + (← digit? z)
      return [UInt8.ofNat (n / 1024), UInt8.ofNat (n / 4)]
  | x :: y :: z :: w :: rest => do
      let n := (((← digit? x) * 64 + (← digit? y)) * 64 + (← digit? z)) * 64 + (← digit? w)
      return UInt8.ofNat (n / 65536) :: UInt8.ofNat (n / 256) :: UInt8.ofNat n ::
        (← decodeGroups rest)
  | _ => none

/-- `base64.b64decode(s, validate=True)`, `none` when it raises. -/
def decode (s : List Char) : Option Bytes :=
  if s.head? = some '=' then none else decodeGroups s

/-! ## What is encoded can be decoded -/

/-- A character of the alphabet has the bits that it was made of. -/
theorem digit?_digit {n : Nat} (h : n < 64) : digit? (digit n) = some n := by
  have hall : ∀ m : Fin 64, digit? (digit m.val) = some m.val := by decide
  exact hall ⟨n, h⟩

/-- The padding is not in the alphabet. -/
theorem digit_ne_pad {n : Nat} (h : n < 64) : digit n ≠ '=' := by
  intro heq
  have hdigit := digit?_digit h
  rw [heq] at hdigit
  cases hdigit

/-- A last group of one byte. -/
theorem decodeGroups_one {i j : Nat} (hi : i < 64) (hj : j < 64) :
    decodeGroups [digit i, digit j, '=', '='] = some [UInt8.ofNat ((i * 64 + j) / 16)] := by
  rw [decodeGroups]
  · rw [digit?_digit hi, digit?_digit hj]
    rfl
  · exact digit_ne_pad hi

/-- A last group of two bytes. -/
theorem decodeGroups_two {i j k : Nat} (hi : i < 64) (hj : j < 64) (hk : k < 64) :
    decodeGroups [digit i, digit j, digit k, '='] =
      some [UInt8.ofNat (((i * 64 + j) * 64 + k) / 1024),
        UInt8.ofNat (((i * 64 + j) * 64 + k) / 4)] := by
  rw [decodeGroups]
  · rw [digit?_digit hi, digit?_digit hj, digit?_digit hk]
    rfl
  · exact digit_ne_pad hi
  · exact digit_ne_pad hk

/-- A group without padding. -/
theorem decodeGroups_group {i j k l : Nat} (hi : i < 64) (hj : j < 64) (hk : k < 64) (hl : l < 64)
    (rest : List Char) :
    decodeGroups (digit i :: digit j :: digit k :: digit l :: rest) =
      (decodeGroups rest).map fun b ↦
        UInt8.ofNat ((((i * 64 + j) * 64 + k) * 64 + l) / 65536) ::
          UInt8.ofNat ((((i * 64 + j) * 64 + k) * 64 + l) / 256) ::
            UInt8.ofNat (((i * 64 + j) * 64 + k) * 64 + l) :: b := by
  rw [decodeGroups]
  · rw [digit?_digit hi, digit?_digit hj, digit?_digit hk, digit?_digit hl]
    cases decodeGroups rest <;> rfl
  · exact digit_ne_pad hi
  · exact fun _ h _ ↦ digit_ne_pad hl h
  · exact fun h _ ↦ digit_ne_pad hl h

theorem decodeGroups_encode (b : Bytes) : decodeGroups (encode b) = some b := by
  have hbyte : ∀ (x : UInt8) (n : Nat), n % 256 = x.toNat → UInt8.ofNat n = x := by
    intro x n hn
    apply UInt8.toNat_inj.mp
    rw [UInt8.toNat_ofNat', ← hn]
  induction b using encode.induct with
  | case1 => rfl
  | case2 a =>
      have ha := a.toNat_lt
      rw [encode, decodeGroups_one (by omega) (by omega), hbyte a _ (by omega)]
  | case3 a b =>
      have ha := a.toNat_lt
      have hb := b.toNat_lt
      rw [encode, decodeGroups_two (by omega) (by omega) (by omega), hbyte a _ (by omega),
        hbyte b _ (by omega)]
  | case4 a b c rest ih =>
      have ha := a.toNat_lt
      have hb := b.toNat_lt
      have hc := c.toNat_lt
      rw [encode, decodeGroups_group (by omega) (by omega) (by omega) (by omega), ih,
        Option.map_some, hbyte a _ (by omega), hbyte b _ (by omega), hbyte c _ (by omega)]

/-- No padding stands in front. -/
theorem head?_encode (b : Bytes) : (encode b).head? ≠ some '=' := by
  have hfirst : ∀ {n : Nat}, n < 64 → some (digit n) ≠ some '=' :=
    fun h heq ↦ digit_ne_pad h (Option.some.inj heq)
  cases b using encode.fun_cases with
  | case1 => rintro ⟨⟩
  | case2 a =>
      have ha := a.toNat_lt
      rw [encode]
      exact hfirst (by omega)
  | case3 a b =>
      have ha := a.toNat_lt
      have hb := b.toNat_lt
      rw [encode]
      exact hfirst (by omega)
  | case4 a b c rest =>
      have ha := a.toNat_lt
      have hb := b.toNat_lt
      have hc := c.toNat_lt
      rw [encode]
      exact hfirst (by omega)

/-- **`b64decode` undoes `b64encode`.** -/
theorem decode_encode (b : Bytes) : decode (encode b) = some b := by
  rw [decode, if_neg (head?_encode b), decodeGroups_encode]

example : encode [1, 2, 3, 4] = "AQIDBA==".toList := by decide
example : decode "AQIDBA==".toList = some [1, 2, 3, 4] := by decide

/-- Padding behind whole groups is skipped, and behind a padded group it is not. -/
example : decode "AQIDBAUG==".toList = some [1, 2, 3, 4, 5, 6] ∧ decode "AQIDBA===".toList = none ∧
    decode "====".toList = none := by decide

end Lib.Base64
