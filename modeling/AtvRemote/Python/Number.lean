import AtvRemote.Lib.PyStr

/-!
# Python numbers: integer literals and floats

* `intOfStr` is `int(s, base)` on a string: surrounding whitespace, a sign, an
  optional `0x` in base 16, digits with single underscores between them, and the
  limit of 4300 digits on bases that are not a power of two.  Any Unicode decimal
  digit counts, as does any Unicode whitespace.
* A Python `float` is its IEEE 754 binary64 bit pattern (`Float64`).  The operations
  here are the ones the program uses: `==`, `int()`, truthiness and the conversions of
  `struct` to and from 4 and 8 bytes.
-/

namespace AtvRemote

open Lib

/-! ## Integer literals -/

/-- The code points of the digit zero of every Unicode decimal digit system outside
ASCII. -/
def decimalZeros : List Nat :=
  [0x660, 0x6f0, 0x7c0, 0x966, 0x9e6, 0xa66, 0xae6, 0xb66, 0xbe6, 0xc66, 0xce6, 0xd66, 0xde6,
    0xe50, 0xed0, 0xf20, 0x1040, 0x1090, 0x17e0, 0x1810, 0x1946, 0x19d0, 0x1a80, 0x1a90, 0x1b50,
    0x1bb0, 0x1c40, 0x1c50, 0xa620, 0xa8d0, 0xa900, 0xa9d0, 0xa9f0, 0xaa50, 0xabf0, 0xff10,
    0x104a0, 0x10d30, 0x11066, 0x110f0, 0x11136, 0x111d0, 0x112f0, 0x11450, 0x114d0, 0x11650,
    0x116c0, 0x11730, 0x118e0, 0x11950, 0x11c50, 0x11d50, 0x11da0, 0x16a60, 0x16ac0, 0x16b50,
    0x1d7ce, 0x1d7d8, 0x1d7e2, 0x1d7ec, 0x1d7f6, 0x1e140, 0x1e2f0, 0x1e950, 0x1fbf0]

/-- Unicode whitespace outside ASCII. -/
def isUnicodeSpace (n : Nat) : Bool :=
  n == 0x85 || n == 0xa0 || n == 0x1680 || (0x2000 ≤ n && n ≤ 0x200a) || n == 0x2028 ||
    n == 0x2029 || n == 0x202f || n == 0x205f || n == 0x3000

/-- The ASCII character that `int()` reads a code point as: decimal digits and
whitespace are mapped to ASCII, anything else outside ASCII to a character that no
literal contains. -/
def asciiOfCodePoint (p : CodePoint) : Char :=
  let n := p.toNat
  if n < 127 then Char.ofNat n
  else if isUnicodeSpace n then ' '
  else match decimalZeros.find? fun z ↦ z ≤ n && n < z + 10 with
    | some z => Char.ofNat (48 + (n - z))
    | none => '?'

/-- ASCII whitespace. -/
def isAsciiSpace (c : Char) : Bool := c == ' ' || (9 ≤ c.toNat && c.toNat ≤ 13)

/-- The value of a digit in the given base. -/
def digitValue (base : Nat) (c : Char) : Option Nat :=
  let n := c.toNat
  let d := if c.isDigit then n - 48
    else if c.isLower then n - 97 + 10
    else if c.isUpper then n - 65 + 10
    else base
  if d < base then some d else none

/-- The digits of a literal, single underscores between them skipped. -/
def digitsOf (base : Nat) : List Char → Option (List Nat)
  | [] => none
  | [c] => (digitValue base c).map fun d ↦ [d]
  | c :: '_' :: cs => do
      let d ← digitValue base c
      let ds ← digitsOf base cs
      return d :: ds
  | c :: cs => do
      let d ← digitValue base c
      let ds ← digitsOf base cs
      return d :: ds

/-- The unsigned part of a literal. -/
def natOfAscii (base : Nat) (cs : List Char) : Option Nat := do
  let body := match base, cs with
    | 16, '0' :: x :: '_' :: rest => if x == 'x' || x == 'X' then rest else cs
    | 16, '0' :: x :: rest => if x == 'x' || x == 'X' then rest else cs
    | _, _ => cs
  let ds ← digitsOf base body
  if base == 10 && 4300 < ds.length then none
  else some (ds.foldl (fun n d ↦ n * base + d) 0)

/-- A literal with its whitespace and sign. -/
def intOfAscii (base : Nat) (cs : List Char) : Option Int :=
  let cs := ((cs.dropWhile isAsciiSpace).reverse.dropWhile isAsciiSpace).reverse
  match cs with
  | '-' :: cs => (natOfAscii base cs).map fun n ↦ -(n : Int)
  | '+' :: cs => (natOfAscii base cs).map Int.ofNat
  | cs => (natOfAscii base cs).map Int.ofNat

/-- `int(s, base)`, `none` when it raises `ValueError`. -/
def intOfStr (base : Nat) (s : PyStr) : Option Int := intOfAscii base (s.map asciiOfCodePoint)

/-- `int(b)` on bytes, `none` when it raises `ValueError`. -/
def intOfBytes (b : Bytes) : Option Int :=
  intOfAscii 10 (b.map fun x ↦ if x < 127 then Char.ofNat x.toNat else '?')

/-- `str(n)`. -/
def strOfInt (n : Int) : PyStr := PyStr.ofString n.repr

/-! ## Floats -/

/-- A Python `float`: its IEEE 754 binary64 bit pattern. -/
structure Float64 where
  /-- The bit pattern. -/
  bits : UInt64
deriving DecidableEq, Repr

namespace Float64

/-- The sign bit. -/
def negative (x : Float64) : Bool := 2 ^ 63 ≤ x.bits.toNat

/-- The biased exponent. -/
def exponent (x : Float64) : Nat := x.bits.toNat / 2 ^ 52 % 2048

/-- The fraction field. -/
def fraction (x : Float64) : Nat := x.bits.toNat % 2 ^ 52

def isNaN (x : Float64) : Bool := x.exponent == 2047 && x.fraction != 0

def isInf (x : Float64) : Bool := x.exponent == 2047 && x.fraction == 0

def isZero (x : Float64) : Bool := x.exponent == 0 && x.fraction == 0

/-- A finite float is `± mantissa * 2 ^ (scale - 1075)`. -/
def mantissa (x : Float64) : Nat := if x.exponent = 0 then x.fraction else x.fraction + 2 ^ 52

/-- The biased power of two of a finite float's mantissa. -/
def scale (x : Float64) : Nat := max x.exponent 1

/-- `x == y`: by value, so the two zeros are equal and a NaN equals nothing. -/
def eq (x y : Float64) : Bool :=
  !x.isNaN && !y.isNaN && (x.bits == y.bits || (x.isZero && y.isZero))

/-- The magnitude of a finite float, rounded towards zero. -/
def magnitude (x : Float64) : Nat :=
  if 1075 ≤ x.scale then x.mantissa * 2 ^ (x.scale - 1075)
  else x.mantissa / 2 ^ (1075 - x.scale)

/-- A finite float rounded towards zero. -/
def trunc (x : Float64) : Int := if x.negative then -(x.magnitude : Int) else x.magnitude

/-- A finite float is an integer. -/
def isInteger (x : Float64) : Bool :=
  1075 ≤ x.scale || x.mantissa % 2 ^ (1075 - x.scale) == 0

/-- `n == x` for an integer and a float. -/
def eqInt (x : Float64) (n : Int) : Bool :=
  !x.isNaN && !x.isInf && x.isInteger && x.trunc == n

/-- `struct.pack("<d", x)`. -/
def pack64 (x : Float64) : Bytes := toLE 8 x.bits.toNat

/-- `struct.unpack("<d", b)`. -/
def unpack64 (b : Bytes) : Float64 := ⟨UInt64.ofNat (ofLE b)⟩

/-- The binary32 mantissa of `m * 2 ^ (e - 1075)`, in units of `2 ^ (u - 1075)`, rounded
to nearest with ties to even. -/
def roundAt (m e u : Nat) : Nat :=
  if u ≤ e then m * 2 ^ (e - u)
  else
    let q := m / 2 ^ (u - e)
    let r := m % 2 ^ (u - e)
    let half := 2 ^ (u - e - 1)
    if half < r || (r == half && q % 2 == 1) then q + 1 else q

/-- `struct.pack("<f", x)`, `none` when it raises `OverflowError`. -/
def pack32 (x : Float64) : Option Bytes :=
  let sign := if x.negative then 2 ^ 31 else 0
  if x.isNaN then some (toLE 4 (sign + 0x7FC00000 + x.fraction / 2 ^ 29 % 2 ^ 22))
  else if x.isInf then some (toLE 4 (sign + 0x7F800000))
  else if x.mantissa = 0 then some (toLE 4 sign)
  else
    -- the unit in the last place of the result, biased by 1075: `2 ^ -149` at least
    let u := max (x.scale + x.mantissa.log2 - 23) (1075 - 149)
    let word := (u - (1075 - 149)) * 2 ^ 23 + roundAt x.mantissa x.scale u
    if word < 0x7F800000 then some (toLE 4 (sign + word)) else none

/-- `struct.unpack("<f", b)`. -/
def unpack32 (b : Bytes) : Float64 :=
  let n := ofLE b
  let sign := if 2 ^ 31 ≤ n then 2 ^ 63 else 0
  let e := n / 2 ^ 23 % 256
  let f := n % 2 ^ 23
  let m := if e = 0 then f else f + 2 ^ 23
  if e = 255 then
    let quiet := if f = 0 then 0 else 2 ^ 51
    ⟨UInt64.ofNat (sign + 2047 * 2 ^ 52 + (quiet ||| f * 2 ^ 29))⟩
  else if m = 0 then ⟨UInt64.ofNat sign⟩
  else
    -- normalise the mantissa to 53 bits
    let field := max e 1 + m.log2 + (1075 - 150) - 52
    ⟨UInt64.ofNat (sign + field * 2 ^ 52 + (m * 2 ^ (52 - m.log2) - 2 ^ 52))⟩

end Float64

end AtvRemote
