import AtvRemote.Python.Number

/-!
# `uuid.UUID`

`uuidOfStr` is `uuid.UUID(hex)`: the prefixes `urn:` and `uuid:` and all dashes are
deleted, braces are stripped, and what is left must be 32 characters that `int(_, 16)`
reads as a 128-bit number.  `strOfUuid` is `str` of the UUID with the given 16 bytes.
-/

namespace AtvRemote

open Lib

/-- `s.replace(sub, "")` for a nonempty `sub`; `skip` code points of the current
occurrence are still to be dropped. -/
def removeFrom (sub : PyStr) : Nat → PyStr → PyStr
  | _, [] => []
  | skip + 1, _ :: s => removeFrom sub skip s
  | 0, p :: s =>
      if sub.isPrefixOf (p :: s) then removeFrom sub (sub.length - 1) s
      else p :: removeFrom sub 0 s

/-- `s.replace(sub, "")`. -/
def removeAll (sub s : PyStr) : PyStr := removeFrom sub 0 s

/-- `s.strip("{}")`. -/
def stripBraces (s : PyStr) : PyStr :=
  let brace := fun p ↦ p == CodePoint.char '{' || p == CodePoint.char '}'
  ((s.dropWhile brace).reverse.dropWhile brace).reverse

/-- `uuid.UUID(s).bytes`, `none` when the constructor raises `ValueError`. -/
def uuidOfStr (s : PyStr) : Option Bytes := do
  let hex := removeAll (.ofString "uuid:") (removeAll (.ofString "urn:") s)
  let hex := removeAll (.ofString "-") (stripBraces hex)
  if hex.length ≠ 32 then none
  else
    let n ← intOfStr 16 hex
    if 0 ≤ n ∧ n < 2 ^ 128 then some (toBE 16 n.toNat) else none

/-- The two lower-case hexadecimal digits of a byte. -/
def hexOfByte (b : UInt8) : PyStr :=
  [.char (Nat.digitChar (b.toNat / 16)), .char (Nat.digitChar (b.toNat % 16))]

/-- `str(uuid.UUID(bytes=b))`. -/
def strOfUuid (b : Bytes) : PyStr :=
  let hex := b.flatMap hexOfByte
  let dash := [CodePoint.char '-']
  hex.take 8 ++ dash ++ (hex.drop 8).take 4 ++ dash ++ (hex.drop 12).take 4 ++ dash ++
    (hex.drop 16).take 4 ++ dash ++ hex.drop 20

/-- A UUID has 16 bytes. -/
theorem length_of_uuidOfStr {s : PyStr} {b : Bytes} (h : uuidOfStr s = some b) :
    b.length = 16 := by
  simp only [uuidOfStr, Option.bind_eq_bind] at h
  split at h
  · cases h
  · obtain ⟨n, -, hn⟩ := Option.bind_eq_some_iff.mp h
    split at hn
    · rw [← Option.some.inj hn, length_toBE]
    · cases hn

end AtvRemote
