import AtvRemote.Lib.Bytes

/-!
# Python strings

A Python `str` is a sequence of code points, lone surrogates included; a Lean
`String` excludes them, so the two are not the same type.  What depends on the
difference is encoding: `str.encode("utf-8")` raises exactly on a string with a
surrogate, and `bytes.decode("utf-8")` raises exactly on what is not the encoding of
a surrogate-free string.

The UTF-8 tables themselves are Lean's: `String.utf8EncodeChar` and
`ByteArray.utf8Decode?`, whose round trip is in the core library.
-/

namespace Lib

/-- A Python code point: a Unicode scalar value or one of the 2048 surrogates. -/
inductive CodePoint where
  /-- A Unicode scalar value. -/
  | char (c : Char)
  /-- The surrogate `0xD800 + n`. -/
  | surrogate (n : Fin 2048)
deriving DecidableEq, Repr

namespace CodePoint

/-- The number of a code point. -/
def toNat : CodePoint → Nat
  | .char c => c.toNat
  | .surrogate n => 0xD800 + n

/-- The scalar value, if the code point is not a surrogate. -/
def char? : CodePoint → Option Char
  | .char c => some c
  | .surrogate _ => none

@[simp] theorem char?_char (c : Char) : char? (.char c) = some c := rfl
@[simp] theorem char?_surrogate (n : Fin 2048) : char? (.surrogate n) = none := rfl

end CodePoint

/-- A Python `str`. -/
abbrev PyStr := List CodePoint

namespace PyStr

/-- The Python string of a Lean string. -/
def ofString (s : String) : PyStr := s.toList.map .char

/-- `s.encode("utf-8")`, `none` when it raises. -/
def encodeUtf8 (s : PyStr) : Option Bytes :=
  (s.mapM CodePoint.char?).map fun cs ↦ cs.flatMap String.utf8EncodeChar

/-- `b.decode("utf-8")`, `none` when it raises. -/
def decodeUtf8 (b : Bytes) : Option PyStr :=
  b.toByteArray.utf8Decode?.map fun cs ↦ cs.toList.map .char

/-- No code point of the string is a surrogate. -/
def Scalar (s : PyStr) : Prop := ∀ p ∈ s, p.char?.isSome

/-- Distinct Lean strings are distinct Python strings. -/
theorem ofString_injective {s t : String} (h : ofString s = ofString t) : s = t := by
  have hinj : Function.Injective CodePoint.char := fun _ _ h ↦ CodePoint.char.inj h
  exact String.toList_injective (List.map_injective_iff.mpr hinj h)

theorem ofString_beq (s t : String) : (ofString s == ofString t) = (s == t) := by
  rw [Bool.eq_iff_iff, beq_iff_eq, beq_iff_eq]
  exact ⟨ofString_injective, congrArg ofString⟩

theorem scalar_ofString (s : String) : (ofString s).Scalar := by
  intro p hp
  obtain ⟨c, -, rfl⟩ := List.mem_map.mp hp
  rfl

/-- A string without surrogates is the image of a list of scalar values. -/
theorem mapM_char?_eq_some {s : PyStr} {cs : List Char} :
    s.mapM CodePoint.char? = some cs ↔ s = cs.map .char := by
  induction s generalizing cs with
  | nil => simp [eq_comm]
  | cons p s ih =>
      cases p with
      | surrogate n => cases cs <;> simp
      | char c => cases cs <;> simp [Option.bind_eq_some_iff, ih, and_comm]

/-- `bytes.decode` undoes `str.encode`. -/
theorem decodeUtf8_of_encodeUtf8 {s : PyStr} {b : Bytes} (h : s.encodeUtf8 = some b) :
    decodeUtf8 b = some s := by
  obtain ⟨cs, hcs, rfl⟩ := Option.map_eq_some_iff.mp h
  have hround : (cs.flatMap String.utf8EncodeChar).toByteArray.utf8Decode? = some cs.toArray :=
    List.utf8Decode?_utf8Encode (l := cs)
  rw [decodeUtf8, hround, mapM_char?_eq_some.mp hcs]
  rfl

/-- What `bytes.decode` accepts is the encoding of what it returns. -/
theorem encodeUtf8_of_decodeUtf8 {s : PyStr} {b : Bytes} (h : decodeUtf8 b = some s) :
    s.encodeUtf8 = some b := by
  obtain ⟨cs, hcs, rfl⟩ := Option.map_eq_some_iff.mp h
  have hsome : b.toByteArray.utf8Decode?.isSome := by rw [hcs]; rfl
  have hbytes := ByteArray.utf8Encode_get_utf8Decode? (b := b.toByteArray) (h := hsome)
  simp only [hcs, Option.get_some] at hbytes
  have hdata : (cs.toList.flatMap String.utf8EncodeChar).toByteArray = b.toByteArray := hbytes
  have hlist : cs.toList.flatMap String.utf8EncodeChar = b := by
    have := congrArg (fun x : ByteArray ↦ x.data.toList) hdata
    simpa only [List.data_toByteArray] using this
  rw [encodeUtf8, mapM_char?_eq_some.mpr rfl, Option.map_some, hlist]

/-- What `bytes.decode` returns has no surrogate. -/
theorem scalar_of_decodeUtf8 {s : PyStr} {b : Bytes} (h : decodeUtf8 b = some s) : s.Scalar := by
  obtain ⟨cs, -, rfl⟩ := Option.map_eq_some_iff.mp h
  intro p hp
  obtain ⟨c, -, rfl⟩ := List.mem_map.mp hp
  rfl

/-- A string without surrogates can be encoded. -/
theorem encodeUtf8_isSome {s : PyStr} (h : s.Scalar) : s.encodeUtf8.isSome := by
  induction s with
  | nil => rfl
  | cons p s ih =>
      have hp := h p (List.mem_cons_self ..)
      have hs := ih fun q hq ↦ h q (List.mem_cons_of_mem _ hq)
      cases p with
      | surrogate n => cases hp
      | char c =>
          simp only [encodeUtf8, Option.isSome_map, List.mapM_cons] at hs ⊢
          obtain ⟨cs, hcs⟩ := Option.isSome_iff_exists.mp hs
          simp [hcs]

end PyStr

end Lib
