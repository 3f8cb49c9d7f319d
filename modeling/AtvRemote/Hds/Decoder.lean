import AtvRemote.Hds.Encoder

/-!
# The data-stream decoder

`Decoder` of `hds_codec`: the bytes not read yet and its own table `seen`, to which
every scalar read as a literal is appended, never a back-reference.

The recursion of `_value` follows the input, not a syntax tree, so it runs on fuel; one
unit more than the number of input bytes is enough, since every call reads a tag.  The
terminator is passed around in-band, as in the source: it is an object that `_value`
returns, and only the loops of the terminated forms look for it.
-/

namespace AtvRemote.Hds

open Lib

/-- `Decoder`: the unread bytes (`data[i:]`) and the table of scalars read. -/
structure Decoder where
  /-- `data[i:]` -/
  rest : Bytes
  /-- `seen` -/
  seen : List Obj

namespace Decoder

/-- The exception of a decoder that runs out of fuel, which none does. -/
def outOfFuel : PyErr := .runtimeError "out of fuel"

/-- `_take` -/
def take (d : Decoder) (count : Nat) : Except PyErr (Bytes × Decoder) :=
  if d.rest.length < count then .error (.valueError "truncated HDS payload")
  else .ok (d.rest.take count, { d with rest := d.rest.drop count })

/-- `_track` -/
def track (d : Decoder) (v : Obj) : Obj × Decoder := (v, { d with seen := d.seen ++ [v] })

/-- `_tag` -/
def tag (d : Decoder) : Except PyErr (Nat × Decoder) := do
  let (b, d) ← d.take 1
  return (ofLE b, d)

/-- `_length` -/
def length (d : Decoder) (width : Nat) : Except PyErr (Nat × Decoder) := do
  let (b, d) ← d.take width
  return (ofLE b, d)

/-- The scan of `_read_terminated`: the bytes before the terminator and those after it. -/
def splitTerminated (terminator : UInt8) : Bytes → Option (Bytes × Bytes)
  | [] => none
  | b :: bs =>
      if b = terminator then some ([], bs)
      else (splitTerminated terminator bs).map fun p ↦ (b :: p.1, p.2)

/-- `_read_terminated` -/
def readTerminated (d : Decoder) (terminator : UInt8) : Except PyErr (Bytes × Decoder) :=
  match splitTerminated terminator d.rest with
  | some (value, rest) => .ok (value, { d with rest })
  | none => .error (.valueError "unterminated HDS value")

/-- Read `count` bytes, make an object of them and record it. -/
def literal (d : Decoder) (count : Nat) (make : Bytes → Except PyErr Obj) :
    Except PyErr (Obj × Decoder) := do
  let (b, d) ← d.take count
  let v ← make b
  return d.track v

/-- Read a length field, then that many bytes. -/
def sizedLiteral (d : Decoder) (width : Nat) (make : Bytes → Except PyErr Obj) :
    Except PyErr (Obj × Decoder) := do
  let (count, d) ← d.length width
  d.literal count make

/-- Read up to a terminator. -/
def terminatedLiteral (d : Decoder) (terminator : UInt8) (make : Bytes → Except PyErr Obj) :
    Except PyErr (Obj × Decoder) := do
  let (b, d) ← d.readTerminated terminator
  let v ← make b
  return d.track v

/-- `b.decode("utf-8")` -/
def makeStr (b : Bytes) : Except PyErr Obj :=
  match PyStr.decodeUtf8 b with
  | some s => .ok (.str s)
  | none => .error .unicodeDecodeError

/-- A byte string as it is. -/
def makeBytes (b : Bytes) : Except PyErr Obj := .ok (.bytes .bytes b)

/-- `struct.unpack` of an integer. -/
def makeInt (b : Bytes) : Except PyErr Obj := .ok (.int (unpackSigned b))

/-- `struct.unpack("<d", b)` -/
def makeFloat64 (b : Bytes) : Except PyErr Obj := .ok (.float (.unpack64 b))

/-- `struct.unpack("<f", b)` -/
def makeFloat32 (b : Bytes) : Except PyErr Obj := .ok (.float (.unpack32 b))

/-- `str(uuidlib.UUID(bytes=b))` -/
def makeUuid (b : Bytes) : Except PyErr Obj := .ok (.str (strOfUuid b))

/-! ## Containers

The loops take the element parser as an argument: it is `_value` one level deeper. -/

section Loops

variable (elem : Decoder → Except PyErr (Obj × Decoder))

/-- The elements of a counted array. -/
def counted : Nat → Decoder → Except PyErr (List Obj × Decoder)
  | 0, d => .ok ([], d)
  | n + 1, d => do
      let (x, d) ← elem d
      (counted n d).map fun p ↦ (x :: p.1, p.2)

/-- The elements of a terminated array. -/
def untilTerminator : Nat → Decoder → Except PyErr (List Obj × Decoder)
  | 0, _ => .error outOfFuel
  | fuel + 1, d => do
      let (x, d) ← elem d
      if x.isTerminator then .ok ([], d)
      else (untilTerminator fuel d).map fun p ↦ (x :: p.1, p.2)

/-- `result[key] = self._value(...)`: the value is read before the key is hashed.  Keys are found by
`==`, and not by identity: a NaN that comes again as a back-reference is the same object to
Python, and a further key here. -/
def assign (items : List (Obj × Obj)) (key : Obj) (d : Decoder) :
    Except PyErr (List (Obj × Obj) × Decoder) := do
  let (v, d) ← elem d
  if key.hashable then .ok (Obj.setItem items key v, d)
  else .error (.valueError "unhashable HDS dictionary key")

/-- The entries of a counted dictionary. -/
def countedEntries : Nat → List (Obj × Obj) → Decoder →
    Except PyErr (List (Obj × Obj) × Decoder)
  | 0, items, d => .ok (items, d)
  | n + 1, items, d => do
      let (key, d) ← elem d
      let (items, d) ← assign elem items key d
      countedEntries n items d

/-- The entries of a terminated dictionary. -/
def entriesUntilTerminator : Nat → List (Obj × Obj) → Decoder →
    Except PyErr (List (Obj × Obj) × Decoder)
  | 0, _, _ => .error outOfFuel
  | fuel + 1, items, d => do
      let (key, d) ← elem d
      if key.isTerminator then .ok (items, d)
      else
        let (items, d) ← assign elem items key d
        entriesUntilTerminator fuel items d

end Loops

/-- The width of the length field behind the first tag of a family of four. -/
def lengthWidth (offset : Nat) : Nat := 2 ^ offset

/-- A tag as its error message shows it: `0x{tag:02x}`. -/
def hexOfTag (tag : Nat) : String :=
  String.ofList ['0', 'x', Nat.digitChar (tag / 16), Nat.digitChar (tag % 16)]

/-- The branches of `_value` on its tag; `elem` reads a value one level deeper, and `fuel`
bounds the loops that run up to a terminator. -/
def ofTag (elem : Decoder → Except PyErr (Obj × Decoder)) (fuel tag : Nat) (d : Decoder) :
    Except PyErr (Obj × Decoder) :=
  if tag = Tag.invalid then .error (.valueError "invalid HDS zero tag")
  else if tag = Tag.true then .ok (d.track (.bool true))
  else if tag = Tag.false then .ok (d.track (.bool false))
  else if tag = Tag.terminator then .ok (.terminator, d)
  else if tag = Tag.null then .ok (.none, d)
  else if tag = Tag.uuid then d.literal 16 makeUuid
  else if tag = Tag.date then d.literal 8 makeFloat64
  else if tag = Tag.integerMinusOne then .ok (d.track (.int (-1)))
  else if Tag.integer0 ≤ tag ∧ tag ≤ Tag.integer39 then
    .ok (d.track (.int (tag - Tag.integer0 : Nat)))
  else if tag = Tag.int8 then d.literal 1 makeInt
  else if tag = Tag.int16 then d.literal 2 makeInt
  else if tag = Tag.int32 then d.literal 4 makeInt
  else if tag = Tag.int64 then d.literal 8 makeInt
  else if tag = Tag.float32 then d.literal 4 makeFloat32
  else if tag = Tag.float64 then d.literal 8 makeFloat64
  else if Tag.utf8Short ≤ tag ∧ tag ≤ Tag.utf8ShortEnd then
    d.literal (tag - Tag.utf8Short) makeStr
  else if Tag.utf8_8 ≤ tag ∧ tag ≤ Tag.utf8_64 then
    d.sizedLiteral (lengthWidth (tag - Tag.utf8_8)) makeStr
  else if tag = Tag.utf8Null then d.terminatedLiteral 0 makeStr
  else if Tag.dataShort ≤ tag ∧ tag ≤ Tag.dataShortEnd then
    d.literal (tag - Tag.dataShort) makeBytes
  else if Tag.data8 ≤ tag ∧ tag ≤ Tag.data64 then
    d.sizedLiteral (lengthWidth (tag - Tag.data8)) makeBytes
  else if tag = Tag.dataTerminated then
    d.terminatedLiteral (UInt8.ofNat Tag.terminator) makeBytes
  else if Tag.compress ≤ tag ∧ tag ≤ Tag.compressEnd then
    match d.seen[tag - Tag.compress]? with
    | some v => .ok (v, d)
    | none => .error (.valueError "invalid HDS compression reference")
  else if Tag.array ≤ tag ∧ tag ≤ Tag.arrayEnd then
    (counted elem (tag - Tag.array) d).map fun p ↦ (.list p.1, p.2)
  else if tag = Tag.arrayTerminated then
    (untilTerminator elem fuel d).map fun p ↦ (.list p.1, p.2)
  else if Tag.dict ≤ tag ∧ tag ≤ Tag.dictEnd then
    (countedEntries elem (tag - Tag.dict) [] d).map fun p ↦ (.dict p.1, p.2)
  else if tag = Tag.dictTerminated then
    (entriesUntilTerminator elem fuel [] d).map fun p ↦ (.dict p.1, p.2)
  else .error (.valueError s!"unknown HDS tag {hexOfTag tag}")

/-- `_value` -/
def value : Nat → Nat → Decoder → Except PyErr (Obj × Decoder)
  | 0, _, _ => .error outOfFuel
  | fuel + 1, depth, d => do
      Encoder.checkDepth depth
      let (tag, d) ← d.tag
      ofTag (value fuel (depth + 1)) fuel tag d

end Decoder

/-- `decode(data)` -/
def decode (data : Bytes) : Except PyErr Obj := do
  let (v, d) ← Decoder.value (data.length + 1) 0 ⟨data, []⟩
  if v.isTerminator then .error (.valueError "unexpected top-level HDS terminator")
  else if d.rest.length ≠ 0 then .error (.valueError s!"trailing HDS bytes: {d.rest.length}")
  else return v

end AtvRemote.Hds
