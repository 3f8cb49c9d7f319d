import AtvRemote.Lib.Except
import AtvRemote.Python.Object
import AtvRemote.Python.Uuid

/-!
# The data-stream encoder

`Encoder` of `hds_codec`: the output buffer and the table `seen` of scalars written so
far, in which the encoder looks a scalar up before it writes it.  A scalar found at one
of the first 48 places is written as a back-reference; one found further back is written
again but *not* recorded again; small integers and booleans are always written out and
always recorded.
-/

namespace AtvRemote.Hds

open Lib

/-- The nesting limit of both directions. -/
def maxDepth : Nat := 64

/-! ## Tags -/

namespace Tag

def invalid : Nat := 0x00
def true : Nat := 0x01
def false : Nat := 0x02
def terminator : Nat := 0x03
def null : Nat := 0x04
def uuid : Nat := 0x05
def date : Nat := 0x06
def integerMinusOne : Nat := 0x07
def integer0 : Nat := 0x08
def integer39 : Nat := 0x2E
def int8 : Nat := 0x30
def int16 : Nat := 0x31
def int32 : Nat := 0x32
def int64 : Nat := 0x33
def float32 : Nat := 0x35
def float64 : Nat := 0x36
def utf8Short : Nat := 0x40
def utf8ShortEnd : Nat := 0x60
def utf8_8 : Nat := 0x61
def utf8_16 : Nat := 0x62
def utf8_32 : Nat := 0x63
def utf8_64 : Nat := 0x64
def utf8Null : Nat := 0x6F
def dataShort : Nat := 0x70
def dataShortEnd : Nat := 0x90
def data8 : Nat := 0x91
def data16 : Nat := 0x92
def data32 : Nat := 0x93
def data64 : Nat := 0x94
def dataTerminated : Nat := 0x9F
def compress : Nat := 0xA0
def compressEnd : Nat := 0xCF
def array : Nat := 0xD0
def arrayEnd : Nat := 0xDE
def arrayTerminated : Nat := 0xDF
def dict : Nat := 0xE0
def dictEnd : Nat := 0xEE
def dictTerminated : Nat := 0xEF

end Tag

/-- The tag of an integer wrapper. -/
def intTag : IntWidth → Nat
  | .int8 => Tag.int8
  | .int16 => Tag.int16
  | .int32 => Tag.int32
  | .int64 => Tag.int64

/-! ## The encoder -/

/-- `Encoder`: the buffer and the table of scalars already written. -/
structure Encoder where
  /-- `buf` -/
  buf : Bytes
  /-- `seen` -/
  seen : List Obj

namespace Encoder

/-- `Encoder()` -/
def init : Encoder := ⟨[], []⟩

/-- `self.buf.append(tag)` followed by `self.buf.extend(data)`. -/
def emit (e : Encoder) (tag : Nat) (data : Bytes) : Encoder :=
  { e with buf := e.buf ++ UInt8.ofNat tag :: data }

/-- `_check_depth` -/
def checkDepth (depth : Nat) : Except PyErr Unit :=
  if maxDepth < depth then .error (.valueError "HDS nesting depth exceeds safety limit")
  else .ok ()

/-- `_compress`: whether a back-reference was written. -/
def compress (e : Encoder) (v : Obj) : Bool × Encoder :=
  match e.seen.findIdx? fun x ↦ x.pyEq v with
  | none => (false, { e with seen := e.seen ++ [v] })
  | some index =>
      if index ≤ Tag.compressEnd - Tag.compress then (true, e.emit (Tag.compress + index) [])
      else (false, e)

/-- `_track_literal` -/
def trackLiteral (e : Encoder) (v : Obj) : Encoder := { e with seen := e.seen ++ [v] }

/-- Write a scalar as a back-reference, or else as its tag and payload: the common
shape of `_wrapped`, `_string`, `_bytes` and the UUID and date branches of `_value`. -/
def scalar (e : Encoder) (v : Obj) (payload : Except PyErr (Nat × Bytes)) :
    Except PyErr Encoder :=
  match e.compress v with
  | (true, e) => .ok e
  | (false, e) => payload.map fun p ↦ e.emit p.1 p.2

/-- `struct.pack` of an integer in `w` bytes. -/
def packInt (w : Nat) (n : Int) : Except PyErr Bytes :=
  match packSigned w n with
  | some b => .ok b
  | none => .error .structError

/-- `_wrapped` for the integer wrappers. -/
def wrappedInt (e : Encoder) (w : IntWidth) (n : Int) : Except PyErr Encoder :=
  e.scalar (.intN w n) ((packInt w.bytes n).map fun b ↦ (intTag w, b))

/-- `_wrapped` for `Float32`. -/
def wrappedFloat32 (e : Encoder) (x : Float64) : Except PyErr Encoder :=
  e.scalar (.float32 x) (match x.pack32 with
    | some b => .ok (Tag.float32, b)
    | none => .error (.overflowError "float too large to pack with f format"))

/-- `_wrapped` for `Float64`. -/
def wrappedFloat64 (e : Encoder) (x : Float64) : Except PyErr Encoder :=
  e.scalar (.float64 x) (.ok (Tag.float64, x.pack64))

/-- `_integer` -/
def integer (e : Encoder) (n : Int) : Except PyErr Encoder :=
  if n = -1 then .ok ((e.emit Tag.integerMinusOne []).trackLiteral (.int (-1)))
  else if 0 ≤ n ∧ n ≤ 39 then .ok ((e.emit (Tag.integer0 + n.toNat) []).trackLiteral (.int n))
  else if -128 ≤ n ∧ n ≤ 127 then e.wrappedInt .int8 n
  else if -32768 ≤ n ∧ n ≤ 32767 then e.wrappedInt .int16 n
  else if -(2 ^ 31) ≤ n ∧ n ≤ 2 ^ 31 - 1 then e.wrappedInt .int32 n
  else if -(2 ^ 63) ≤ n ∧ n ≤ 2 ^ 63 - 1 then e.wrappedInt .int64 n
  else .error (.overflowError "integer does not fit HDS int64")

/-- `_length`: the tag and the length field for `length` bytes, the four tags given by
the first of them. -/
def lengthField (length tag : Nat) : Except PyErr (Nat × Bytes) :=
  if length ≤ 0xFF then .ok (tag, toLE 1 length)
  else if length ≤ 0xFFFF then .ok (tag + 1, toLE 2 length)
  else if length ≤ 0xFFFFFFFF then .ok (tag + 2, toLE 4 length)
  else if length ≤ 0xFFFFFFFFFFFFFFFF then .ok (tag + 3, toLE 8 length)
  else .error (.overflowError "HDS length does not fit uint64")

/-- A byte string in its short form, or else behind a length field: the common tail of
`_string` and `_bytes`. -/
def sized (short long : Nat) (raw : Bytes) : Except PyErr (Nat × Bytes) :=
  if raw.length ≤ 32 then .ok (short + raw.length, raw)
  else (lengthField raw.length long).map fun p ↦ (p.1, p.2 ++ raw)

/-- `_string` -/
def string (e : Encoder) (s : PyStr) : Except PyErr Encoder :=
  e.scalar (.str s) (match s.encodeUtf8 with
    | some raw => sized Tag.utf8Short Tag.utf8_8 raw
    | none => .error .unicodeEncodeError)

/-- `_bytes` -/
def bytes (e : Encoder) (b : Bytes) : Except PyErr Encoder :=
  e.scalar (.bytes .bytes b) (sized Tag.dataShort Tag.data8 b)

/-- The `HDSUUID` branch of `_value`. -/
def uuid (e : Encoder) (s : PyStr) : Except PyErr Encoder :=
  e.scalar (.uuid s) (match uuidOfStr s with
    | some b => .ok (Tag.uuid, b)
    | none => .error (.valueError "badly formed hexadecimal UUID string"))

mutual

/-- `_value`, with `_array` and `_dict` in its container branches. -/
def value (depth : Nat) (v : Obj) (e : Encoder) : Except PyErr Encoder := do
  checkDepth depth
  match v with
  | .none => return e.emit Tag.null []
  | .bool true => return (e.emit Tag.true []).trackLiteral (.bool true)
  | .bool false => return (e.emit Tag.false []).trackLiteral (.bool false)
  | .intN w n => e.wrappedInt w n
  | .float32 x => e.wrappedFloat32 x
  | .float64 x => e.wrappedFloat64 x
  | .date x => e.scalar (.date x) (.ok (Tag.date, x.pack64))
  | .uuid s => e.uuid s
  | .int n => e.integer n
  | .float x => e.wrappedFloat64 x
  | .str s => e.string s
  | .bytes _ b => e.bytes b
  | .seq _ xs =>
      checkDepth (depth + 1)
      if xs.length ≤ 12 then values (depth + 1) xs (e.emit (Tag.array + xs.length) [])
      else
        let e ← values (depth + 1) xs (e.emit Tag.arrayTerminated [])
        return e.emit Tag.terminator []
  | .dict items =>
      checkDepth (depth + 1)
      if items.length ≤ 14 then entries (depth + 1) items (e.emit (Tag.dict + items.length) [])
      else
        let e ← entries (depth + 1) items (e.emit Tag.dictTerminated [])
        return e.emit Tag.terminator []
  | .terminator => .error (.typeError "unsupported HDS value")

/-- The loop of `_array`. -/
def values (depth : Nat) (xs : List Obj) (e : Encoder) : Except PyErr Encoder :=
  match xs with
  | [] => .ok e
  | x :: xs => do
      let e ← value depth x e
      values depth xs e

/-- The loop of `_dict`. -/
def entries (depth : Nat) (items : List (Obj × Obj)) (e : Encoder) : Except PyErr Encoder :=
  match items with
  | [] => .ok e
  | (k, v) :: items => do
      let e ← value depth k e
      let e ← value depth v e
      entries depth items e

end

end Encoder

/-- `encode(value)` -/
def encode (v : Obj) : Except PyErr Bytes := (Encoder.value 0 v .init).map Encoder.buf

end AtvRemote.Hds
