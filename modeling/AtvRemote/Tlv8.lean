import AtvRemote.Lib.Chunks
import AtvRemote.Lib.Dict
import AtvRemote.Lib.Except
import AtvRemote.Python.Object

/-!
# TLV8

`tlv8`: entries of a type byte, a length byte and at most 255 bytes of value.  A longer
value takes several entries of its type in a row.
-/

namespace AtvRemote.Tlv8

open Lib

/-- `TLV_MAX_CHUNK` -/
def tlvMaxChunk : Nat := 255

/-- `TLVSegment` -/
structure TLVSegment where
  /-- `tag` -/
  tag : UInt8
  /-- `value` -/
  value : Bytes
deriving DecidableEq, Repr

/-! ## Encoding -/

/-- An element of `bytes(xs)`. -/
def byteOf : Obj → Except PyErr UInt8
  | .bool b => .ok (if b then 1 else 0)
  | .int n =>
      if 0 ≤ n ∧ n ≤ 0xFF then .ok (UInt8.ofNat n.toNat)
      else .error (.valueError "bytes must be in range(0, 256)")
  | _ => .error (.typeError "object cannot be interpreted as an integer")

/-- `bytes(raw)` for what is neither a string nor an integer. -/
def bytesOf : Obj → Except PyErr Bytes
  | .bytes _ b => .ok b
  | .seq _ xs => xs.mapM byteOf
  | .dict items => items.mapM fun p ↦ byteOf p.1
  | _ => .error (.typeError "cannot convert object to bytes")

/-- `_normalize_value` -/
def normalizeValue : Obj → Except PyErr Bytes
  | .str s => match s.encodeUtf8 with
      | some b => .ok b
      | none => .error .unicodeEncodeError
  | .bool b => .ok [if b then 1 else 0]
  | .int n =>
      if 0 ≤ n ∧ n ≤ 0xFF then .ok [UInt8.ofNat n.toNat]
      else .error (.valueError "integer TLV8 values must fit in one byte")
  | raw => bytesOf raw

/-- The segments that a value is split into. -/
def segmentsOf (tag : UInt8) (value : Bytes) : List TLVSegment :=
  if value.isEmpty then [⟨tag, []⟩]
  else
    let (whole, rest) := chunks tlvMaxChunk value
    whole.map (fun chunk ↦ ⟨tag, chunk.1⟩) ++ if rest.isEmpty then [] else [⟨tag, rest⟩]

/-- The bytes of a segment. -/
def TLVSegment.toBytes (s : TLVSegment) : Bytes := s.tag :: UInt8.ofNat s.value.length :: s.value

/-- One entry of `encode`. -/
def encodeEntry (tag : UInt8) (raw : Obj) : Except PyErr Bytes := do
  let value ← normalizeValue raw
  return (segmentsOf tag value).flatMap TLVSegment.toBytes

/-- `encode` -/
def encode (entries : List (UInt8 × Obj)) : Except PyErr Bytes := do
  let parts ← entries.mapM fun e ↦ encodeEntry e.1 e.2
  return parts.flatten

/-! ## Decoding -/

/-- `segments`; the first argument bounds the number of segments. -/
def segmentsAux : Nat → Bytes → Except PyErr (List TLVSegment)
  | 0, _ | _, [] => .ok []
  | _ + 1, [_] => .error (.valueError "truncated TLV8 header")
  | n + 1, tag :: length :: rest =>
      if rest.length < length.toNat then .error (.valueError "truncated TLV8 value")
      else do
        let more ← segmentsAux n (rest.drop length.toNat)
        return ⟨tag, rest.take length.toNat⟩ :: more

/-- `segments` -/
def segments (data : Bytes) : Except PyErr (List TLVSegment) := segmentsAux data.length data

/-- The loop of `decode`. -/
def collect : Option TLVSegment → Dict UInt8 Bytes → List TLVSegment → Dict UInt8 Bytes
  | _, result, [] => result
  | previous, result, segment :: rest =>
      let continued := previous.any fun p ↦ segment.tag = p.tag && p.value.length = tlvMaxChunk
      let value := match continued, result.get segment.tag with
        | true, some before => before ++ segment.value
        | _, _ => segment.value
      collect (some segment) (result.set segment.tag value) rest

/-- `decode` -/
def decode (data : Bytes) : Except PyErr (Dict UInt8 Bytes) := do
  let parsed ← segments data
  return collect none .empty parsed

/-- The first loop of `decode_list`; the group that is being read is last. -/
def groupItems (separatorTag : UInt8) : Option TLVSegment → List TLVSegment → List TLVSegment →
    List (List TLVSegment)
  | _, current, [] => if current.isEmpty then [] else [current]
  | previous, current, segment :: rest =>
      let continued := previous.any fun p ↦ p.tag = separatorTag && p.value.length = tlvMaxChunk
      if segment.tag = separatorTag && !current.isEmpty && !continued then
        current :: groupItems separatorTag (some segment) [segment] rest
      else groupItems separatorTag (some segment) (current ++ [segment]) rest

/-- `decode_list` -/
def decodeList (data : Bytes) (separatorTag : UInt8) : Except PyErr (List (Dict UInt8 Bytes)) := do
  let parsed ← segments data
  (groupItems separatorTag none [] parsed).mapM fun group ↦
    decode (group.flatMap TLVSegment.toBytes)

/-! ## Integers -/

/-- `u16` -/
def u16 (value : Int) : Except PyErr Bytes :=
  if value < 0 then .error (.overflowError "can't convert negative int to unsigned")
  else if value < 2 ^ 16 then .ok (toLE 2 value.toNat)
  else .error (.overflowError "int too big to convert")

/-- `u32` -/
def u32 (value : Int) : Except PyErr Bytes :=
  if value < 0 then .error (.overflowError "can't convert negative int to unsigned")
  else if value < 2 ^ 32 then .ok (toLE 4 value.toNat)
  else .error (.overflowError "int too big to convert")

/-- `uint_le` -/
def uintLe (value : Nat) : Bytes :=
  let bitLength := if value = 0 then 0 else value.log2 + 1
  toLE (max 1 ((bitLength + 7) / 8)) value

/-- `read_u16` -/
def readU16 (value : Bytes) : Except PyErr Int :=
  if value.length ≠ 2 then .error (.valueError "uint16 TLV value must be exactly 2 bytes")
  else .ok (ofLE value)

/-- `read_u32` -/
def readU32 (value : Bytes) : Except PyErr Int :=
  if value.length ≠ 4 then .error (.valueError "uint32 TLV value must be exactly 4 bytes")
  else .ok (ofLE value)

theorem readU16_range {value : Bytes} {n : Int} (h : readU16 value = .ok n) :
    0 ≤ n ∧ n < 2 ^ 16 := by
  unfold readU16 at h
  split at h
  · cases h
  · next hlen =>
    cases h
    have hlt := ofLE_lt value
    rw [not_not.mp hlen] at hlt
    omega

theorem readU32_range {value : Bytes} {n : Int} (h : readU32 value = .ok n) :
    0 ≤ n ∧ n < 2 ^ 32 := by
  unfold readU32 at h
  split at h
  · cases h
  · next hlen =>
    cases h
    have hlt := ofLE_lt value
    rw [not_not.mp hlen] at hlt
    omega

theorem u16_ok {n : Int} (h : 0 ≤ n ∧ n < 2 ^ 16) : u16 n = .ok (toLE 2 n.toNat) := by
  rw [u16, if_neg (Int.not_lt.mpr h.1), if_pos h.2]

theorem u32_ok {n : Int} (h : 0 ≤ n ∧ n < 2 ^ 32) : u32 n = .ok (toLE 4 n.toNat) := by
  rw [u32, if_neg (Int.not_lt.mpr h.1), if_pos h.2]

theorem encodeEntry_of_normalizeValue (tag : UInt8) {raw : Obj} {value : Bytes}
    (h : normalizeValue raw = .ok value) :
    encodeEntry tag raw = .ok ((segmentsOf tag value).flatMap TLVSegment.toBytes) := by
  rw [encodeEntry, h]
  rfl

/-- A byte string is an entry of any type. -/
theorem encodeEntry_bytes (tag : UInt8) (b : Bytes) :
    ∃ bytes, encodeEntry tag (.bytes .bytes b) = .ok bytes :=
  ⟨_, encodeEntry_of_normalizeValue tag rfl⟩

theorem encodeEntry_int (tag : UInt8) {n : Int} (h : 0 ≤ n ∧ n ≤ 0xFF) :
    ∃ bytes, encodeEntry tag (.int n) = .ok bytes :=
  ⟨_, encodeEntry_of_normalizeValue tag (if_pos h)⟩

/-- A string that can be encoded is an entry of any type. -/
theorem encodeEntry_str (tag : UInt8) {s : PyStr} (h : s.Scalar) :
    ∃ bytes, encodeEntry tag (.str s) = .ok bytes := by
  obtain ⟨b, hb⟩ := Option.isSome_iff_exists.mp (PyStr.encodeUtf8_isSome h)
  have hvalue : normalizeValue (.str s) = .ok b := by simp only [normalizeValue, hb]
  exact ⟨_, encodeEntry_of_normalizeValue tag hvalue⟩

/-- `encode` returns when each of its entries does. -/
theorem encode_isOk {entries : List (UInt8 × Obj)}
    (h : ∀ e ∈ entries, ∃ b, encodeEntry e.1 e.2 = .ok b) : ∃ b, encode entries = .ok b := by
  suffices hparts : ∃ parts, entries.mapM (fun e ↦ encodeEntry e.1 e.2) = .ok parts by
    obtain ⟨parts, hparts⟩ := hparts
    exact ⟨parts.flatten, by rw [encode, hparts]; rfl⟩
  induction entries with
  | nil => exact ⟨[], rfl⟩
  | cons e entries ih =>
      obtain ⟨b, hb⟩ := h e (List.mem_cons_self ..)
      obtain ⟨parts, hparts⟩ := ih fun e' he' ↦ h e' (List.mem_cons_of_mem _ he')
      refine ⟨b :: parts, ?_⟩
      rw [List.mapM_cons, hb, hparts]
      rfl

end AtvRemote.Tlv8
