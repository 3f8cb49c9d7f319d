import AtvRemote.Constants
import AtvRemote.Hds.RoundTrip
import AtvRemote.Lib.SealedChannel

/-!
# Messages and frames

What `HDSConnection` puts on the wire and what it reads off it: a message is a header and a
body, both encoded by the codec, behind one byte that holds the header's length; a frame is
four bytes of type and length and the message encrypted under the next nonce.

`cryptography` is a parameter (`Crypto`), and so is `repr()` of what the peer sends in
place of a string.
-/

namespace AtvRemote.Hds

open Lib

/-- The items of a `dict`. -/
abbrev Items := List (Obj × Obj)

/-! ## Cryptography -/

/-- What the program uses of `cryptography`. -/
structure Crypto where
  /-- `ChaCha20Poly1305` -/
  aead : Aead
  /-- `_hkdf` -/
  hkdf (sharedSecret salt info : Bytes) : Bytes

/-- Keys derived from different salts are different. -/
def Crypto.SaltInjective (C : Crypto) : Prop :=
  ∀ secret secret' salt salt' info,
    C.hkdf secret salt info = C.hkdf secret' salt' info → salt = salt'

/-- A cipher that leaves its data alone, for runs on fixed inputs. -/
def plain : Aead where
  encrypt _ _ data _ := data ++ List.replicate 16 0
  decrypt _ _ data _ := some (data.take (data.length - 16))

theorem plain_lawful : plain.Lawful 16 where
  decrypt_encrypt key n data ad := by simp [plain]
  length_encrypt key n data ad := by simp [plain]

/-- `_nonce` -/
def nonce (counter : Nat) : Except PyErr Bytes :=
  if counter ≤ 0xFFFFFFFFFFFFFFFF then .ok (List.replicate 4 0 ++ toLE 8 counter)
  else .error (.overflowError "HDS nonce counter exhausted")

/-! ## Frames -/

/-- `MAX_PAYLOAD_LENGTH` -/
def maxPayloadLength : Nat := 0xFFFFF

/-- `bytes([1]) + length.to_bytes(3, "big")` -/
def frameHeader (length : Nat) : Bytes := 1 :: toBE 3 length

/-- The payload length that a frame header announces; the texts of the two errors are the
caller's. -/
def frameLength (unsupported : Nat → String) (tooLong : String) (header : Bytes) :
    Except PyErr Nat :=
  match header with
  | [] => .error (.valueError (unsupported 0))
  | type :: length =>
      if type ≠ 1 then .error (.valueError (unsupported type.toNat))
      else if maxPayloadLength < ofBE (length.take 3) then .error (.valueError tooLong)
      else .ok (ofBE (length.take 3))

/-- The frame header as `_run` reads it. -/
def runFrameLength (header : Bytes) : Except PyErr Nat :=
  frameLength (fun type ↦ s!"unsupported HDS frame type {type}")
    "HDS payload exceeds maximum size" header

/-- The frame header as `_accept` reads it. -/
def acceptFrameLength (header : Bytes) : Except PyErr Nat :=
  frameLength (fun _ ↦ "invalid initial HDS frame type")
    "initial HDS payload exceeds maximum size" header

/-- The frames of a data stream. -/
def hdsFraming : Framing where
  headerLength := 4
  tagLength := 16
  maxLength := maxPayloadLength
  header := frameHeader
  payloadLength header := (runFrameLength header).toOption
  nonce counter := (nonce counter).toOption

/-! ## Messages -/

/-- The first component of a decoded message. -/
inductive Kind where
  | event | request | response
deriving DecidableEq, Repr

/-- A decoded message: what `_decode_message` returns. -/
structure Message where
  kind : Kind
  protocol : PyStr
  topic : PyStr
  message : Items
  requestId : Option Int
  status : Option Int
deriving Repr

/-- The message is the `control/hello` request that a connection begins with. -/
def Message.isHello (m : Message) : Bool :=
  m.kind = .request && m.protocol == PyStr.ofString hdsProtocolControl &&
    m.topic == PyStr.ofString hdsTopicHello

/-! ## What is sent -/

/-- What distinguishes a call of `send_event`, `send_response` and `send_request`. -/
inductive OutgoingKind where
  | event
  | response (requestId status : Int)
  | request (requestId : Nat)
deriving DecidableEq, Repr

/-- The arguments of a call of `send_event`, `send_response` or `send_request`. -/
structure Outgoing where
  kind : OutgoingKind
  protocol : PyStr
  topic : PyStr
  message : Option Items
deriving Repr

/-- The greeting that a connection begins with. -/
def greeting : Outgoing :=
  ⟨.request 1, .ofString hdsProtocolControl, .ofString hdsTopicHello, none⟩

namespace Outgoing

/-- The tuple that the receiver should make of what is sent. -/
def asReceived (o : Outgoing) : Message where
  kind := match o.kind with
    | .event => .event
    | .response .. => .response
    | .request _ => .request
  protocol := o.protocol
  topic := o.topic
  message := Obj.eraseItems (o.message.getD [])
  requestId := match o.kind with
    | .event => none
    | .response requestId _ => some requestId
    | .request requestId => some requestId
  status := match o.kind with
    | .response _ status => some status
    | _ => none

/-- `message or {}` -/
def content (o : Outgoing) : Items := o.message.getD []

/-- The header that is passed to `_send`. -/
def header (o : Outgoing) : Items :=
  (.text "protocol", .str o.protocol) :: match o.kind with
  | .event => [(.text "event", .str o.topic)]
  | .response requestId status =>
      [(.text "response", .str o.topic), (.text "id", .intN .int64 requestId),
        (.text "status", .intN .int64 status)]
  | .request requestId =>
      [(.text "request", .str o.topic), (.text "id", .intN .int64 requestId)]

/-- The payload that `_send` makes of an encoded header and an encoded message. -/
def assemble (headerData messageData : Bytes) : Except PyErr Bytes :=
  if maxPayloadLength < (UInt8.ofNat headerData.length :: headerData ++ messageData).length then
    .error (.valueError "HDS payload too large")
  else .ok (UInt8.ofNat headerData.length :: headerData ++ messageData)

/-- The payload that `_send` encrypts. -/
def payload (o : Outgoing) : Except PyErr Bytes := do
  let headerData ← encode (.dict o.header)
  if 255 < headerData.length then
    .error (.valueError "HDS encoded header exceeds one-byte header-length field")
  else
    let messageData ← encode (.dict o.content)
    assemble headerData messageData

end Outgoing

/-! ## Decoding -/

section

variable (reprOf : Obj → String)

/-- `str(value)`: a string is itself, anything else what `repr` makes of it. -/
def pyStr : Obj → PyStr
  | .str s => s
  | x => PyStr.ofString (reprOf x)

/-- The end of `_decode_message`, on a header that has a protocol. -/
def messageOfHeader (protocol : PyStr) (header message : Items) : Except PyErr Message :=
  match Obj.lookup header (.text "event"), Obj.lookup header (.text "request"),
      Obj.lookup header (.text "response") with
  | some topic, _, _ => .ok ⟨.event, protocol, pyStr reprOf topic, message, none, none⟩
  | none, some topic, _ =>
      match Obj.lookup header (.text "id") with
      | none => .error (.valueError "HDS request is missing id")
      | some id => id.toInt.map fun id ↦
          ⟨.request, protocol, pyStr reprOf topic, message, some id, none⟩
  | none, none, some topic =>
      match Obj.lookup header (.text "id"), Obj.lookup header (.text "status") with
      | some id, some status => do
          let id ← id.toInt
          let status ← status.toInt
          return ⟨.response, protocol, pyStr reprOf topic, message, some id, some status⟩
      | _, _ => .error (.valueError "HDS response is missing id/status")
  | none, none, none =>
      .error (.valueError s!"unknown HDS message header: {reprOf (.dict header)}")

/-- `_decode_message` on what the codec makes of the header and of the message. -/
def messageOf : Obj → Obj → Except PyErr Message
  | .dict header, .dict message =>
      let protocol := pyStr reprOf ((Obj.lookup header (.text "protocol")).getD (.text ""))
      if protocol.isEmpty then .error (.valueError "HDS message is missing protocol")
      else messageOfHeader reprOf protocol header message
  | _, _ => .error (.valueError "HDS header/message must be dictionaries")

/-- `_decode_message` -/
def decodeMessage : Bytes → Except PyErr Message
  | [] => .error (.valueError "empty HDS payload")
  | headerLen :: rest =>
      if rest.length < headerLen.toNat then .error (.valueError "invalid HDS header length")
      else do
        let header ← decode (rest.take headerLen.toNat)
        let message ← decode (rest.drop headerLen.toNat)
        messageOf reprOf header message

end

/-! ## The framing -/

theorem nonce_eq_ok {counter : Nat} {n : Bytes} :
    nonce counter = .ok n ↔
      counter < 256 ^ 8 ∧ n = List.replicate 4 0 ++ toLE 8 counter := by
  rw [nonce]
  split
  case isTrue hle =>
    exact ⟨fun h ↦ ⟨Nat.lt_succ_of_le hle, (Except.ok.inj h).symm⟩, fun h ↦ by rw [h.2]⟩
  case isFalse hlt =>
    exact ⟨nofun, fun h ↦ absurd (Nat.le_of_lt_succ h.1) hlt⟩

/-- No nonce belongs to two counters. -/
theorem nonce_injective {i j : Nat} {n : Bytes} (hi : nonce i = .ok n) (hj : nonce j = .ok n) :
    i = j := by
  obtain ⟨hilt, hi⟩ := nonce_eq_ok.mp hi
  obtain ⟨hjlt, hj⟩ := nonce_eq_ok.mp hj
  have heq : toLE 8 i = toLE 8 j := List.append_cancel_left (hi.symm.trans hj)
  rw [← ofLE_toLE hilt, heq, ofLE_toLE hjlt]

theorem frameLength_frameHeader {unsupported : Nat → String} {tooLong : String} {n : Nat}
    (h : n ≤ maxPayloadLength) :
    frameLength unsupported tooLong (frameHeader n) = .ok n := by
  have hwidth : n < 256 ^ 3 := Nat.lt_of_le_of_lt h (by decide)
  have htake : (toBE 3 n).take 3 = toBE 3 n := List.take_of_length_le (by simp)
  rw [frameHeader, frameLength, if_neg (by decide), htake, ofBE_toBE hwidth,
    if_neg (Nat.not_lt.mpr h)]

/-- The frames can be told apart, and so can the nonces. -/
theorem hdsFraming_lawful : hdsFraming.Lawful where
  headerLength_pos := by decide
  length_header n := by
    show (frameHeader n).length = 4
    rw [frameHeader, List.length_cons, length_toBE]
  payloadLength_header n hn := by
    rw [hdsFraming, toOption_eq_some]
    exact frameLength_frameHeader hn
  nonce_injective hi hj :=
    nonce_injective (toOption_eq_some.mp hi) (toOption_eq_some.mp hj)

/-! ## A message survives the wire -/

namespace Outgoing

variable {o : Outgoing}

/-- The codec carries the message that is sent. -/
def Carried (o : Outgoing) : Prop :=
  ∀ data, encode (.dict o.content) = .ok data → decode data = .ok (Obj.dict o.content).erase

/-- The codec carries any message of serializable values without a plain 39. -/
theorem carried_of_serializable (hs : (Obj.dict o.content).Serializable)
    (h39 : (Obj.dict o.content).hasPlain39 = false) : o.Carried := by
  intro data hdata
  have hdecode := decode_encode hs hdata
  rwa [h39, if_neg Bool.false_ne_true] at hdecode

/-- A dictionary under distinct literal keys is serializable when its values are. -/
theorem serializable_fields (fields : List (String × Obj)) (hkeys : (fields.map Prod.fst).Nodup)
    (hvalues : ∀ f ∈ fields, f.2.Serializable) :
    (Obj.dict (fields.map fun f ↦ (.text f.1, f.2))).Serializable := by
  refine .dict _ ?_ ?_ ?_ ?_
  · intro p hp
    obtain ⟨f, -, rfl⟩ := List.mem_map.mp hp
    exact .str _
  · intro p hp
    obtain ⟨f, hf, rfl⟩ := List.mem_map.mp hp
    exact hvalues f hf
  · intro p hp
    obtain ⟨f, -, rfl⟩ := List.mem_map.mp hp
    rfl
  · rw [List.pairwise_map]
    refine (List.pairwise_map.mp hkeys).imp fun hne ↦ ?_
    simp only [Obj.erase, Obj.pyEq_str, beq_eq_false_iff_ne]
    exact fun heq ↦ hne (PyStr.ofString_injective heq)

/-- Every header is a dictionary that the codec accepts. -/
theorem serializable_header (o : Outgoing) : (Obj.dict o.header).Serializable := by
  obtain ⟨kind, protocol, topic, message⟩ := o
  cases kind with
  | event =>
      refine serializable_fields [("protocol", .str protocol), ("event", .str topic)]
        (by simp) ?_
      simp [Obj.Serializable.str]
  | response requestId status =>
      refine serializable_fields [("protocol", .str protocol), ("response", .str topic),
        ("id", .intN .int64 requestId), ("status", .intN .int64 status)] (by simp) ?_
      simp [Obj.Serializable.str, Obj.Serializable.intN]
  | request requestId =>
      refine serializable_fields [("protocol", .str protocol), ("request", .str topic),
        ("id", .intN .int64 requestId)] (by simp) ?_
      simp [Obj.Serializable.str, Obj.Serializable.intN]

theorem decode_header {data : Bytes} (h : encode (.dict o.header) = .ok data) :
    decode data = .ok (.dict (Obj.eraseItems o.header)) := by
  have h39 : (Obj.dict o.header).hasPlain39 = false := by
    obtain ⟨kind, protocol, topic, message⟩ := o
    cases kind <;> rfl
  have hdecode := decode_encode o.serializable_header h
  rw [h39, if_neg Bool.false_ne_true] at hdecode
  rw [hdecode, Obj.erase]

/-- The header says again what the message is. -/
theorem messageOf_header (reprOf : Obj → String) (hprotocol : o.protocol ≠ []) (message : Items) :
    messageOf reprOf (.dict (Obj.eraseItems o.header)) (.dict message) =
      .ok { o.asReceived with message } := by
  obtain ⟨kind, protocol, topic, content⟩ := o
  have hne : protocol.isEmpty = false := List.isEmpty_eq_false_iff.mpr hprotocol
  cases kind <;>
    simp [messageOf, messageOfHeader, header, asReceived, Obj.eraseItems, Obj.erase,
      Obj.lookup_cons, PyStr.ofString_beq, pyStr, hne, Obj.toInt, Except.map]

/-- What a payload consists of. -/
theorem payload_eq_ok {p : Bytes} (h : o.payload = .ok p) :
    ∃ headerData messageData, encode (.dict o.header) = .ok headerData ∧
      encode (.dict o.content) = .ok messageData ∧ headerData.length ≤ 255 ∧
      p = UInt8.ofNat headerData.length :: headerData ++ messageData ∧
      p.length ≤ maxPayloadLength := by
  obtain ⟨headerData, hheader, h⟩ := bind_eq_ok.mp h
  split at h
  case isTrue => cases h
  case isFalse hshort =>
    obtain ⟨messageData, hmessage, h⟩ := bind_eq_ok.mp h
    rw [assemble] at h
    split at h
    case isTrue => cases h
    case isFalse hfits =>
      obtain rfl := Except.ok.inj h
      exact ⟨headerData, messageData, hheader, hmessage, Nat.not_lt.mp hshort, rfl,
        Nat.not_lt.mp hfits⟩

/-- The receiver of a payload makes of it what it makes of the message. -/
theorem decodeMessage_of_decode (reprOf : Obj → String) {p : Bytes} (h : o.payload = .ok p)
    (hprotocol : o.protocol ≠ []) {message : Items}
    (hdecode : ∀ data, encode (.dict o.content) = .ok data → decode data = .ok (.dict message)) :
    decodeMessage reprOf p = .ok { o.asReceived with message } := by
  obtain ⟨headerData, messageData, hheader, hmessage, hshort, rfl, -⟩ := payload_eq_ok h
  have hlen : (UInt8.ofNat headerData.length).toNat = headerData.length := by
    rw [UInt8.toNat_ofNat', Nat.mod_eq_of_lt (Nat.lt_succ_of_le hshort)]
  have hwhole : ¬(headerData ++ messageData).length < headerData.length := by
    rw [List.length_append]
    exact Nat.not_lt.mpr (Nat.le_add_right ..)
  rw [List.cons_append, decodeMessage, hlen, if_neg hwhole, List.take_left, List.drop_left,
    decode_header hheader, bind_ok, hdecode messageData hmessage, bind_ok,
    messageOf_header reprOf hprotocol]

/-- **The receiver of a payload recovers what was sent.** -/
theorem decodeMessage_payload (reprOf : Obj → String) {p : Bytes} (h : o.payload = .ok p)
    (hprotocol : o.protocol ≠ []) (hcarried : o.Carried) :
    decodeMessage reprOf p = .ok o.asReceived := by
  refine decodeMessage_of_decode reprOf h hprotocol fun data hdata ↦ ?_
  have hmessage := hcarried data hdata
  rwa [Obj.erase] at hmessage

end Outgoing

end AtvRemote.Hds
