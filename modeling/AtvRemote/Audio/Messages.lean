import AtvRemote.Audio.Carried
import AtvRemote.Hds.Message
import AtvRemote.Hds.Transparent

/-!
# What a session says to the Apple TV

The calls of `send_event` and `send_request` in `audio`, with the messages they are made with,
and a reading of decoded messages that gives them back.  The level of a packet is the one value
that changes on the way: `Float32` rounds it.  Nothing else does (`ofMessage?_payload`); the
encoder may refer back to an earlier zero in place of a level, which is the same as long as no
level has a sign.
-/

namespace AtvRemote

open Lib

/-! ## Reading a decoded object -/

namespace Obj

/-- The items of a `dict`. -/
def items? : Obj → Option (List (Obj × Obj))
  | .dict items => some items
  | _ => Option.none

/-- The elements of a list. -/
def elems? : Obj → Option (List Obj)
  | .seq _ xs => some xs
  | _ => Option.none

/-- A byte string. -/
def bytes? : Obj → Option Bytes
  | .bytes _ b => some b
  | _ => Option.none

/-- An integer. -/
def int? : Obj → Option Int
  | .int n => some n
  | _ => Option.none

/-- A float. -/
def float? : Obj → Option Float64
  | .float x => some x
  | _ => Option.none

/-- A Boolean. -/
def bool? : Obj → Option Bool
  | .bool b => some b
  | _ => Option.none

end Obj

theorem HDSCloseReason.ofInt?_toInt (reason : HDSCloseReason) :
    ofInt? reason.toInt = some reason := by
  cases reason <;> rfl

/-- The single-precision number that a float is rounded to. -/
def Float64.single (x : Float64) : Float64 :=
  match x.pack32 with
  | some b => .unpack32 b
  | none => x

namespace Audio

open Hds

/-! ## Messages -/

/-- A packet as `_flush_locked` puts it into a message. -/
def Packet.toObj (p : Packet) : Obj :=
  .dict [(.text "data", .bytes .bytes p.data),
    (.text "metadata", .dict [(.text "rms", .float32 p.rms),
      (.text "sequenceNumber", .intN .int64 p.sequenceNumber)])]

namespace Outgoing

/-- The topic of a call. -/
def topic : Outgoing → PyStr
  | .open => .ofString hdsTopicOpen
  | .data _ _ _ => .ofString hdsTopicData
  | .close _ _ => .ofString hdsTopicClose

/-- The message of a call. -/
def message : Outgoing → Items
  | .open => [(.text "target", .text "controller"), (.text "type", .text "audio.siri")]
  | .data packets streamId endOfStream =>
      [(.text "packets", .list (packets.map Packet.toObj)),
        (.text "streamId", .intN .int64 streamId), (.text "endOfStream", .bool endOfStream)]
  | .close streamId reason =>
      [(.text "streamId", .intN .int64 streamId), (.text "reason", .intN .int64 reason.toInt)]

/-- `send_request` for the open, with the id that it draws, and `send_event` for the rest. -/
def kind (requestId : Nat) : Outgoing → OutgoingKind
  | .open => .request requestId
  | _ => .event

/-- The call that the connection gets. -/
def toHds (o : Outgoing) (requestId : Nat) : Hds.Outgoing :=
  ⟨o.kind requestId, .ofString hdsProtocolDataSend, o.topic, some o.message⟩

end Outgoing

/-! ## Reading a message -/

/-- The value under a key, read as a value of one type. -/
def field {α : Type} (items : Items) (key : String) (read : Obj → Option α) : Option α :=
  (Obj.lookup items (.text key)).bind read

/-- The packet that an element of `packets` describes. -/
def Packet.ofObj? (x : Obj) : Option Packet := do
  let items ← x.items?
  let data ← field items "data" Obj.bytes?
  let metadata ← field items "metadata" Obj.items?
  let rms ← field metadata "rms" Obj.float?
  let sequenceNumber ← field metadata "sequenceNumber" Obj.int?
  return ⟨data, rms, sequenceNumber.toNat⟩

namespace Outgoing

/-- A `dataSend/data` event. -/
def ofData? (items : Items) : Option Outgoing := do
  let packets ← field items "packets" Obj.elems?
  let streamId ← field items "streamId" Obj.int?
  let endOfStream ← field items "endOfStream" Obj.bool?
  return .data (← packets.mapM Packet.ofObj?) streamId endOfStream

/-- A `dataSend/close` event. -/
def ofClose? (items : Items) : Option Outgoing := do
  let streamId ← field items "streamId" Obj.int?
  let reason ← field items "reason" Obj.int?
  return .close streamId (← HDSCloseReason.ofInt? reason)

/-- What a decoded message says, if it is one of a session. -/
def ofMessage? (m : Message) : Option Outgoing :=
  if m.protocol != .ofString hdsProtocolDataSend then none
  else match m.kind with
    | .request => if m.topic == .ofString hdsTopicOpen then some .open else none
    | .event =>
        if m.topic == .ofString hdsTopicData then ofData? m.message
        else if m.topic == .ofString hdsTopicClose then ofClose? m.message
        else none
    | .response => none

/-- What the levels of the packets are rounded to on the way. -/
def rounded : Outgoing → Outgoing
  | .data packets streamId endOfStream =>
      .data (packets.map fun p ↦ { p with rms := p.rms.single }) streamId endOfStream
  | o => o

/-- No level has a sign. -/
def Unsigned : Outgoing → Prop
  | .data packets _ _ => ∀ p ∈ packets, p.rms.negative = false
  | _ => True

end Outgoing

/-! ## A message survives the wire -/

theorem aloneList_map {α : Type} (f : α → Obj) (xs : List α) :
    Obj.aloneList (xs.map f) = xs.map fun x ↦ (f x).alone := by
  induction xs with
  | nil => rfl
  | cons x xs ih => rw [List.map_cons, Obj.aloneList, ih, List.map_cons]

theorem alone_toObj (p : Packet) :
    p.toObj.alone = .dict [(.text "data", .bytes .bytes p.data),
      (.text "metadata", .dict [(.text "rms", (Obj.float32 p.rms).alone),
        (.text "sequenceNumber", .int p.sequenceNumber)])] := by
  simp only [Packet.toObj, Obj.alone, Obj.aloneItems, Obj.setItem, Obj.erase]
  rfl

/-- The items that a message decodes to. -/
def Outgoing.decoded : Outgoing → Items
  | .open => [(.text "target", .text "controller"), (.text "type", .text "audio.siri")]
  | .data packets streamId endOfStream =>
      [(.text "packets", .list (packets.map fun p ↦ p.toObj.alone)),
        (.text "streamId", .int streamId), (.text "endOfStream", .bool endOfStream)]
  | .close streamId reason =>
      [(.text "streamId", .int streamId), (.text "reason", .int reason.toInt)]

theorem alone_message (o : Outgoing) : (Obj.dict o.message).alone = .dict o.decoded := by
  cases o with
  | «open» | close =>
      simp only [Outgoing.message, Obj.alone, Obj.aloneItems, Obj.setItem, Obj.erase]
      rfl
  | data packets streamId endOfStream =>
      simp only [Outgoing.message, Obj.alone, Obj.aloneItems, Obj.setItem, Obj.erase,
        aloneList_map]
      rfl

theorem unreadableList_map {α : Type} (f : α → Obj) (xs : List α)
    (h : ∀ x ∈ xs, (f x).unreadable = false) : Obj.unreadableList (xs.map f) = false := by
  refine Obj.unreadableList_eq_false.mpr fun y hy ↦ ?_
  obtain ⟨x, hx, rfl⟩ := List.mem_map.mp hy
  exact h x hx

/-- The decoder can read every message of a session. -/
theorem unreadable_message (o : Outgoing) : (Obj.dict o.message).unreadable = false := by
  cases o with
  | «open» | close => rfl
  | data packets streamId endOfStream =>
      have hpackets := unreadableList_map Packet.toObj packets fun _ _ ↦ rfl
      simp only [Outgoing.message, Obj.unreadable, Obj.unreadableItems, hpackets]
      rfl

/-- A zero among the scalars of a message without signs has none. -/
theorem zero_leaves {o : Outgoing} (ho : o.Unsigned) {x : Obj}
    (hx : x ∈ (Obj.dict o.message).leaves) {tag : Nat} {sign : Bool}
    (hzero : x.zero? tag = some sign) : sign = false := by
  cases o with
  | «open» | close =>
      simp only [Outgoing.message, Obj.leaves, Obj.leavesItems, List.mem_append, List.mem_singleton,
        List.not_mem_nil, or_false] at hx
      rcases hx with rfl | rfl | rfl | rfl <;> cases hzero
  | data packets streamId endOfStream =>
      simp only [Outgoing.message, Obj.leaves, Obj.leavesItems, List.mem_append, List.mem_singleton,
        List.not_mem_nil, or_false, Obj.mem_leavesList] at hx
      rcases hx with rfl | ⟨y, hy, hx⟩ | rfl | rfl | rfl | rfl
      · cases hzero
      · obtain ⟨p, hp, rfl⟩ := List.mem_map.mp hy
        simp only [Packet.toObj, Obj.leaves, Obj.leavesItems, List.mem_append, List.mem_singleton,
          List.not_mem_nil, or_false] at hx
        rcases hx with rfl | rfl | rfl | rfl | rfl | rfl | rfl
        · cases hzero
        · cases hzero
        · cases hzero
        · cases hzero
        · rw [Obj.zero?] at hzero
          split at hzero
          · exact (Option.some.inj hzero).symm.trans (ho p hp)
          · cases hzero
        · cases hzero
        · cases hzero
      · cases hzero
      · cases hzero
      · cases hzero
      · cases hzero

theorem zerosAgree_message {o : Outgoing} (ho : o.Unsigned) :
    Obj.ZerosAgree (Obj.dict o.message).leaves := by
  intro before x mid y after heq _ tag s s' _ hx hy
  have hmem : ∀ z, z = x ∨ z = y → z ∈ (Obj.dict o.message).leaves := by
    intro z hz
    rw [heq]
    rcases hz with rfl | rfl <;> simp
  rw [zero_leaves ho (hmem x (.inl rfl)) hx, zero_leaves ho (hmem y (.inr rfl)) hy]

/-! ## The reading gives the call back -/

theorem decoded_value {items : Items} (h : (Obj.dict items).Decoded) {p : Obj × Obj}
    (hp : p ∈ items) : p.2.Decoded := by
  cases h with
  | scalar _ hscalar => cases hscalar
  | dict _ _ values => exact values p hp

theorem decoded_elem {xs : List Obj} (h : (Obj.list xs).Decoded) {x : Obj} (hx : x ∈ xs) :
    x.Decoded := by
  cases h with
  | scalar _ hscalar => cases hscalar
  | list _ elems => exact elems x hx

/-- The decoder makes no `Float32`, so that its bytes were there. -/
theorem alone_float32 {x : Float64} (h : (Obj.float32 x).alone.Decoded) :
    (Obj.float32 x).alone = .float x.single := by
  rw [Obj.alone, Float64.single] at *
  cases hb : x.pack32 with
  | some b => rfl
  | none =>
      rw [hb] at h
      cases h with
      | scalar _ hscalar => cases hscalar

/-- A packet that was decoded is read as it was, with its level rounded. -/
theorem ofObj?_alone {p : Packet} (h : p.toObj.alone.Decoded) :
    Packet.ofObj? p.toObj.alone = some { p with rms := p.rms.single } := by
  rw [alone_toObj] at h ⊢
  have hmetadata := decoded_value h (List.mem_cons_of_mem _ (List.mem_singleton_self _))
  rw [alone_float32 (decoded_value hmetadata List.mem_cons_self)]
  rfl

theorem mapM_ofObj?_alone {packets : List Packet}
    (h : ∀ p ∈ packets, p.toObj.alone.Decoded) :
    (packets.map fun p ↦ p.toObj.alone).mapM Packet.ofObj? =
      some (packets.map fun p ↦ { p with rms := p.rms.single }) := by
  induction packets with
  | nil => rfl
  | cons p packets ih =>
      obtain ⟨hp, hpackets⟩ := List.forall_mem_cons.mp h
      rw [List.map_cons, List.mapM_cons, ofObj?_alone hp, ih hpackets]
      rfl

theorem ofMessage?_data (items : Items) (requestId status : Option Int) :
    Outgoing.ofMessage? ⟨.event, .ofString hdsProtocolDataSend, .ofString hdsTopicData, items,
      requestId, status⟩ = Outgoing.ofData? items := rfl

theorem ofMessage?_close (items : Items) (requestId status : Option Int) :
    Outgoing.ofMessage? ⟨.event, .ofString hdsProtocolDataSend, .ofString hdsTopicClose, items,
      requestId, status⟩ = Outgoing.ofClose? items := rfl

/-- A call that was decoded is read as it was, with its levels rounded. -/
theorem ofMessage?_decoded (o : Outgoing) (requestId : Nat) (h : (Obj.dict o.decoded).Decoded) :
    Outgoing.ofMessage? { (o.toHds requestId).asReceived with message := o.decoded } =
      some o.rounded := by
  cases o with
  | «open» => rfl
  | data packets streamId endOfStream =>
      have helems := decoded_value h List.mem_cons_self
      have hpackets := mapM_ofObj?_alone fun p hp ↦
        decoded_elem helems (List.mem_map_of_mem (f := fun p ↦ p.toObj.alone) hp)
      have hread : Outgoing.ofData? (Outgoing.decoded (.data packets streamId endOfStream)) =
          ((packets.map fun p ↦ p.toObj.alone).mapM Packet.ofObj?).bind fun packets ↦
            some (.data packets streamId endOfStream) := rfl
      rw [hpackets] at hread
      exact (ofMessage?_data ..).trans hread
  | close streamId reason =>
      have hread : Outgoing.ofClose? (Outgoing.decoded (.close streamId reason)) =
          (HDSCloseReason.ofInt? reason.toInt).bind fun reason ↦
            some (.close streamId reason) := rfl
      rw [HDSCloseReason.ofInt?_toInt] at hread
      exact (ofMessage?_close ..).trans hread

/-- **What the connection encrypts for a call reads as the call, with its levels rounded.** -/
theorem ofMessage?_payload (reprOf : Obj → String) {o : Outgoing} (ho : o.Unsigned)
    {requestId : Nat} {payload : Bytes} (h : (o.toHds requestId).payload = .ok payload) :
    ∃ m, decodeMessage reprOf payload = .ok m ∧ Outgoing.ofMessage? m = some o.rounded := by
  obtain ⟨_, messageData, _, hmessage, -⟩ := Hds.Outgoing.payload_eq_ok h
  have hdecode := decode_alone hmessage (unreadable_message o) (zerosAgree_message ho)
  rw [show (Obj.dict (o.toHds requestId).content).alone = _ from alone_message o] at hdecode
  refine ⟨_, Hds.Outgoing.decodeMessage_of_decode reprOf h (by rintro ⟨⟩) ?_,
    ofMessage?_decoded o requestId (decoded_of_decode hdecode)⟩
  intro data hdata
  rw [hmessage] at hdata
  rwa [← Except.ok.inj hdata]

end Audio

end AtvRemote
