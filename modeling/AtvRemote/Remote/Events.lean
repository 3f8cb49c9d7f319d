import AtvRemote.Hds.Decoder
import AtvRemote.Remote.Streams

/-!
# Malformed events

`_hds_event` converts two fields of a `dataSend` event with `int()`.  Around the stream id it
catches what `int()` raises on anything but an infinite float; around the reason of a `close` it
catches nothing.  What escapes ends `_run`, which closes the connection and fails the active
session.  `ignoresMalformed_iff` says that a malformed event is ignored otherwise.
-/

namespace AtvRemote

open Lib Audio Hds

namespace Obj

/-- `int()` raises `OverflowError` on infinite floats only. -/
theorem toInt_eq_overflowError_iff {v : Obj} :
    (∃ text, v.toInt = .error (.overflowError text)) ↔ ∃ x, v = .float x ∧ x.isInf = true := by
  constructor
  · rintro ⟨text, h⟩
    cases v with
    | float x =>
        refine ⟨x, rfl, ?_⟩
        rw [toInt] at h
        split at h
        · cases h
        · split at h
          · assumption
          · cases h
    | str s | bytes k s =>
        rw [toInt] at h
        split at h <;> cases h
    | _ => cases h
  · rintro ⟨x, rfl, hinf⟩
    have hnan : x.isNaN = false := by
      rw [Float64.isInf, Bool.and_eq_true, beq_iff_eq, beq_iff_eq] at hinf
      rw [Float64.isNaN, hinf.2]
      exact Bool.and_false _
    rw [toInt, hnan, hinf]
    exact ⟨_, rfl⟩

end Obj

namespace Remote

/-- The topic of an event that `_hds_event` looks at. -/
def dataSendTopic (ack : Bool) : PyStr := .ofString (if ack then hdsTopicAck else hdsTopicClose)

/-- `int()` of a field, if the message has it. -/
def intField (message : List (Obj × Obj)) (field : String) : Option (Except PyErr Int) :=
  (Obj.lookup message (.text field)).map Obj.toInt

/-- The stream id, or the reason of a `close`, is missing or not convertible. -/
def Malformed (ack : Bool) (message : List (Obj × Obj)) : Prop :=
  (∀ n, intField message "streamId" ≠ some (.ok n)) ∨
    ack = false ∧ ∀ n, intField message "reason" ≠ some (.ok n)

namespace AppleTVHomeKitRemote

/-- The stream of an event is the one of a session of the connection. -/
def NamesSession {ε T : Type} (r : AppleTVHomeKitRemote ε T) (c : Nat)
    (message : List (Obj × Obj)) : Prop :=
  ∃ streamId sid u, intField message "streamId" = some (.ok streamId) ∧
    r.siriSessions.get streamId = some sid ∧ r.sessions[sid]? = some u ∧ u.connection = c

/-- The stream id is an infinite float, or the event is a `close` of a session of the connection
with a reason that is not convertible. -/
def Escapes {ε T : Type} (r : AppleTVHomeKitRemote ε T) (c : Nat) (ack : Bool)
    (message : List (Obj × Obj)) : Prop :=
  (∃ x, Obj.lookup message (.text "streamId") = some (.float x) ∧ x.isInf = true) ∨
    ack = false ∧ r.NamesSession c message ∧ ∃ e, intField message "reason" = some (.error e)

/-- What malformed events are to do. -/
structure IgnoresMalformed {ε : Type} (json : JsonText) (opus : OpusEncoder ε)
    (r : AppleTVHomeKitRemote ε json.Text) (c : Nat) (ack : Bool) (message : List (Obj × Obj)) :
    Prop where
  /-- Nothing raises out of `_hds_event`. -/
  returns : Malformed ack message →
    (r.hdsEvent json opus c (.ofString hdsProtocolDataSend) (dataSendTopic ack) message).1 = .ok ()
  /-- The connection stays as it is. -/
  stays : Malformed ack message →
    (r.dispatch json opus c (.ofString hdsProtocolDataSend) (dataSendTopic ack) message).isClosed c
      = r.isClosed c
  /-- An event that names no session of the connection changes none. -/
  sessions : ¬ r.NamesSession c message →
    (r.dispatch json opus c (.ofString hdsProtocolDataSend) (dataSendTopic ack) message).sessions =
      r.sessions

section

variable {ε : Type} {json : JsonText} {opus : OpusEncoder ε}
variable {r : AppleTVHomeKitRemote ε json.Text} {c : Nat} {message : List (Obj × Obj)}

/-! ## What `_hds_event` does -/

theorem hdsEvent_dataSend (ack : Bool) :
    r.hdsEvent json opus c (.ofString hdsProtocolDataSend) (dataSendTopic ack) message =
      r.hdsDataSend json opus c ack message := by
  rw [hdsEvent, if_neg (not_not.mpr rfl)]
  cases ack with
  | true => rfl
  | false =>
      rw [if_neg (by decide)]
      rfl

/-- An event that names no session changes nothing, and raises only on an infinite stream id. -/
theorem hdsDataSend_of_not_named (ack : Bool) (hnamed : ¬ r.NamesSession c message) :
    (r.hdsDataSend json opus c ack message).2 = r ∧
      ((∃ e, (r.hdsDataSend json opus c ack message).1 = .error e) ↔
        ∃ text, intField message "streamId" = some (.error (.overflowError text))) := by
  rw [hdsDataSend, ← intField]
  cases hid : intField message "streamId" with
  | none => exact ⟨rfl, iff_of_false (by rintro ⟨_, ⟨⟩⟩) (by rintro ⟨_, ⟨⟩⟩)⟩
  | some converted =>
      cases converted with
      | error e =>
          cases e with
          | overflowError text => exact ⟨rfl, iff_of_true ⟨_, rfl⟩ ⟨text, rfl⟩⟩
          | _ => exact ⟨rfl, iff_of_false (by rintro ⟨_, ⟨⟩⟩) (by rintro ⟨_, ⟨⟩⟩)⟩
      | ok streamId =>
          cases hsid : r.siriSessions.get streamId with
          | none =>
              simp only [hsid]
              exact ⟨trivial, iff_of_false (by rintro ⟨_, ⟨⟩⟩) (by rintro ⟨_, ⟨⟩⟩)⟩
          | some sid =>
              cases hu : r.sessions[sid]? with
              | none =>
                  simp only [hsid, hu]
                  exact ⟨trivial, iff_of_false (by rintro ⟨_, ⟨⟩⟩) (by rintro ⟨_, ⟨⟩⟩)⟩
              | some u =>
                  have hother : u.connection ≠ c := fun heq ↦
                    hnamed ⟨streamId, sid, u, hid, hsid, hu, heq⟩
                  simp only [hsid, hu, if_pos hother]
                  exact ⟨trivial, iff_of_false (by rintro ⟨_, ⟨⟩⟩) (by rintro ⟨_, ⟨⟩⟩)⟩

/-- An event that names a session raises only on the reason of a `close`. -/
theorem hdsDataSend_of_named (ack : Bool) (hnamed : r.NamesSession c message) :
    (∃ e, (r.hdsDataSend json opus c ack message).1 = .error e) ↔
      ack = false ∧ ∃ e, intField message "reason" = some (.error e) := by
  obtain ⟨streamId, sid, u, hid, hsid, hu, hc⟩ := hnamed
  rw [intField] at hid
  rw [hdsDataSend, hid]
  simp only [hsid, hu, if_neg (not_not.mpr hc)]
  cases ack with
  | true =>
      rw [if_pos rfl]
      exact iff_of_false (by rintro ⟨_, ⟨⟩⟩) (by rintro ⟨⟨⟩, -⟩)
  | false =>
      rw [if_neg Bool.false_ne_true, getD, intField]
      cases hreason : Obj.lookup message (.text "reason") with
      | none => exact iff_of_false (by rintro ⟨_, ⟨⟩⟩) (by rintro ⟨-, _, ⟨⟩⟩)
      | some v =>
          rw [Option.getD_some, Option.map_some]
          cases v.toInt with
          | ok reason => exact iff_of_false (by rintro ⟨_, ⟨⟩⟩) (by rintro ⟨-, _, ⟨⟩⟩)
          | error e => exact iff_of_true ⟨e, rfl⟩ ⟨rfl, e, rfl⟩

/-- **What `_hds_event` raises on.** -/
theorem hdsDataSend_error_iff (ack : Bool) :
    (∃ e, (r.hdsDataSend json opus c ack message).1 = .error e) ↔ r.Escapes c ack message := by
  have hinf : (∃ text, intField message "streamId" = some (.error (.overflowError text))) ↔
      ∃ x, Obj.lookup message (.text "streamId") = some (.float x) ∧ x.isInf = true := by
    simp only [intField, Option.map_eq_some_iff]
    constructor
    · rintro ⟨text, v, hv, hint⟩
      obtain ⟨x, rfl, hx⟩ := Obj.toInt_eq_overflowError_iff.mp ⟨text, hint⟩
      exact ⟨x, hv, hx⟩
    · rintro ⟨x, hv, hx⟩
      obtain ⟨text, hint⟩ := Obj.toInt_eq_overflowError_iff.mpr ⟨x, rfl, hx⟩
      exact ⟨text, _, hv, hint⟩
  rw [Escapes, ← hinf]
  by_cases hnamed : r.NamesSession c message
  · rw [hdsDataSend_of_named ack hnamed]
    obtain ⟨streamId, -, -, hid, -, -, -⟩ := id hnamed
    constructor
    · rintro ⟨hack, hreason⟩
      exact .inr ⟨hack, hnamed, hreason⟩
    · rintro (⟨text, hoverflow⟩ | ⟨hack, -, hreason⟩)
      · rw [hid] at hoverflow
        cases hoverflow
      · exact ⟨hack, hreason⟩
  · rw [(hdsDataSend_of_not_named ack hnamed).2]
    exact ⟨.inl, fun h ↦ h.resolve_right fun hclose ↦ hnamed hclose.2.1⟩

/-- What raises is malformed. -/
theorem Escapes.malformed {ack : Bool} (h : r.Escapes c ack message) : Malformed ack message := by
  rcases h with ⟨x, hx, hinf⟩ | ⟨hack, -, e, hreason⟩
  · obtain ⟨text, hint⟩ := Obj.toInt_eq_overflowError_iff.mpr ⟨x, rfl, hinf⟩
    refine .inl fun n hn ↦ ?_
    rw [intField, hx, Option.map_some, hint] at hn
    cases hn
  · refine .inr ⟨hack, fun n hn ↦ ?_⟩
    rw [hreason] at hn
    cases hn

end

/-- **A malformed event is ignored, by any controller, unless its stream id is an infinite float
or it closes a session of its connection with a reason that `int()` raises on.** -/
theorem ignoresMalformed_iff {ε : Type} (json : JsonText) (opus : OpusEncoder ε)
    (r : AppleTVHomeKitRemote ε json.Text) (c : Nat) (ack : Bool) (message : List (Obj × Obj)) :
    r.IgnoresMalformed json opus c ack message ↔ ¬ r.Escapes c ack message := by
  constructor
  · intro h hescapes
    obtain ⟨e, he⟩ : ∃ e, (r.hdsDataSend json opus c ack message).1 = .error e :=
      (hdsDataSend_error_iff ack).mpr hescapes
    have hreturns := h.returns hescapes.malformed
    rw [hdsEvent_dataSend, he] at hreturns
    cases hreturns
  · intro hescapes
    have hok : (r.hdsDataSend json opus c ack message).1 = .ok () := by
      cases h : (r.hdsDataSend json opus c ack message).1 with
      | ok => rfl
      | error e => exact (hescapes (hdsDataSend_error_iff ack |>.mp ⟨e, h⟩)).elim
    have hdispatch : r.dispatch json opus c (.ofString hdsProtocolDataSend) (dataSendTopic ack)
        message = (r.hdsDataSend json opus c ack message).2 := by
      rw [dispatch, handleMessage, if_neg fun h ↦ absurd h.1 (by decide), hdsEvent_dataSend]
      generalize r.hdsDataSend json opus c ack message = x at hok ⊢
      obtain ⟨result, r'⟩ := x
      obtain rfl : result = .ok () := hok
      rfl
    constructor
    · intro _
      rw [hdsEvent_dataSend]
      exact hok
    · intro _
      rw [hdispatch]
      exact (r.sessionsOnly_hdsDataSend c ack message).isClosed c
    · intro hnamed
      rw [hdispatch, (hdsDataSend_of_not_named ack hnamed).1]

end AppleTVHomeKitRemote

open AppleTVHomeKitRemote in
/-- A `close` of the stream that is open, with `null` as its reason: `int(None)` ends the
connection. -/
theorem not_ignoresMalformed_null :
    decode [0xE2, 0x48, 0x73, 0x74, 0x72, 0x65, 0x61, 0x6D, 0x49, 0x64, 0x0F,
        0x46, 0x72, 0x65, 0x61, 0x73, 0x6F, 0x6E, 0x04] =
      .ok (.dict [(.text "streamId", .int 7), (.text "reason", .none)]) ∧
    ∃ r, (remotes .documents .verbatim none).Reachable r ∧
      ¬ r.IgnoresMalformed .documents .verbatim 0 false
        [(.text "streamId", .int 7), (.text "reason", .none)] := by
  refine ⟨rfl, ?_⟩
  have hevent : ((remotes .documents .verbatim none).exec (.new .documents none)
      (requested ++ [opened])).map (fun r ↦ (r.hdsEvent .documents .verbatim 0
        (.ofString hdsProtocolDataSend) (dataSendTopic false)
        [(.text "streamId", .int 7), (.text "reason", .none)]).1) =
      some (Obj.none.toInt.map fun _ ↦ ()) := by
    decide +kernel
  obtain ⟨r, hr, hraises⟩ := Option.map_eq_some_iff.mp hevent
  have hinit : (remotes .documents .verbatim none).Reachable (.new .documents none) := .init rfl
  refine ⟨r, hinit.exec hr, fun h ↦ ?_⟩
  have hmalformed : Malformed false [(.text "streamId", .int 7), (.text "reason", .none)] :=
    .inr ⟨rfl, nofun⟩
  rw [h.returns hmalformed] at hraises
  cases hraises

end Remote

end AtvRemote
