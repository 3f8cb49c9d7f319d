import AtvRemote.Audio.Carried
import AtvRemote.Audio.Delivered

/-!
# The packets on the transport

`_flush_locked` takes frames out of the list and advances `sequence` before it awaits the send,
and sets `_eos_sent` behind it.  A send of `write` or `finish` that is cancelled or raises before
its frame is written loses its packets, and one that raises behind the frame of the last event
forgets that the end of the stream was told; the session stays open, and goes on with the next
frames, or with a second end.  `unbroken_iff` says which writes break the order, and
that none does in a run in which no send fails like that.
-/

namespace AtvRemote.Audio

open Lib

namespace Session

variable {ε : Type}

/-- The packets on the transport are the first of the accepted PCM, numbered on from zero, and
the end of the stream is told at most once. -/
def Unbroken (opus : OpusEncoder ε) (s : Session ε) : Prop :=
  s.sentPackets <+: packetsOf 0 (opus.encodeAll opus.init s.pcmFrames).1 ∧
    s.sentEvents.countP DataEvent.endOfStream ≤ 1

/-- The end of the stream was written to the transport. -/
def EosWritten (s : Session ε) : Prop := ∃ e ∈ s.sentEvents, e.endOfStream = true

/-- The frame of an event with packets is written only behind those of all packets handed over
before, and the end of the stream is written only once. -/
def SendsInOrder (s : Session ε) : Label → Prop
  | .sent t => ∀ e, s.inFlight? t = some (e, false) →
      (e.packets ≠ [] → s.packets = s.sentPackets ++ e.packets) ∧
        (e.endOfStream = true → ¬ s.EosWritten)
  | _ => True

/-- An event whose send raises is that of `_open`, or the session is closed, or the event had no
packets to lose, or it was written and does not end the stream. -/
def FailsSafely (s : Session ε) : Label → Prop
  | .fail t _ => ∀ packets streamId isEos force who phase,
      s.pc? t = some (.sending (.data packets streamId isEos force who) phase) →
        who = .open ∨ s.closed = true ∨ phase = .queued ∧ packets = [] ∨
          phase = .drain ∧ isEos = false
  | _ => True

/-! ## Numbers without a gap -/

/-- The numbers of packets are consecutive. -/
theorem map_sequenceNumber (n : Nat) (frames : List AudioFrame) :
    (packetsOf n frames).map Packet.sequenceNumber = List.range' n frames.length := by
  apply List.ext_getElem
  · rw [List.length_map, length_packetsOf, List.length_range']
  · intro i h h'
    simp [packetsOf]

theorem nodup_packetsOf (n : Nat) (frames : List AudioFrame) : (packetsOf n frames).Nodup := by
  refine List.Nodup.of_map Packet.sequenceNumber ?_
  rw [map_sequenceNumber]
  exact List.nodup_range'

section Order

variable {opus : OpusEncoder ε} {s s' : Session ε} {cc : Bool} {a : Label} {t : Nat}
  {e : DataEvent}

theorem Accounted.nodup (hs : s.Accounted opus) : s.packets.Nodup := by
  refine List.Nodup.sublist ?_ (nodup_packetsOf 0 (opus.encodeAll opus.init s.pcmFrames).1)
  rw [← hs.packets]
  exact List.sublist_append_left _ _

/-- The packets on the transport are the first accepted exactly when they are the first that
were handed over. -/
theorem Accounted.unbroken_iff_gapless (hs : s.Accounted opus) (hord : s.courier.Ordered) :
    s.Unbroken opus ↔ s.courier.Gapless DataEvent.packets ∧
      s.sentEvents.countP DataEvent.endOfStream ≤ 1 := by
  have hprefix : s.packets <+: packetsOf 0 (opus.encodeAll opus.init s.pcmFrames).1 := by
    rw [← hs.packets]
    exact List.prefix_append _ _
  have hle : s.sentPackets.length ≤ s.packets.length :=
    (hord.sublist.flatMap DataEvent.packets).length_le
  refine and_congr_left fun _ ↦ ⟨fun h ↦ ?_, fun h ↦ ?_⟩
  · exact List.prefix_of_prefix_length_le h hprefix hle
  · exact List.IsPrefix.trans h hprefix

theorem eosWritten_of_sentEvents (h : s'.sentEvents = s.sentEvents) :
    s'.EosWritten ↔ s.EosWritten := by
  rw [EosWritten, EosWritten, h]

/-- What was written was handed over. -/
theorem endHanded_of_eosWritten (hord : s.courier.Ordered) (h : s.EosWritten) : s.EndHanded := by
  obtain ⟨e, hmem, he⟩ := h
  exact ⟨e, hord.sublist.subset hmem, he⟩

/-- A step is to the courier what it is to the order of its events. -/
theorem Carries.ordered (h : Carries s a s') (hs : s.courier.Ordered) : s'.courier.Ordered := by
  cases h with
  | rests h => exact h ▸ hs
  | takes e hidle heos h => exact h ▸ hs.take e
  | delivers t e ha ht hway h => exact h ▸ hs.deliver hway
  | returns e hway heos h => exact h ▸ hs.drop
  | raises t err packets streamId isEos force who phase ha ht hway hclosed h => exact h ▸ hs.drop

/-- The frame of an event that is in flight is written. -/
theorem sentEvents_sent (h : s.step opus cc (.sent t) = some s')
    (hflight : s.inFlight? t = some (e, false)) : s'.sentEvents = s.sentEvents ++ [e] := by
  obtain ⟨pc, hpc, hevent⟩ := Option.bind_eq_some_iff.mp hflight
  rw [Pc.event?.eq_def] at hevent
  split at hevent
  · cases hevent
    simp only [step, hpc] at h
    split at h
    · cases h
    · cases h
      show (s.log ++ [_]).filterMap Entry.sentEvent? = _
      rw [List.filterMap_append]
      rfl
  · cases hevent
  · cases hevent

/-- A step that writes no event keeps the order, and no event was to be written. -/
theorem unbroken_keeps (h : s.step opus cc a = some s')
    (hcount : s.sentEvents.countP DataEvent.endOfStream ≤ 1)
    (hsent : s'.sentEvents = s.sentEvents)
    (hgapless : s'.courier.Gapless DataEvent.packets) :
    (s'.courier.Gapless DataEvent.packets ∧ s'.sentEvents.countP DataEvent.endOfStream ≤ 1) ↔
      s.SendsInOrder a := by
  refine iff_of_true ⟨hgapless, hsent ▸ hcount⟩ ?_
  cases a with
  | sent t =>
      intro e hflight
      have hmore := sentEvents_sent h hflight
      rw [hsent] at hmore
      exact (List.cons_ne_nil e [] (List.self_eq_append_right.mp hmore)).elim
  | _ => trivial

/-- **A step leaves the packets on the transport unbroken exactly when it writes in order.** -/
theorem Owned.unbroken_step (hown : s.Owned) (hord : s.courier.Ordered) (hs : s.Accounted opus)
    (hs' : s'.Accounted opus) (h : s.step opus cc a = some s') (hunbroken : s.Unbroken opus) :
    s'.Unbroken opus ↔ s.SendsInOrder a := by
  obtain ⟨hcarries, -⟩ := hown.carries h
  obtain ⟨hgapless, hcount⟩ := (hs.unbroken_iff_gapless hord).mp hunbroken
  rw [hs'.unbroken_iff_gapless (hcarries.ordered hord)]
  cases hcarries with
  | rests hsame =>
      exact unbroken_keeps h hcount (congrArg Courier.delivered hsame)
        (hsame ▸ hgapless)
  | takes e hidle heos htake =>
      exact unbroken_keeps h hcount (congrArg Courier.delivered htake)
        (htake ▸ hgapless.take e)
  | returns e hway heos hdrop =>
      exact unbroken_keeps h hcount (congrArg Courier.delivered hdrop)
        (hdrop ▸ hgapless)
  | raises t err packets streamId isEos force who phase ha ht hway hclosed hdrop =>
      exact unbroken_keeps h hcount (congrArg Courier.delivered hdrop)
        (hdrop ▸ hgapless)
  | delivers t e ha ht hway hdeliver =>
      subst ha
      have hsent : s'.sentEvents = s.sentEvents ++ [e] := congrArg Courier.delivered hdeliver
      have honly : s.SendsInOrder (.sent t) ↔
          (e.packets ≠ [] → s.packets = s.sentPackets ++ e.packets) ∧
            (e.endOfStream = true → ¬ s.EosWritten) := by
        constructor
        · exact fun hall ↦ hall e ht
        · intro hone e' ht'
          rw [ht] at ht'
          cases ht'
          exact hone
      rw [honly, hdeliver, hsent]
      refine and_congr (hord.gapless_deliver_iff hway hs.nodup hgapless) ?_
      rw [List.countP_append, List.countP_singleton]
      cases heos : e.endOfStream with
      | false => simpa using hcount
      | true =>
          have hnone : s.sentEvents.countP DataEvent.endOfStream = 0 ↔ ¬ s.EosWritten := by
            rw [List.countP_eq_zero, EosWritten]
            simp
          simp only [if_true, true_imp_iff, ← hnone]
          exact ⟨fun hle ↦ Nat.le_zero.mp (Nat.le_of_succ_le_succ hle),
            fun hzero ↦ Nat.succ_le_succ (Nat.le_zero.mpr hzero)⟩

end Order

/-! ## Sends that fail safely -/

/-- Every packet handed over is written or waits, and the flag tells whether the end of the
stream was written. -/
structure Whole (s : Session ε) : Prop where
  complete : s.courier.Complete DataEvent.packets
  last : ∀ e, s.courier.underWay = some (e, false) → ¬ s.EosWritten
  eosSent : s.EosWritten →
    s.eosSent = true ∨ ∃ e, e.endOfStream = true ∧ s.courier.underWay = some (e, true)

/-- No data event will be handed over any more. -/
def Shut (s : Session ε) : Prop := s.closed = true ∧ s.courier.underWay = none

section Safe

variable {opus : OpusEncoder ε} {s s' : Session ε} {cc : Bool} {a : Label}

/-- In a session that is whole or shut, an event is written in order. -/
theorem Owned.sendsInOrder (hown : s.Owned) (hs : s.Whole ∨ s.Shut) (a : Label) :
    s.SendsInOrder a := by
  cases a with
  | sent t =>
      intro e hflight
      have hway := (hown.underWay hflight).2
      rcases hs with hs | ⟨-, hnone⟩
      · refine ⟨fun _ ↦ ?_, fun _ ↦ hs.last e hway⟩
        have hall : s.packets = s.sentPackets ++ s.courier.waiting.flatMap DataEvent.packets :=
          hs.complete
        rw [Courier.waiting_of_some hway, List.flatMap_singleton] at hall
        exact hall
      · rw [hnone] at hway
        cases hway
  | _ => trivial

/-- Nothing is handed over behind the end of a stream that was written. -/
theorem Whole.not_eosWritten (hs : s.Whole) (hord : s.courier.Ordered) (hended : s.Ended)
    (hidle : s.courier.underWay = none ∧ s.closed = false ∨
      ∃ e', e'.endOfStream = false ∧ s.courier.underWay = some (e', true))
    (heos : s.ending = true → s.frames = [] → s.eosSent = false) : ¬ s.EosWritten := by
  intro hwritten
  obtain ⟨hending, hframes⟩ := hended (endHanded_of_eosWritten hord hwritten)
  rcases hs.eosSent hwritten with hflag | ⟨e, he, hway⟩
  · rw [heos hending hframes] at hflag
    cases hflag
  · rcases hidle with ⟨hnone, -⟩ | ⟨e', he', hway'⟩
    · rw [hnone] at hway
      cases hway
    · rw [hway] at hway'
      cases hway'
      rw [he] at he'
      cases he'

/-- **A step that fails safely leaves a session whole, or shut.** -/
theorem Carries.whole (hcarries : Carries s a s') (hord : s.courier.Ordered) (hended : s.Ended)
    (hclosed : s.closed = true → s'.closed = true)
    (hflag : s.eosSent = true → s'.eosSent = true) (hsafe : s.FailsSafely a)
    (hs : s.Whole ∨ s.Shut) : s'.Whole ∨ s'.Shut := by
  rcases hs with hs | ⟨hshut, hnone⟩
  · cases hcarries with
    | rests h =>
        have hsent : s'.sentEvents = s.sentEvents := congrArg Courier.delivered h
        have heos := eosWritten_of_sentEvents hsent
        refine .inl ⟨h ▸ hs.complete, fun e hway ↦ ?_, fun hwritten ↦ ?_⟩
        · rw [heos]
          exact hs.last e (h ▸ hway)
        · rw [h]
          exact (hs.eosSent (heos.mp hwritten)).imp_left hflag
    | takes e hidle heos h =>
        have hno := hs.not_eosWritten hord hended hidle heos
        have hsent : s'.sentEvents = s.sentEvents := congrArg Courier.delivered h
        have heos := eosWritten_of_sentEvents hsent
        have hwaiting : s.courier.waiting = [] := by
          rcases hidle with ⟨hnone, -⟩ | ⟨e', -, hway⟩
          · exact Courier.waiting_of_none hnone
          · exact Courier.waiting_of_delivered hway
        refine .inl ⟨h ▸ hs.complete.take hwaiting e, fun _ _ ↦ ?_, fun hwritten ↦ ?_⟩
        · rw [heos]
          exact hno
        · exact (hno (heos.mp hwritten)).elim
    | delivers t e ha ht hway h =>
        have hno := hs.last e hway
        have hsent : s'.sentEvents = s.sentEvents ++ [e] := congrArg Courier.delivered h
        have hway' : s'.courier.underWay = some (e, true) := congrArg Courier.underWay h
        refine .inl ⟨h ▸ hs.complete.deliver hway, fun e' hlast ↦ ?_, ?_⟩
        · rw [hway'] at hlast
          cases hlast
        · rintro ⟨e', hmem, he'⟩
          rw [hsent] at hmem
          rcases List.mem_append.mp hmem with hold | hnew
          · exact (hno ⟨e', hold, he'⟩).elim
          · rw [List.mem_singleton.mp hnew] at he'
            exact .inr ⟨e, he', hway'⟩
    | returns e hway heos h =>
        have hsent : s'.sentEvents = s.sentEvents := congrArg Courier.delivered h
        have hsame := eosWritten_of_sentEvents hsent
        have hway' : s'.courier.underWay = none := congrArg Courier.underWay h
        refine .inl ⟨?_, fun e' hlast ↦ ?_, fun hwritten ↦ .inl ?_⟩
        · rw [h]
          refine hs.complete.drop ?_
          rw [Courier.waiting_of_delivered hway, List.flatMap_nil]
        · rw [hway'] at hlast
          cases hlast
        · rcases hs.eosSent (hsame.mp hwritten) with hold | ⟨e', he', hway''⟩
          · exact hflag hold
          · rw [hway] at hway''
            cases hway''
            exact heos he'
    | raises t err packets streamId isEos force who phase ha ht hway hshuts h =>
        subst ha
        have hsent : s'.sentEvents = s.sentEvents := congrArg Courier.delivered h
        have hsame := eosWritten_of_sentEvents hsent
        have hway' : s'.courier.underWay = none := congrArg Courier.underWay h
        have hwhole : s.courier.waiting.flatMap DataEvent.packets = [] →
            (∀ e, e.endOfStream = true → s.courier.underWay ≠ some (e, true)) → s'.Whole := by
          intro hnone hnot
          refine ⟨h ▸ hs.complete.drop hnone, fun e' hlast ↦ ?_, fun hwritten ↦ .inl ?_⟩
          · rw [hway'] at hlast
            cases hlast
          · rcases hs.eosSent (hsame.mp hwritten) with hold | ⟨e', he', hway''⟩
            · exact hflag hold
            · exact (hnot e' he' hway'').elim
        rcases hsafe packets streamId isEos force who phase ht with
          hopen | hshut | ⟨rfl, rfl⟩ | ⟨rfl, rfl⟩
        · exact .inr ⟨hshuts (.inl hopen), hway'⟩
        · exact .inr ⟨hshuts (.inr hshut), hway'⟩
        · have hway : s.courier.underWay = some (⟨[], isEos⟩, false) := hway
          refine .inl (hwhole ?_ fun e _ hother ↦ ?_)
          · rw [Courier.waiting_of_some hway]
            rfl
          · rw [hway] at hother
            cases hother
        · have hway : s.courier.underWay = some (⟨packets, false⟩, true) := hway
          refine .inl (hwhole ?_ fun e he hother ↦ ?_)
          · rw [Courier.waiting_of_delivered hway]
            rfl
          · rw [hway] at hother
            cases hother
            cases he
  · right
    cases hcarries with
    | rests h => exact ⟨hclosed hshut, h ▸ hnone⟩
    | takes e hidle =>
        rcases hidle with ⟨-, hopen⟩ | ⟨e', -, hway⟩
        · rw [hshut] at hopen
          cases hopen
        · rw [hnone] at hway
          cases hway
    | delivers t e ha ht hway =>
        rw [hnone] at hway
        cases hway
    | returns e hway =>
        rw [hnone] at hway
        cases hway
    | raises t err packets streamId isEos force who phase ha ht hway hshuts h =>
        exact ⟨hclosed hshut, congrArg Courier.underWay h⟩

end Safe

theorem owned_new (encoder : ε) : (Session.new encoder).Owned := by
  intro t h
  cases h

theorem ordered_courier_new (encoder : ε) : (Session.new encoder).courier.Ordered where
  sublist := List.Sublist.slnil
  last e h := by cases h

theorem whole_new (encoder : ε) : (Session.new encoder).Whole where
  complete := rfl
  last e h := by cases h
  eosSent h := by
    obtain ⟨e, hmem, -⟩ := h
    cases hmem

theorem unbroken_new (opus : OpusEncoder ε) : (Session.new opus.init).Unbroken opus :=
  ⟨List.nil_prefix, Nat.zero_le 1⟩

end Session

/-! ## Runs -/

/-- The packets on the transport are unbroken. -/
def Unbroken {ε : Type} (opus : OpusEncoder ε) (s : Live ε) : Prop := s.session.Unbroken opus

/-- Events are written in order. -/
def SendsInOrder {ε : Type} (s : Live ε) : Event → Prop
  | .session a => s.session.SendsInOrder a
  | .connectionClosed => True

/-- Sends of events fail safely. -/
def FailsSafely {ε : Type} (s : Live ε) : Event → Prop
  | .session a => s.session.FailsSafely a
  | .connectionClosed => True

/-- **The packets on the transport are unbroken throughout a run exactly when each event is
written behind those handed over before it; and it is when the sends that fail do so safely.** -/
theorem unbroken_iff {ε : Type} (opus : OpusEncoder ε) (h : List (Live ε × Event)) (s : Live ε)
    (hrun : (sessions opus).Run h s) :
    (((∀ p ∈ h, Unbroken opus p.1) ∧ Unbroken opus s) ↔ ∀ p ∈ h, SendsInOrder p.1 p.2) ∧
      ((∀ p ∈ h, FailsSafely p.1 p.2) → (∀ p ∈ h, Unbroken opus p.1) ∧ Unbroken opus s) := by
  suffices hmain : s.session.Proper ∧ s.session.Ended ∧ s.session.Owned ∧
      s.session.courier.Ordered ∧
      (((∀ p ∈ h, Unbroken opus p.1) ∧ Unbroken opus s) ↔ ∀ p ∈ h, SendsInOrder p.1 p.2) ∧
      ((∀ p ∈ h, FailsSafely p.1 p.2) →
        (s.session.Whole ∨ s.session.Shut) ∧ ∀ p ∈ h, SendsInOrder p.1 p.2) by
    obtain ⟨-, -, -, -, hiff, hsafe⟩ := hmain
    exact ⟨hiff, fun hfails ↦ hiff.mpr (hsafe hfails).2⟩
  induction hrun with
  | @init s hinit =>
      have hinit : s = ⟨.new opus.init, false⟩ := hinit
      subst hinit
      refine ⟨Session.proper_new opus.init, Session.ended_new opus.init,
        Session.owned_new opus.init, Session.ordered_courier_new opus.init, ⟨?_, ?_⟩, ?_⟩
      · exact fun _ ↦ List.forall_mem_nil _
      · exact fun _ ↦ ⟨List.forall_mem_nil _, Session.unbroken_new opus⟩
      · exact fun _ ↦ ⟨.inl (Session.whole_new opus.init), List.forall_mem_nil _⟩
  | @step h s s' a hr hstep ih =>
      obtain ⟨hproper, hended, howned, hord, hiff, hsafe⟩ := ih
      have hacc := accounted opus hr.reachable
      have hacc' := accounted opus (hr.step hstep).reachable
      have hsplit : ∀ P : Live ε × Event → Prop,
          (∀ p ∈ h ++ [(s, a)], P p) ↔ (∀ p ∈ h, P p) ∧ P (s, a) := by
        intro P
        simp [or_imp, forall_and]
      -- what the step leaves, and what it says of the order
      obtain ⟨hproper', hended', howned', hord', hunbroken, hwhole⟩ :
          s'.session.Proper ∧ s'.session.Ended ∧ s'.session.Owned ∧ s'.session.courier.Ordered ∧
          (Unbroken opus s → (Unbroken opus s' ↔ SendsInOrder s a)) ∧
          (s.session.Whole ∨ s.session.Shut → FailsSafely s a →
            (s'.session.Whole ∨ s'.session.Shut) ∧ SendsInOrder s a) := by
        cases a with
        | connectionClosed =>
            cases hstep
            exact ⟨hproper, hended, howned, hord, fun hhere ↦ ⟨fun _ ↦ trivial, fun _ ↦ hhere⟩,
              fun hwhole _ ↦ ⟨hwhole, trivial⟩⟩
        | session a =>
            obtain ⟨session, hsession, rfl⟩ := Option.map_eq_some_iff.mp hstep
            obtain ⟨hcarries, howned'⟩ := howned.carries hsession
            exact ⟨hproper.step hsession, (hproper.further hsession).ended hended, howned',
              hcarries.ordered hord, howned.unbroken_step hord hacc hacc' hsession,
              fun hwhole hfails ↦ ⟨hcarries.whole hord hended (Session.step_closed hsession)
                (Session.eosSent_step hsession) hfails hwhole, howned.sendsInOrder hwhole a⟩⟩
      refine ⟨hproper', hended', howned', hord', ?_, ?_⟩
      · rw [hsplit, hsplit]
        constructor
        · rintro ⟨⟨hbefore, hhere⟩, hnext⟩
          exact ⟨hiff.mp ⟨hbefore, hhere⟩, (hunbroken hhere).mp hnext⟩
        · rintro ⟨hbefore, hlast⟩
          obtain ⟨hpast, hhere⟩ := hiff.mpr hbefore
          exact ⟨⟨hpast, hhere⟩, (hunbroken hhere).mpr hlast⟩
      · rw [hsplit, hsplit]
        rintro ⟨hbefore, hlast⟩
        obtain ⟨hstate, horder⟩ := hsafe hbefore
        obtain ⟨hstate', hnow⟩ := hwhole hstate hlast
        exact ⟨hstate', horder, hnow⟩

/-- A session is opened with stream 7, and five frames of silence are written; the write is
cancelled while it waits for the send lock of the connection. -/
def cancelledWrite : List Event :=
  [.session .start, .session (.run 0), .session (.sent 0), .session (.resume 0),
    .session (.response 0 0 [(.text "streamId", .int 7)] none),
    .session (.call (.write (List.replicate (5 * frameBytes) 0))), .session (.run 1),
    .session (.fail 1 .cancelledError)]

/-- The write that is cancelled, with nothing written behind it. -/
theorem unbroken_iff_cancelledWrite :
    ∃ s, (sessions .verbatim).exec ⟨.new (), false⟩ cancelledWrite = some s ∧
      (s.session.sequence, s.session.sentPackets) = (5, []) ∧
      (((∀ p ∈ (sessions .verbatim).trace ⟨.new (), false⟩ cancelledWrite,
          Unbroken .verbatim p.1) ∧ Unbroken .verbatim s) ↔
        ∀ p ∈ (sessions .verbatim).trace ⟨.new (), false⟩ cancelledWrite,
          SendsInOrder p.1 p.2) ∧
      ((∀ p ∈ (sessions .verbatim).trace ⟨.new (), false⟩ cancelledWrite,
          FailsSafely p.1 p.2) →
        (∀ p ∈ (sessions .verbatim).trace ⟨.new (), false⟩ cancelledWrite,
          Unbroken .verbatim p.1) ∧ Unbroken .verbatim s) := by
  have hend : ((sessions .verbatim).exec ⟨.new (), false⟩ cancelledWrite).map
      (fun s ↦ (s.session.sequence, s.session.sentPackets)) = some (5, []) := by decide +kernel
  obtain ⟨s, hs, hsent⟩ := Option.map_eq_some_iff.mp hend
  have hinit : (sessions .verbatim).Run [] ⟨.new (), false⟩ := .init rfl
  exact ⟨s, hs, hsent, unbroken_iff .verbatim _ s (hinit.exec hs)⟩

/-- The last event of a `finish` is written, the `finish` is cancelled in the drain, and another
one comes. -/
def finishedTwice : List Event :=
  [.session .start, .session (.run 0), .session (.sent 0), .session (.resume 0),
    .session (.response 0 0 [(.text "streamId", .int 7)] none),
    .session (.call (.finish true false)), .session (.run 1), .session (.sent 1),
    .session (.fail 1 .cancelledError),
    .session (.call (.finish true false)), .session (.run 2), .session (.sent 2)]

/-- The next write goes on with packet 5, where packets 0 to 4 were never written; and the
second `finish` tells the end of the stream again. -/
theorem not_unbroken_of_cancelled :
    (∃ s, (sessions .verbatim).Reachable s ∧ s.session.closed = false ∧
      s.session.sentPackets.map Packet.sequenceNumber = [5, 6, 7, 8, 9] ∧
      ¬ Unbroken .verbatim s) ∧
    ∃ s, (sessions .verbatim).Reachable s ∧ s.session.closed = false ∧
      s.session.sentEvents = [⟨[], true⟩, ⟨[], true⟩] ∧ ¬ Unbroken .verbatim s := by
  have hinit : (sessions .verbatim).Reachable ⟨.new (), false⟩ := .init rfl
  constructor
  · have hend : ((sessions .verbatim).exec ⟨.new (), false⟩ (cancelledWrite ++
        [.session (.call (.write (List.replicate (5 * frameBytes) 0))), .session (.run 2),
          .session (.sent 2)])).map
        (fun s ↦ (s.session.closed, s.session.sentPackets.map Packet.sequenceNumber)) =
          some (false, [5, 6, 7, 8, 9]) := by decide +kernel
    obtain ⟨s, hs, hfound⟩ := Option.map_eq_some_iff.mp hend
    obtain ⟨hopen, hnumbers⟩ := Prod.mk.inj hfound
    refine ⟨s, hinit.exec hs, hopen, hnumbers, ?_⟩
    rintro ⟨⟨rest, hall⟩, -⟩
    have hall := congrArg (List.map Packet.sequenceNumber) hall
    rw [List.map_append, hnumbers, Session.map_sequenceNumber] at hall
    generalize List.length _ = n at hall
    cases n with
    | zero => cases hall
    | succ n => cases hall
  · have hend : ((sessions .verbatim).exec ⟨.new (), false⟩ finishedTwice).map
        (fun s ↦ (s.session.closed, s.session.sentEvents)) =
          some (false, [⟨[], true⟩, ⟨[], true⟩]) := by decide
    obtain ⟨s, hs, hfound⟩ := Option.map_eq_some_iff.mp hend
    obtain ⟨hopen, hevents⟩ := Prod.mk.inj hfound
    refine ⟨s, hinit.exec hs, hopen, hevents, ?_⟩
    rintro ⟨-, hcount⟩
    rw [hevents] at hcount
    exact absurd hcount (by decide)

end AtvRemote.Audio
