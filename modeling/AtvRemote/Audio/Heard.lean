import AtvRemote.Audio.Linked
import AtvRemote.Audio.Unbroken
import AtvRemote.Hds.Outbound
import AtvRemote.Lib.Simulation

/-!
# What the Apple TV hears

The bytes that a connection has written open to whole messages, and each of them is what a task
of one session sent, or the answer to the greeting.  So on a stream that is one session's alone
the Apple TV hears what that session wrote, and its packets are encodings of the PCM that the
session accepted, in order; nothing of them is missing as long as no send has raised
(`streams_heard`).
-/

namespace AtvRemote.Audio

open Lib Hds

/-! ## Streams -/

namespace Outgoing

/-- The stream of an event. -/
def streamId? : Outgoing → Option Int
  | .open => none
  | .data _ streamId _ | .close streamId _ => some streamId

/-- The packets of an event. -/
def packets : Outgoing → List Packet
  | .data packets _ _ => packets
  | _ => []

/-- The event ends its stream. -/
def ends : Outgoing → Bool
  | .data _ _ endOfStream => endOfStream
  | _ => false

theorem streamId?_rounded (o : Outgoing) : o.rounded.streamId? = o.streamId? := by
  cases o <;> rfl

end Outgoing

/-- A packet whose level has been on the wire. -/
def Packet.rounded (p : Packet) : Packet := { p with rms := p.rms.single }

theorem Outgoing.packets_rounded (o : Outgoing) :
    o.rounded.packets = o.packets.map Packet.rounded := by
  cases o <;> rfl

/-- The call of a data event raised. -/
def Entry.drops : Entry → Bool
  | .raised (.data _ _ _) => true
  | _ => false

namespace Session

variable {ε : Type} {opus : OpusEncoder ε} {s s' : Session ε} {cc : Bool} {a : Label} {t : Nat}

/-! ## What a session writes -/

/-- The send of a data event has raised. -/
def dropped (s : Session ε) : Bool := s.log.any Entry.drops

theorem packets_writes (s : Session ε) : s.writes.flatMap Outgoing.packets = s.sentPackets := by
  rw [writes, sentPackets, sentEvents]
  induction s.log with
  | nil => rfl
  | cons entry log ih =>
      cases entry with
      | written o =>
          cases o with
          | data packets streamId endOfStream => exact congrArg (packets ++ ·) ih
          | «open» | close => exact ih
      | handed | raised | received => exact ih

theorem ends_writes (s : Session ε) :
    s.writes.countP Outgoing.ends = s.sentEvents.countP DataEvent.endOfStream := by
  rw [writes, sentEvents]
  induction s.log with
  | nil => rfl
  | cons entry log ih =>
      cases entry with
      | written o =>
          cases o with
          | data packets streamId endOfStream =>
              show List.countP _ (_ :: _) = List.countP _ (_ :: _)
              rw [List.countP_cons, List.countP_cons, ih]
              rfl
          | «open» | close =>
              show List.countP _ (_ :: _) = _
              rw [List.countP_cons, ih]
              rfl
      | handed | raised | received => exact ih

/-! ### The record grows -/

theorem prefix_record (entry : Entry) (h : s'.log = (s.record entry).log) : s.log <+: s'.log :=
  h ▸ List.prefix_append _ _

theorem Begins.log {b : Session ε} {k : Task} (h : Begins s a t k b) : b.log = s.log := by
  cases h with
  | runs b h => exact h.log
  | cancels => rfl
  | opens => rfl

theorem Outcome.log_prefix {k : Task} (h : Outcome s cc t k s') : s.log <+: s'.log := by
  cases h with
  | rests b pc h => exact h.log ▸ List.prefix_rfl
  | event b _ _ _ _ _ h =>
      rw [← h.log]
      exact List.prefix_append _ _
  | close => exact List.prefix_append _ _
  | noClose who => cases who <;> exact List.prefix_rfl
  | noStream => exact List.prefix_rfl

theorem Turn.log_prefix {k : Task} (h : Turn s cc a t k s') : s.log <+: s'.log := by
  cases h with
  | request => exact List.prefix_append _ _
  | written send => exact List.prefix_append _ _
  | runs b s' _ hb h => exact hb.log ▸ h.log_prefix
  | closeSent streamId reason who => cases who <;> exact List.prefix_rfl
  | requestRaised => exact List.prefix_append _ _
  | eventRaised packets streamId isEos force who => cases who <;> exact List.prefix_append _ _
  | closeRaised streamId reason who => cases who <;> exact List.prefix_append _ _
  | requestSent | unstarted | refused | openRaised => exact List.prefix_rfl

theorem Proper.log_prefix (hs : s.Proper) (h : s.step opus cc a = some s') : s.log <+: s'.log := by
  rcases hs.turn_cases h with
    ⟨-, rfl⟩ | ⟨c, -, -, rfl⟩ | ⟨reason, -, rfl⟩ | ⟨t, k, -, -, hturn⟩
  · rw [Session.start]
    split <;> exact List.prefix_rfl
  · exact List.prefix_rfl
  · rcases s.handleClose_cases reason with ⟨-, heq⟩ | ⟨-, heq⟩
    · exact prefix_record (.received reason) (congrArg Session.log heq)
    · rw [heq]
      exact List.prefix_append _ _
  · exact hturn.log_prefix

/-- What was dropped stays so. -/
theorem Proper.dropped (hs : s.Proper) (h : s.step opus cc a = some s')
    (hdropped : s.dropped = true) : s'.dropped = true := by
  obtain ⟨entry, hmem, hdrops⟩ := List.any_eq_true.mp hdropped
  exact List.any_eq_true.mpr ⟨entry, (hs.log_prefix h).subset hmem, hdrops⟩

/-- The send of a data event that raises drops it. -/
theorem dropped_fail {packets : List Packet} {streamId : Int} {isEos force : Bool} {who : Flusher}
    {phase : SendPhase} {e : PyErr}
    (hpc : s.pc? t = some (.sending (.data packets streamId isEos force who) phase))
    (h : s.step opus cc (.fail t e) = some s') : s'.dropped = true := by
  rw [step, hpc, Option.bind_some] at h
  cases h
  refine List.any_eq_true.mpr ⟨.raised (.data packets streamId isEos), ?_, rfl⟩
  have hlast : Entry.raised (.data packets streamId isEos) ∈
      (s.record (.raised (.data packets streamId isEos))).log :=
    List.mem_append_right _ (List.mem_singleton_self _)
  cases who <;> exact hlast

/-! ### Nothing is lost -/

/-- A step that drops nothing loses nothing. -/
theorem Carries.complete (h : Carries s a s') (hstep : s.step opus cc a = some s')
    (hkept : s'.dropped = false) (hs : s.courier.Complete DataEvent.packets) :
    s'.courier.Complete DataEvent.packets := by
  cases h with
  | rests h => exact h ▸ hs
  | takes e hidle heos h =>
      have hwaiting : s.courier.waiting = [] := by
        rcases hidle with ⟨hnone, -⟩ | ⟨e', -, hway⟩
        · exact Courier.waiting_of_none hnone
        · exact Courier.waiting_of_delivered hway
      exact h ▸ hs.take hwaiting e
  | delivers t e ha ht hway h => exact h ▸ hs.deliver hway
  | returns e hway heos h =>
      rw [h]
      refine hs.drop ?_
      rw [Courier.waiting_of_delivered hway, List.flatMap_nil]
  | raises t err packets streamId isEos force who phase ha ht =>
      rw [ha] at hstep
      rw [dropped_fail ht hstep] at hkept
      cases hkept

/-- A session as the connection gets it. -/
structure Sends (opus : OpusEncoder ε) (s : Session ε) : Prop where
  regular : s.Regular opus
  owned : s.Owned
  ordered : s.courier.Ordered
  /-- What a session writes is for its stream. -/
  streams : ∀ o ∈ s.writes, ∀ n, o.streamId? = some n → s.streamId = some n
  complete : s.dropped = false → s.courier.Complete DataEvent.packets ∧ (s.Whole ∨ s.Shut) ∧
    s.Unbroken opus

theorem sends_new (opus : OpusEncoder ε) : (Session.new opus.init).Sends opus where
  regular := regular_new opus
  owned := owned_new opus.init
  ordered := ordered_courier_new opus.init
  streams := List.forall_mem_nil _
  complete _ := ⟨rfl, .inl (whole_new opus.init), unbroken_new opus⟩

/-- The stream of a send is that of its session. -/
theorem Proper.streamId_sending (hs : s.Proper) {send : Send} {phase : SendPhase}
    (hpc : s.pc? t = some (.sending send phase)) {n : Int} (h : send.outgoing.streamId? = some n) :
    s.streamId = some n := by
  obtain ⟨⟨c, pc⟩, ht, rfl⟩ := Option.map_eq_some_iff.mp hpc
  have hstands := hs.stands t _ ht
  cases send with
  | request => cases h
  | data =>
      cases h
      exact (stands_data.mp hstands).1
  | close =>
      cases h
      exact (stands_close.mp hstands).1

theorem Sends.step (hs : s.Sends opus) (h : s.step opus cc a = some s') : s'.Sends opus where
  regular := hs.regular.step h
  owned := (hs.owned.carries h).2
  ordered := (hs.owned.carries h).1.ordered hs.ordered
  streams := by
    have hproper := hs.regular.proper
    have hold : ∀ o ∈ s.writes, ∀ n, o.streamId? = some n → s'.streamId = some n :=
      fun o ho n hn ↦ hproper.assigned h (hs.streams o ho n hn)
    by_cases ha : ∃ t, a = .sent t
    · obtain ⟨t, rfl⟩ := ha
      have hpc : ∃ send, s.pc? t = some (.sending send .queued) := by
        rw [Session.step] at h
        split at h
        · exact ⟨_, ‹_›⟩
        · cases h
      obtain ⟨send, hpc⟩ := hpc
      have hopen : cc = false := by
        simp only [Session.step, hpc] at h
        split at h
        · cases h
        · next hcc => exact Bool.eq_false_iff.mpr hcc
      rw [hopen, step_sent hpc] at h
      cases h
      intro o ho n hn
      have ho : o ∈ (s.log ++ [Entry.written send.outgoing]).filterMap Entry.writes? := ho
      rw [List.filterMap_append] at ho
      rcases List.mem_append.mp ho with ho | ho
      · exact hs.streams o ho n hn
      · obtain rfl : o = send.outgoing := List.mem_singleton.mp ho
        exact hproper.streamId_sending hpc hn
    · rw [hproper.writes_step h (by simpa using ha)]
      exact hold
  complete hkept := by
    have hbefore : s.dropped = false := by
      rw [← Bool.not_eq_true]
      intro hdropped
      rw [hs.regular.proper.dropped h hdropped] at hkept
      cases hkept
    obtain ⟨hcomplete, hwhole, hunbroken⟩ := hs.complete hbefore
    obtain ⟨hcarries, -⟩ := hs.owned.carries h
    have hsafe : s.FailsSafely a := by
      cases a with
      | fail t e =>
          intro packets streamId isEos force who phase hpc
          rw [dropped_fail hpc h] at hkept
          cases hkept
      | _ => trivial
    refine ⟨hcarries.complete h hkept hcomplete, ?_, ?_⟩
    · exact hcarries.whole hs.ordered hs.regular.ended (step_closed h) (eosSent_step h) hsafe hwhole
    · exact (hs.owned.unbroken_step hs.ordered hs.regular.accounted (step_accounted h
        hs.regular.accounted) h hunbroken).mpr (hs.owned.sendsInOrder hwhole a)

end Session

/-! ## Sessions and connections by themselves -/

namespace Wire

variable {ε : Type} {opus : OpusEncoder ε} {aead : Aead} {reprOf : Obj → String} {w w' : Wire ε}

theorem forward_runs {sid t requestId : Nat}
    (h : w.forward aead reprOf sid t requestId = some w') : w'.sessions = w.sessions ∧
      ∃ as, (connections aead reprOf).exec w.connection as = some w'.connection := by
  rw [forward] at h
  split at h
  · cases h
    exact ⟨rfl, [], rfl⟩
  · next send _ =>
    obtain ⟨c, hstep, rfl⟩ := Option.map_eq_some_iff.mp h
    refine ⟨rfl, [send.outgoing.label requestId], ?_⟩
    rw [System.exec_cons]
    exact Option.bind_eq_some_iff.mpr ⟨c, hstep, rfl⟩

theorem advance_runs {sid : Nat} {a : Session.Label} {requestId : Nat}
    (h : w.advance opus aead reprOf sid a requestId = some w') :
    (∃ as, (connections aead reprOf).exec w.connection as = some w'.connection) ∧
      ∃ s s', w.sessions[sid]? = some s ∧ s.step opus w.connection.closed a = some s' ∧
        w'.sessions = w.sessions.set sid s' := by
  obtain ⟨s, s', hs, hstep, ⟨-, rfl⟩ | ⟨t, -, hforward⟩⟩ := advance_eq_some h
  · exact ⟨⟨[], rfl⟩, s, s', hs, hstep, rfl⟩
  · obtain ⟨hsessions, hruns⟩ := forward_runs hforward
    exact ⟨hruns, s, s', hs, hstep, hsessions⟩

/-- What a step of the connection does besides. -/
theorem step_connection {a : HDSConnection.Label} {onOpen : Option PyErr}
    (h : w.step opus aead reprOf (.connection a onOpen) = some w') :
    ∃ c, w.connection.step aead reprOf a = some c ∧ (w' = w.withConnection c ∨
      ∃ sid b, (w.withConnection c).advance opus aead reprOf sid b 0 = some w') := by
  rw [step] at h
  split at h
  · cases h
  · obtain ⟨c, hstep, h⟩ := Option.bind_eq_some_iff.mp h
    refine ⟨c, hstep, ?_⟩
    split at h
    · rw [tell] at h
      split at h
      · exact .inr ⟨_, _, h⟩
      · exact .inl (Option.some.inj h).symm
    · exact .inl (Option.some.inj h).symm

end Wire

/-- **The connection of some sessions is a connection like any other.** -/
def wired {ε : Type} (opus : OpusEncoder ε) (aead : Aead) (reprOf : Obj → String) :
    Simulation (wires opus aead reprOf) (connections aead reprOf) where
  state := Wire.connection
  init := by
    rintro w ⟨c, hc, rfl⟩
    exact hc
  step w a w' h := by
    cases a with
    | begin =>
        cases h
        exact ⟨[], rfl⟩
    | session sid a requestId =>
        have h : (if _ then _ else none) = some w' := h
        split at h
        · exact (Wire.advance_runs h).1
        · cases h
    | connection a onOpen =>
        obtain ⟨c, hstep, hnext⟩ := Wire.step_connection h
        have hexec : ∀ as, (connections aead reprOf).exec c as = some w'.connection →
            ∃ as, (connections aead reprOf).exec w.connection as = some w'.connection := by
          intro as has
          refine ⟨a :: as, ?_⟩
          rw [System.exec_cons]
          exact Option.bind_eq_some_iff.mpr ⟨c, hstep, has⟩
        rcases hnext with rfl | ⟨sid, b, hadvance⟩
        · exact hexec [] rfl
        · obtain ⟨as, has⟩ := (Wire.advance_runs hadvance).1
          exact hexec as has

section Lives

variable {ε : Type} {opus : OpusEncoder ε} {aead : Aead} {reprOf : Obj → String} {w w' : Wire ε}

/-- Every session of a connection is one that a session alone can come to. -/
def Lives (opus : OpusEncoder ε) (w : Wire ε) : Prop :=
  ∀ s ∈ w.sessions, (sessions opus).Reachable ⟨s, w.connection.closed⟩

/-- A session sees its connection close. -/
theorem reachable_closed {s : Session ε} {closed closed' : Bool}
    (h : (sessions opus).Reachable ⟨s, closed⟩) (hclosed : closed = true → closed' = true) :
    (sessions opus).Reachable ⟨s, closed'⟩ := by
  cases closed with
  | true => rwa [hclosed rfl]
  | false =>
      cases closed' with
      | false => exact h
      | true => exact h.step (a := .connectionClosed) rfl

/-- A connection that is closed stays so. -/
theorem closed_exec {c c' : HDSConnection} {as : List HDSConnection.Label}
    (h : (connections aead reprOf).exec c as = some c') (hc : c.closed = true) :
    c'.closed = true := by
  have hall : ∀ a ∈ as, True := fun _ _ ↦ trivial
  refine System.exec_invariant (I := fun c ↦ c.closed = true) ?_ hall h hc
  intro c c' a hc _ hstep
  exact HDSConnection.step_closed hstep hc

theorem Lives.connection (h : Lives opus w) (hsessions : w'.sessions = w.sessions)
    {as : List HDSConnection.Label}
    (hexec : (connections aead reprOf).exec w.connection as = some w'.connection) :
    Lives opus w' := by
  intro s hs
  rw [hsessions] at hs
  exact reachable_closed (h s hs) (closed_exec hexec)

theorem Lives.advance (h : Lives opus w) {sid : Nat} {a : Session.Label} {requestId : Nat}
    (hw : w.advance opus aead reprOf sid a requestId = some w') : Lives opus w' := by
  obtain ⟨⟨as, hexec⟩, s, s', hs, hstep, hsessions⟩ := Wire.advance_runs hw
  intro s₁ hs₁
  rw [hsessions] at hs₁
  rcases List.mem_or_eq_of_mem_set hs₁ with hs₁ | rfl
  · exact reachable_closed (h s₁ hs₁) (closed_exec hexec)
  · have hlives : (sessions opus).Reachable ⟨s₁, w.connection.closed⟩ :=
      (h s (List.mem_of_getElem? hs)).step (a := .session a)
        (Option.map_eq_some_iff.mpr ⟨s₁, hstep, rfl⟩)
    exact reachable_closed hlives (closed_exec hexec)

/-- **The sessions of a connection are sessions like any other.** -/
theorem lives (h : (wires opus aead reprOf).Reachable w) : Lives opus w := by
  refine h.invariant (I := Lives opus) ?_ ?_
  · rintro w ⟨c, -, rfl⟩
    exact List.forall_mem_nil _
  · intro w w' a hlives hstep
    cases a with
    | begin =>
        cases hstep
        intro s hs
        rcases List.mem_append.mp hs with hs | hs
        · exact hlives s hs
        · obtain rfl := List.mem_singleton.mp hs
          exact reachable_closed (.init rfl) (by rintro ⟨⟩)
    | session sid a requestId =>
        have hstep : (if _ then _ else none) = some w' := hstep
        split at hstep
        · exact hlives.advance hstep
        · cases hstep
    | connection a onOpen =>
        obtain ⟨c, hc, hnext⟩ := Wire.step_connection hstep
        have hexec : (connections aead reprOf).exec w.connection [a] = some c := by
          rw [System.exec_cons]
          exact Option.bind_eq_some_iff.mpr ⟨c, hc, rfl⟩
        have hmoved : Lives opus (w.withConnection c) := hlives.connection rfl hexec
        rcases hnext with rfl | ⟨sid, b, hadvance⟩
        · exact hmoved
        · exact hmoved.advance hadvance

theorem linked (h : (wires opus aead reprOf).Reachable w) : w.Linked := by
  refine h.invariant (I := Wire.Linked) ?_ ?_
  · rintro w ⟨c, hc, rfl⟩
    exact Wire.linked_new hc
  · exact fun w w' a hlinked hstep ↦ hlinked.step hstep

theorem sends {s : Live ε} (h : (sessions opus).Reachable s) : s.session.Sends opus := by
  refine h.invariant (I := fun s ↦ s.session.Sends opus) ?_ ?_
  · rintro s rfl
    exact Session.sends_new opus
  · rintro s s' a hs hstep
    cases a with
    | connectionClosed =>
        cases hstep
        exact hs
    | session a =>
        obtain ⟨session, hsession, rfl⟩ := Option.map_eq_some_iff.mp hstep
        exact hs.step hsession

theorem outbound {c : HDSConnection} (h : (connections aead reprOf).Reachable c) :
    c.Outbound aead := by
  refine h.invariant (I := HDSConnection.Outbound aead) ?_ ?_
  · rintro c ⟨session, outKey, inKey, firstPayload, buffer, eof, rfl⟩
    exact .new ..
  · intro c c' a hc hstep
    exact HDSConnection.step_invariant (fun _ _ ↦ HDSConnection.Outbound.callStep) hstep hc

/-! ## What comes out -/

theorem rms_encodeAll (opus : OpusEncoder ε) (state : ε) (frames : List PcmFrame) :
    ∀ frame ∈ (opus.encodeAll state frames).1, ∃ pcm, frame.rms = opus.rms pcm := by
  induction frames generalizing state with
  | nil => exact List.forall_mem_nil _
  | cons pcm frames ih =>
      intro frame hframe
      rcases List.mem_cons.mp hframe with rfl | hframe
      · exact ⟨pcm, rfl⟩
      · exact ih _ frame hframe

theorem rms_packetsOf {n : Nat} {frames : List AudioFrame} {p : Packet}
    (hp : p ∈ Session.packetsOf n frames) : ∃ frame ∈ frames, p.rms = frame.rms := by
  obtain ⟨i, hi, rfl⟩ := List.mem_mapIdx.mp hp
  exact ⟨frames[i], List.getElem_mem hi, rfl⟩

/-- The packets on the transport are encodings of the PCM that was accepted, in order. -/
theorem Session.Sends.sublist {s : Session ε} (hs : s.Sends opus) : s.sentPackets.Sublist
    (packetsOf 0 (opus.encodeAll opus.init s.pcmFrames).1) := by
  rw [← hs.regular.accounted.packets]
  exact (hs.ordered.sublist.flatMap _).trans (List.sublist_append_left _ _)

/-- No level that a session sends has a sign. -/
theorem Session.Sends.unsigned {s : Session ε} (hs : s.Sends opus)
    (hrms : ∀ pcm, (opus.rms pcm).negative = false) {o : Outgoing} (ho : o ∈ s.writes) :
    o.Unsigned := by
  cases o with
  | «open» | close => trivial
  | data packets streamId endOfStream =>
      intro p hp
      have hsent : p ∈ s.sentPackets := by
        rw [← s.packets_writes]
        exact List.mem_flatMap.mpr ⟨_, ho, hp⟩
      obtain ⟨frame, hframe, heq⟩ := rms_packetsOf (hs.sublist.subset hsent)
      obtain ⟨pcm, hpcm⟩ := rms_encodeAll opus _ _ frame hframe
      rw [heq, hpcm]
      exact hrms pcm

/-- Nobody hears the answer to the greeting as one of a session. -/
theorem ofMessage?_reply (reprOf : Obj → String) {requestId : Int} {payload : Bytes}
    (h : (HDSConnection.reply requestId).payload = .ok payload) :
    ∃ m, decodeMessage reprOf payload = .ok m ∧ Outgoing.ofMessage? m = none := by
  have hempty : (Obj.dict []).Serializable :=
    Hds.Outgoing.serializable_fields [] List.nodup_nil (List.forall_mem_nil _)
  have hcarried : (HDSConnection.reply requestId).Carried :=
    Hds.Outgoing.carried_of_serializable hempty rfl
  exact ⟨_, Hds.Outgoing.decodeMessage_payload reprOf h (by rintro ⟨⟩) hcarried, rfl⟩

/-- A session has recorded what is written for it. -/
theorem Wire.Linked.owner_writes (hl : w.Linked) {i : Nat} {o : Owner}
    (hi : i ∈ w.connection.written) (ho : w.owners[i]? = some (some o)) :
    ∃ s, w.sessions[o.session]? = some s ∧ o.send.outgoing ∈ s.writes := by
  have hs := List.getElem?_eq_getElem (hl.known i o ho)
  refine ⟨_, hs, ?_⟩
  rw [← hl.writes o.session _ hs]
  refine List.mem_filterMap.mpr ⟨i, hi, ?_⟩
  rw [ho, Option.join_some, Option.filter_some, if_pos (decide_eq_true rfl)]
  rfl

/-- A frame reads as what the task in its call has sent. -/
theorem Wire.Linked.payload (hl : w.Linked) (hs : ∀ s ∈ w.sessions, s.Sends opus)
    (hrms : ∀ pcm, (opus.rms pcm).negative = false) {i : Nat} {payload : Bytes}
    (hi : i ∈ w.connection.written)
    (hpayload : HDSConnection.PayloadOf w.connection.calls i payload) :
    ∃ m, decodeMessage reprOf payload = .ok m ∧
      Outgoing.ofMessage? m = w.owners[i]?.join.map fun o ↦ o.send.outgoing.rounded := by
  obtain ⟨k, hk, hpayload⟩ := hpayload
  obtain ⟨owner, ho⟩ : ∃ owner, w.owners[i]? = some owner :=
    ⟨_, List.getElem?_eq_getElem (hl.written i hi)⟩
  rw [ho, Option.join_some]
  cases owner with
  | none =>
      obtain ⟨requestId, hout⟩ := hl.replies i k hk ho
      exact ofMessage?_reply reprOf (hout ▸ hpayload)
  | some o =>
      obtain ⟨requestId, hout, -⟩ := hl.sends i k o hk ho
      obtain ⟨s, hsession, hmem⟩ := hl.owner_writes hi ho
      have hunsigned := (hs s (List.mem_of_getElem? hsession)).unsigned hrms hmem
      exact ofMessage?_payload reprOf hunsigned (hout ▸ hpayload)

/-- Payloads that can be read one by one can be read all. -/
theorem exists_messages (reprOf : Obj → String) {is : List Nat} {payloads : List Bytes}
    {said : Nat → Option Outgoing}
    (h : List.Forall₂ (fun i payload ↦ ∃ m, decodeMessage reprOf payload = .ok m ∧
      Outgoing.ofMessage? m = said i) is payloads) :
    ∃ messages : List Message, payloads.map (decodeMessage reprOf) = messages.map .ok ∧
      messages.filterMap Outgoing.ofMessage? = is.filterMap said := by
  induction h with
  | nil => exact ⟨[], rfl, rfl⟩
  | cons hm _ ih =>
      obtain ⟨m, hdecode, hsaid⟩ := hm
      obtain ⟨messages, hmessages, hall⟩ := ih
      refine ⟨m :: messages, ?_, ?_⟩
      · rw [List.map_cons, List.map_cons, hdecode, hmessages]
      · rw [List.filterMap_cons, List.filterMap_cons, hsaid, hall]

/-- What the messages say on a stream. -/
def heard (messages : List Message) (streamId : Int) : List Outgoing :=
  (messages.filterMap Outgoing.ofMessage?).filter fun o ↦ o.streamId? = some streamId

/-- The events of a session are what it writes but for the request. -/
def events (os : List Outgoing) : List Outgoing :=
  (os.filter fun o ↦ o.streamId?.isSome).map Outgoing.rounded

theorem packets_events (os : List Outgoing) :
    (events os).flatMap Outgoing.packets = (os.flatMap Outgoing.packets).map Packet.rounded := by
  induction os with
  | nil => rfl
  | cons o os ih =>
      rw [List.flatMap_cons, List.map_append, ← ih, ← o.packets_rounded]
      cases o <;> rfl

theorem ends_events (os : List Outgoing) :
    (events os).countP Outgoing.ends = os.countP Outgoing.ends := by
  induction os with
  | nil => rfl
  | cons o os ih =>
      rw [List.countP_cons, ← ih]
      cases o with
      | «open» => rfl
      | data | close =>
          show List.countP _ (_ :: _) = _
          rw [List.countP_cons]
          rfl

/-- What is heard on a stream was sent for it. -/
theorem heard_eq {messages : List Message}
    (hall : messages.filterMap Outgoing.ofMessage? = w.connection.written.filterMap fun i ↦
      w.owners[i]?.join.map fun o ↦ o.send.outgoing.rounded) (n : Int) :
    heard messages n = w.connection.written.filterMap fun i ↦
      (w.owners[i]?.join.filter fun o ↦ o.send.outgoing.streamId? = some n).map fun o ↦
        o.send.outgoing.rounded := by
  rw [heard, hall, List.filter_filterMap]
  refine List.filterMap_congr fun i _ ↦ ?_
  cases w.owners[i]?.join with
  | none => rfl
  | some o =>
      rw [Option.map_some, Option.filter_some, Option.filter_some, Outgoing.streamId?_rounded]
      split <;> rfl

/-- On the stream of one session it alone is heard. -/
theorem Wire.Linked.heard (hl : w.Linked) (hs : ∀ s ∈ w.sessions, s.Sends opus)
    {messages : List Message}
    (hall : messages.filterMap Outgoing.ofMessage? = w.connection.written.filterMap fun i ↦
      w.owners[i]?.join.map fun o ↦ o.send.outgoing.rounded)
    {sid : Nat} {s : Session ε} {n : Int} (hsession : w.sessions[sid]? = some s)
    (hn : s.streamId = some n) (honly : ∀ (sid' : Nat) (s' : Session ε),
      w.sessions[sid']? = some s' → s'.streamId = some n → sid' = sid) :
    heard messages n = events s.writes := by
  rw [heard_eq hall, events, ← hl.writes sid s hsession, Wire.writes, List.filter_filterMap,
    List.map_filterMap]
  refine List.filterMap_congr fun i hi ↦ ?_
  cases ho : w.owners[i]?.join with
  | none => rfl
  | some o =>
      obtain ⟨s', hs', hmem⟩ := hl.owner_writes hi (Option.join_eq_some_iff.mp ho)
      have hstream := (hs s' (List.mem_of_getElem? hs')).streams _ hmem
      rw [Option.filter_some, Option.filter_some]
      by_cases hsid : o.session = sid
      · -- the session writes for no other stream
        rw [hsid, hsession] at hs'
        cases hs'
        rw [if_pos (decide_eq_true hsid), Option.map_some, Option.filter_some]
        cases hid : o.send.outgoing.streamId? with
        | none => rfl
        | some m =>
            obtain rfl : m = n := Option.some.inj ((hstream m hid).symm.trans hn)
            simp
      · have hid : ¬ o.send.outgoing.streamId? = some n :=
          fun hid ↦ hsid (honly o.session s' hs' (hstream n hid))
        rw [if_neg (by simpa using hid), if_neg (by simpa using hsid)]
        rfl

/-- On a stream of no session nothing is heard. -/
theorem Wire.Linked.silent (hl : w.Linked) (hs : ∀ s ∈ w.sessions, s.Sends opus)
    {messages : List Message}
    (hall : messages.filterMap Outgoing.ofMessage? = w.connection.written.filterMap fun i ↦
      w.owners[i]?.join.map fun o ↦ o.send.outgoing.rounded)
    {n : Int} (hnone : ∀ s ∈ w.sessions, s.streamId ≠ some n) :
    Audio.heard messages n = [] := by
  rw [heard_eq hall, List.filterMap_eq_nil_iff]
  intro i hi
  rw [Option.map_eq_none_iff, Option.filter_eq_none_iff]
  intro o ho hid
  obtain ⟨s, hsession, hmem⟩ := hl.owner_writes hi (Option.join_eq_some_iff.mp ho)
  have hsession := List.mem_of_getElem? hsession
  exact hnone s hsession ((hs s hsession).streams _ hmem n (of_decide_eq_true hid))

/-! ## The streams of a connection -/

/-- What is heard of a session: the events that it wrote, whose packets are encodings of the
PCM that it accepted, in order.  While no send of a data event has raised, each accepted packet
was heard or waits in the session, and the end of the stream is told once at most. -/
structure Session.Heard (opus : OpusEncoder ε) (s : Session ε) (os : List Outgoing) : Prop where
  written : os = Audio.events s.writes
  accepted : (os.flatMap Outgoing.packets).Sublist
    ((packetsOf 0 (opus.encodeAll opus.init s.pcmFrames).1).map Packet.rounded)
  complete : s.dropped = false →
    (packetsOf 0 (opus.encodeAll opus.init s.pcmFrames).1).map Packet.rounded =
      os.flatMap Outgoing.packets ++ (s.courier.waiting.flatMap DataEvent.packets ++
        packetsOf s.sequence s.frames).map Packet.rounded
  ended : s.dropped = false → os.countP Outgoing.ends ≤ 1

theorem Session.Sends.heard {s : Session ε} (hs : s.Sends opus) :
    s.Heard opus (Audio.events s.writes) := by
  have hpackets : (Audio.events s.writes).flatMap Outgoing.packets =
      s.sentPackets.map Packet.rounded := by
    rw [packets_events, s.packets_writes]
  constructor
  · rfl
  · rw [hpackets]
    exact hs.sublist.map _
  · intro hkept
    have hcomplete : s.packets = s.sentPackets ++ s.courier.waiting.flatMap DataEvent.packets :=
      (hs.complete hkept).1
    rw [hpackets, ← hs.regular.accounted.packets, hcomplete, List.append_assoc, List.map_append]
  · intro hkept
    rw [ends_events, s.ends_writes]
    exact (hs.complete hkept).2.2.2

/-- **The Apple TV can read everything on a connection.  It hears each session on the stream of
the session, if no other has it, and nothing on a stream of no session.** -/
theorem streams_heard (aead : Aead) (reprOf : Obj → String) (haead : aead.Lawful 16)
    (hrms : ∀ pcm, (opus.rms pcm).negative = false)
    (h : (wires opus aead reprOf).Reachable w) :
    ∃ payloads messages,
      hdsFraming.openAll aead w.connection.outKey w.connection.out = some payloads ∧
      payloads.map (decodeMessage reprOf) = messages.map .ok ∧
      (∀ n, (∀ s ∈ w.sessions, s.streamId ≠ some n) → heard messages n = []) ∧
      ∀ (sid : Nat) (s : Session ε) (n : Int), w.sessions[sid]? = some s →
        s.streamId = some n →
        (∀ (sid' : Nat) (s' : Session ε), w.sessions[sid']? = some s' →
          s'.streamId = some n → sid' = sid) → s.Heard opus (heard messages n) := by
  have hl := linked h
  have hs : ∀ s ∈ w.sessions, s.Sends opus := fun s hs ↦ sends (lives h s hs)
  have hout : w.connection.Outbound aead := outbound ((wired opus aead reprOf).reachable h)
  obtain ⟨payloads, hopen, hpayloads⟩ := hout.opened haead
  have hwritten := (List.forall₂_and_left _ _).mpr ⟨fun _ hi ↦ hi, hpayloads⟩
  obtain ⟨messages, hmessages, hall⟩ := exists_messages reprOf
    (hwritten.imp fun i payload ⟨hi, hpayload⟩ ↦ hl.payload hs hrms hi hpayload)
  refine ⟨payloads, messages, hopen, hmessages, fun n hnone ↦ hl.silent hs hall hnone, ?_⟩
  intro sid s n hsession hn honly
  rw [hl.heard hs hall hsession hn honly]
  exact (hs s (List.mem_of_getElem? hsession)).heard

/-- The frame of a response that assigns the stream 5. -/
def streamAssigned : Bytes :=
  let response : Hds.Outgoing := ⟨.response 7 0, .ofString hdsProtocolDataSend,
    .ofString hdsTopicOpen, some [(.text "streamId", .int 5)]⟩
  hdsFraming.frame plain [] [] (response.payload.toOption.getD [])

/-- A session is opened on a connection and sends five frames of silence. -/
def silence : List Wire.Label :=
  [.connection .resume none, .connection (.acquire 0) none, .connection (.drained 0) none,
    .connection .resume none, .begin, .session 0 .start 0, .session 0 (.run 0) 7,
    .connection (.acquire 1) none, .connection (.drained 1) none,
    .connection (.receive streamAssigned) none, .connection .resume none, .connection .resume none,
    .connection (.answered 1) none,
    .session 0 (.call (.write (List.replicate (5 * frameBytes) 0))) 0, .session 0 (.run 1) 0,
    .connection (.acquire 2) none, .connection (.drained 2) none]

/-- The packets of the session are heard on its stream. -/
theorem streams_heard_silence : ∃ w payloads messages,
    (wires .verbatim plain fun _ ↦ "").exec (.new greeted) silence = some w ∧
    hdsFraming.openAll plain w.connection.outKey w.connection.out = some payloads ∧
    payloads.map (decodeMessage fun _ ↦ "") = messages.map .ok ∧
    ((heard messages 5).flatMap Outgoing.packets).map Packet.sequenceNumber = [0, 1, 2, 3, 4] := by
  have hrun : ((wires .verbatim plain fun _ ↦ "").exec (.new greeted) silence).map (fun w ↦
      (w.sessions.map fun s ↦ (s.streamId, s.sentPackets.map Packet.sequenceNumber))) =
      some [(some 5, [0, 1, 2, 3, 4])] := by decide +kernel
  obtain ⟨w, hw, hstate⟩ := Option.map_eq_some_iff.mp hrun
  have hnew : (wires .verbatim plain fun _ ↦ "").init (.new greeted) :=
    ⟨greeted, ⟨_, _, _, _, _, _, rfl⟩, rfl⟩
  obtain ⟨payloads, messages, hopen, hmessages, -, hall⟩ :=
    streams_heard plain _ plain_lawful (fun _ ↦ rfl) (.exec (.init hnew) hw)
  refine ⟨w, payloads, messages, hw, hopen, hmessages, ?_⟩
  obtain ⟨s, hs, hsession⟩ := List.map_eq_singleton_iff.mp hstate
  obtain ⟨hid, hpackets⟩ := Prod.mk.inj hsession
  have hheard := hall 0 s 5 (by rw [hs]; rfl) hid (by
    intro sid s' hs' _
    have hlt := lt_length_of_getElem? hs'
    rw [hs] at hlt
    exact Nat.lt_one_iff.mp hlt)
  rw [hheard.written, packets_events, s.packets_writes, List.map_map]
  exact hpackets

end Lives

end AtvRemote.Audio
