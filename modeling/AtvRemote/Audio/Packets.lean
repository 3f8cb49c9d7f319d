import AtvRemote.Audio.Steps

/-!
# The packets of a stream

Between the PCM that `write` accepts and the events of the connection a frame passes
through the byte buffer, the frame list and an event.  In every run of a session, whoever
flushes and whatever fails, nothing is lost or doubled on the way or changes its place:
the packets handed over so far, followed by those that the frame list will make, are the
encodings of the frames of the accepted PCM, numbered from zero.  Every event carries at
most five packets, and exactly five unless it ends the stream.
-/

namespace AtvRemote.Audio

open Lib

/-- The content of a `dataSend/data` event. -/
structure DataEvent where
  /-- `packets` -/
  packets : List Packet
  /-- `endOfStream` -/
  endOfStream : Bool
deriving DecidableEq, Repr

/-- The data event that an entry hands over. -/
def Entry.dataEvent? : Entry → Option DataEvent
  | .handed (.data packets _ endOfStream) => some ⟨packets, endOfStream⟩
  | _ => none

/-- An event with the right number of packets. -/
def DataEvent.Sized (e : DataEvent) : Prop :=
  e.packets.length ≤ framesPerHdsEvent ∧
    (e.endOfStream = false → e.packets.length = framesPerHdsEvent)

/-- The frames of a stream: the whole ones, and with `pad` the padded remainder. -/
def streamFrames (pcm : Bytes) (pad : Bool) : List PcmFrame :=
  let (whole, rest) := cutFrames pcm
  if pad && !rest.1.isEmpty then whole ++ [rest.pad] else whole

theorem streamFrames_false (pcm : Bytes) : streamFrames pcm false = (cutFrames pcm).1 := rfl

/-- Padding adds the remainder, if there is one. -/
theorem streamFrames_true (pcm : Bytes) : streamFrames pcm true =
    (cutFrames pcm).1 ++
      if (cutFrames pcm).2.1.isEmpty then [] else [(cutFrames pcm).2.pad] := by
  simp only [streamFrames, Bool.true_and]
  cases (cutFrames pcm).2.1.isEmpty with
  | true => exact (List.append_nil _).symm
  | false => rfl

namespace Session

variable {ε : Type} {opus : OpusEncoder ε}

/-- The data events handed to the connection. -/
def events (s : Session ε) : List DataEvent := s.log.filterMap Entry.dataEvent?

/-- Their packets. -/
def packets (s : Session ε) : List Packet := s.events.flatMap DataEvent.packets

/-- The frames of the accepted PCM. -/
def pcmFrames (s : Session ε) : List PcmFrame := streamFrames s.accepted (s.drained.getD false)

/-- Every accepted frame is in an event or in the frame list, at its place, and every
partial frame is in the buffer. -/
structure Accounted (opus : OpusEncoder ε) (s : Session ε) : Prop where
  packets : s.packets ++ packetsOf s.sequence s.frames =
    packetsOf 0 (opus.encodeAll opus.init s.pcmFrames).1
  encoder : s.encoder = (opus.encodeAll opus.init s.pcmFrames).2
  sequence : s.packets.length = s.sequence
  rest : s.drained = none → s.pcmBuffer = (cutFrames s.accepted).2
  drained : s.drained.isSome → s.ending = true
  sized : ∀ e ∈ s.events, e.Sized

/-! ## Numbering -/

theorem length_packetsOf (n : Nat) (frames : List AudioFrame) :
    (packetsOf n frames).length = frames.length := List.length_mapIdx

/-- The numbers go on where they stopped. -/
theorem packetsOf_append (n : Nat) (xs ys : List AudioFrame) :
    packetsOf n (xs ++ ys) = packetsOf n xs ++ packetsOf (n + xs.length) ys := by
  rw [packetsOf, packetsOf, packetsOf, List.mapIdx_append]
  congr 1
  refine List.mapIdx_eq_mapIdx_iff.mpr fun i _ ↦ ?_
  rw [Nat.add_assoc, Nat.add_comm i]

section Accounting

variable {s b : Session ε} {t : Nat} {k : Task} {entry : Entry}

/-- The next number is that of the next accepted frame. -/
theorem Accounted.length (hs : s.Accounted opus) :
    (opus.encodeAll opus.init s.pcmFrames).1.length = s.sequence + s.frames.length := by
  have hlen := congrArg List.length hs.packets
  rw [List.length_append, length_packetsOf, length_packetsOf, hs.sequence] at hlen
  exact hlen.symm

theorem Accounted.not_drained (hs : s.Accounted opus) (hgo : s.ending = false) :
    s.drained = none := by
  cases hd : s.drained with
  | none => rfl
  | some pad =>
      have := hs.drained (by rw [hd]; rfl)
      rw [hgo] at this
      cases this

theorem events_of_log (h : b.log = s.log) : b.events = s.events := by
  rw [events, events, h]

theorem events_record (h : entry.dataEvent? = none) : (s.record entry).events = s.events := by
  simp [events, record, h]

/-! ## Feeding the stream -/

/-- More frames are encoded to the end of the frame list. -/
theorem Accounted.encode (hs : s.Accounted opus) (more : List PcmFrame)
    (hevents : b.events = s.events) (hsequence : b.sequence = s.sequence)
    (hpcm : b.pcmFrames = s.pcmFrames ++ more)
    (hframes : b.frames = s.frames ++ (opus.encodeAll s.encoder more).1)
    (hencoder : b.encoder = (opus.encodeAll s.encoder more).2)
    (hrest : b.drained = none → b.pcmBuffer = (cutFrames b.accepted).2)
    (hdrained : b.drained.isSome → b.ending = true) : b.Accounted opus where
  packets := by
    have happend := opus.encodeAll_append opus.init s.pcmFrames more
    rw [Session.packets, hevents, hsequence, hframes, hpcm, happend, packetsOf_append,
      packetsOf_append, Nat.zero_add, hs.length, ← hs.packets, ← hs.encoder, List.append_assoc]
    rfl
  encoder := by
    have happend := opus.encodeAll_append opus.init s.pcmFrames more
    rw [hencoder, hpcm, happend, ← hs.encoder]
  sequence := by
    rw [Session.packets, hevents, hsequence]
    exact hs.sequence
  rest := hrest
  drained := hdrained
  sized := by
    rw [hevents]
    exact hs.sized

/-- `write` -/
theorem Accounted.buffer (hs : s.Accounted opus) (hgo : s.ending = false) (pcm : Bytes) :
    (s.buffer opus pcm).Accounted opus := by
  have hnone := hs.not_drained hgo
  have hcut := cutFrames_append s.accepted pcm
  rw [← hs.rest hnone] at hcut
  refine hs.encode (cutFrames (s.pcmBuffer.1 ++ pcm)).1 rfl rfl ?_ rfl rfl ?_ hs.drained
  · simp only [pcmFrames, Session.buffer, hnone, Option.getD_none, streamFrames_false]
    exact hcut.1
  · exact fun _ ↦ hcut.2.symm

/-- The first block of `finish`. -/
theorem Accounted.drainBuffer (hs : s.Accounted opus) (pad : Bool) :
    (s.drainBuffer opus pad).Accounted opus := by
  unfold Session.drainBuffer
  split
  · exact hs
  · next hgo =>
    have hnone := hs.not_drained (Bool.eq_false_iff.mpr hgo)
    have hrest := hs.rest hnone
    have hpcm : s.pcmFrames = (cutFrames s.accepted).1 := by
      rw [pcmFrames, hnone]
      exact streamFrames_false s.accepted
    simp only
    split
    · next hempty =>
      refine hs.encode [] rfl rfl ?_ (List.append_nil _).symm rfl nofun fun _ ↦ rfl
      rw [List.append_nil, hpcm]
      cases pad with
      | false => exact streamFrames_false s.accepted
      | true =>
          refine (streamFrames_true s.accepted).trans ?_
          rw [← hrest, hempty, if_pos rfl, List.append_nil]
    · next hne =>
      split
      · next hpad =>
        subst hpad
        refine hs.encode [s.pcmBuffer.pad] rfl rfl ?_ rfl rfl nofun fun _ ↦ rfl
        refine (streamFrames_true s.accepted).trans ?_
        rw [← hrest, if_neg hne, hpcm]
      · next hdrop =>
        have hdrop : pad = false := Bool.eq_false_iff.mpr hdrop
        subst hdrop
        refine hs.encode [] rfl rfl ?_ (List.append_nil _).symm rfl nofun fun _ ↦ rfl
        rw [List.append_nil, hpcm]
        exact streamFrames_false s.accepted

/-- A step that leaves the stream and its events alone. -/
theorem Accounted.same (hs : s.Accounted opus) (h : SameStream s b)
    (hevents : b.events = s.events) : b.Accounted opus := by
  have hpcm : b.pcmFrames = s.pcmFrames := by rw [pcmFrames, pcmFrames, h.accepted, h.drained]
  refine hs.encode [] hevents h.sequence ?_ ?_ h.encoder ?_ ?_
  · rw [hpcm, List.append_nil]
  · rw [h.frames]
    exact (List.append_nil _).symm
  · intro hnone
    rw [h.pcmBuffer, h.accepted]
    exact hs.rest (h.drained ▸ hnone)
  · intro hsome
    exact h.ending (hs.drained (h.drained ▸ hsome))

/-- A step that may feed the stream. -/
theorem Fed.accounted (h : Fed opus s b) (hs : s.Accounted opus) (hlog : b.log = s.log) :
    b.Accounted opus := by
  have hdrain : ∀ pad, (s.drainBuffer opus pad).log = s.log :=
    fun pad ↦ (drainBuffer_base opus s pad).1.log
  cases h with
  | same h => exact hs.same h (events_of_log hlog)
  | write pcm hgo h => exact (hs.buffer hgo pcm).same h (events_of_log hlog)
  | drain pad h =>
      exact (hs.drainBuffer pad).same h (events_of_log (hlog.trans (hdrain pad).symm))

/-! ## Handing events over -/

/-- The frames of an event have left the frame list. -/
theorem HandsEvent.accounted {s' : Session ε} {streamId : Int} {force : Bool} {who : Flusher}
    (h : HandsEvent b t streamId force who s') (hb : b.Accounted opus) : s'.Accounted opus := by
  have hevents : ∀ (c : Session ε) (ps : List Packet) (isEos : Bool), c.log = b.log →
      (c.hand t (.data ps streamId isEos force who)).events = b.events ++ [⟨ps, isEos⟩] := by
    intro c ps isEos hlog
    simp [events, Session.hand, Session.record, Send.outgoing, hlog, Entry.dataEvent?]
  cases h with
  | due hdue =>
      generalize hs' : Session.hand _ t _ = s'
      have hev : s'.events = b.events ++ [⟨packetsOf b.sequence (b.frames.take framesPerHdsEvent),
          force && (b.frames.drop framesPerHdsEvent).isEmpty⟩] := by
        rw [← hs']
        exact hevents _ _ _ rfl
      have hpackets : s'.packets =
          b.packets ++ packetsOf b.sequence (b.frames.take framesPerHdsEvent) := by
        rw [Session.packets, hev, List.flatMap_append]
        exact congrArg _ (List.append_nil _)
      refine ⟨?_, ?_, ?_, ?_, ?_, ?_⟩
      · subst hs'
        rw [hpackets, List.append_assoc]
        refine Eq.trans ?_ hb.packets
        refine congrArg _ ?_
        have htake := packetsOf_append b.sequence (b.frames.take framesPerHdsEvent)
          (b.frames.drop framesPerHdsEvent)
        rw [List.take_append_drop] at htake
        exact htake.symm
      · subst hs'
        exact hb.encoder
      · rw [hpackets, List.length_append, length_packetsOf, hb.sequence]
        subst hs'
        rfl
      · subst hs'
        exact hb.rest
      · subst hs'
        exact hb.drained
      · intro e he
        rw [hev] at he
        rcases List.mem_append.mp he with he | he
        · exact hb.sized e he
        · rw [List.mem_singleton.mp he]
          refine ⟨?_, fun hgo ↦ ?_⟩
          · rw [length_packetsOf, List.length_take]
            exact Nat.min_le_left _ _
          · rw [length_packetsOf, List.length_take]
            refine Nat.min_eq_left ?_
            -- an event that does not end the stream leaves frames behind, or was not forced
            simp only [eventDue, Bool.or_eq_true, Bool.and_eq_true, decide_eq_true_eq] at hdue
            rcases hdue with hfull | ⟨hforce, -⟩
            · exact hfull
            · rw [hforce, Bool.true_and] at hgo
              have hne : ¬ b.frames.length ≤ framesPerHdsEvent := by
                rw [← List.drop_eq_nil_iff, ← List.isEmpty_iff]
                exact Bool.eq_false_iff.mp hgo
              exact Nat.le_of_not_le hne
  | eos hforce hframes heos =>
      have hev := hevents b [] true rfl
      refine ⟨?_, hb.encoder, ?_, hb.rest, hb.drained, ?_⟩
      · refine Eq.trans ?_ hb.packets
        rw [Session.packets, hev, List.flatMap_append]
        exact congrArg (· ++ _) (List.append_nil _)
      · refine Eq.trans ?_ hb.sequence
        rw [Session.packets, hev, List.flatMap_append]
        exact congrArg List.length (List.append_nil _)
      · intro e he
        rw [hev] at he
        rcases List.mem_append.mp he with he | he
        · exact hb.sized e he
        · rw [List.mem_singleton.mp he]
          exact ⟨Nat.zero_le _, (by rintro ⟨⟩)⟩

/-- A step of a task. -/
theorem Ran.accounted {s' : Session ε} {cc : Bool} {a : Label} (h : Ran opus s cc a t k s')
    (hs : s.Accounted opus) : s'.Accounted opus := by
  have hmoved : ∀ {b : Session ε} {pc : Pc}, SameStream s b → b.events = s.events →
      (b.goto t pc).Accounted opus := by
    intro b pc hsame hevents
    exact hs.same ⟨hsame.1, hsame.2, hsame.3, hsame.4, hsame.5, hsame.6, hsame.7⟩ hevents
  cases h with
  | quiet b pc hk hb hfed _ hpc =>
      exact (hfed.accounted hs hb.log).same ⟨rfl, rfl, rfl, rfl, rfl, rfl, id⟩ rfl
  | request => exact hmoved (b := s.record _) ⟨rfl, rfl, rfl, rfl, rfl, rfl, id⟩ (events_record rfl)
  | close b streamId reason who hk _ _ hb hsame =>
      refine hmoved (b := b.record _) (hsame.trans ⟨rfl, rfl, rfl, rfl, rfl, rfl, id⟩) ?_
      exact (events_record rfl).trans (events_of_log hb.log)
  | event b s' streamId force who _ _ hb hfed _ _ _ h =>
      exact h.accounted (hfed.accounted hs hb.log)
  | written send =>
      refine hmoved (b := s.record _) ⟨rfl, rfl, rfl, rfl, rfl, rfl, id⟩ ?_
      exact events_record (by cases send <;> rfl)
  | requestReturned => exact hmoved (.refl s) rfl
  | nextEvent s' packets streamId streamId' force who _ h => exact h.accounted hs
  | flushReturned b packets streamId isEos force who pc _ hb hsame =>
      exact hmoved hsame (events_of_log hb.log)
  | closeReturned b streamId reason who pc _ hb hsame => exact hmoved hsame (events_of_log hb.log)
  | sendRaised b send phase pc _ hb hsame =>
      exact hmoved hsame ((events_of_log hb.log).trans (events_record (by cases send <;> rfl)))

/-- A step of a session. -/
theorem step_accounted {s' : Session ε} {cc : Bool} {a : Label} (h : s.step opus cc a = some s')
    (hs : s.Accounted opus) : s'.Accounted opus := by
  rcases step_cases h with
    ⟨-, rfl⟩ | ⟨k, openTask, -, rfl⟩ | ⟨reason, -, rfl⟩ | ⟨t, k, -, hran⟩
  · exact hs
  · exact hs.same ⟨rfl, rfl, rfl, rfl, rfl, rfl, id⟩ rfl
  · unfold Session.handleClose
    simp only
    split
    · exact hs.same ⟨rfl, rfl, rfl, rfl, rfl, rfl, id⟩ (events_record rfl)
    · exact hs.same ⟨rfl, rfl, rfl, rfl, rfl, rfl, id⟩ (events_record rfl)
  · exact hran.accounted hs

theorem accounted_new (opus : OpusEncoder ε) : (Session.new opus.init).Accounted opus where
  packets := rfl
  encoder := rfl
  sequence := rfl
  rest _ := Subtype.ext rfl
  drained := nofun
  sized := nofun

end Accounting

end Session

/-- **Frames are neither lost nor doubled nor reordered.** -/
theorem accounted {ε : Type} (opus : OpusEncoder ε) {s : Live ε}
    (h : (sessions opus).Reachable s) : s.session.Accounted opus := by
  refine h.invariant (I := fun s ↦ s.session.Accounted opus) ?_ ?_
  · rintro s rfl
    exact Session.accounted_new opus
  · rintro s s' a hs hstep
    cases a with
    | connectionClosed =>
        cases hstep
        exact hs
    | session a =>
        obtain ⟨session, hsession, rfl⟩ := Option.map_eq_some_iff.mp hstep
        exact Session.step_accounted hsession hs

end AtvRemote.Audio
