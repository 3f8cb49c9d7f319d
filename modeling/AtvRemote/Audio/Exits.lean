import AtvRemote.Audio.Blocks
import AtvRemote.Audio.Standing

/-!
# The exits of `finish`

`finish` returns when it finds the session closed without an error: at its start, behind the
wait for the open task, or behind the wait for the acknowledgement.  It does not look whether
the stream was sent.  `Proper.finishHonest_step` says that a step keeps its returns right
exactly when the end of the stream was handed over at each of these exits.
-/

namespace AtvRemote.Audio

open Lib

namespace Session

variable {ε : Type}

/-- The whole frames that `write` accepted were handed to the connection, with `pad` the padded
remainder, and the end of the stream. -/
structure Delivered (opus : OpusEncoder ε) (s : Session ε) (pad : Bool) : Prop where
  packets : ∃ frames, streamFrames s.accepted pad <+: frames ∧
    s.packets = packetsOf 0 (opus.encodeAll opus.init frames).1
  ends : s.EndHanded

/-- A `finish` that is done has delivered the stream, or raised. -/
def FinishHonest (opus : OpusEncoder ε) (s : Session ε) : Prop :=
  ∀ k ∈ s.tasks, ∀ positive pad, k.call = .finish positive pad → k.pc.done = true →
    k.pc = .returned ∧ s.Delivered opus pad ∨ ∃ e, k.pc = .raised e

/-- The end of the stream was handed over, and with `pad` no remainder was dropped. -/
def EndsStream (s : Session ε) (pad : Bool) : Prop :=
  s.EndHanded ∧
    (pad = true → s.drained = some true ∨ (cutFrames s.accepted).2.1.isEmpty = true)

/-- A `finish` is about to look whether the session is closed, and to return if it is. -/
def AtExit (s : Session ε) : Task → Prop
  | ⟨.finish positive _, .start⟩ => positive = true
  | ⟨.finish _ _, .awaitLock (.finishDrain _)⟩ | ⟨.finish _ _, .awaitOpen⟩ =>
      s.openPc = none ∨ s.openPc = some .returned
  | ⟨.finish _ _, .awaitDone⟩ => True
  | _ => False

/-- A `finish` finds the session closed without an error only behind the end of its stream. -/
def ExitsBehindEnd (s : Session ε) : Label → Prop
  | .run t => ∀ positive pad pc, s.tasks[t]? = some ⟨.finish positive pad, pc⟩ →
      s.AtExit ⟨.finish positive pad, pc⟩ → s.closed = true → s.error = none → s.EndsStream pad
  | _ => True

/-! ## The exits of `finish` -/

section Exits

variable {opus : OpusEncoder ε} {s s' b : Session ε} {cc : Bool} {a : Label} {t : Nat} {k : Task}
  {pc : Pc}

theorem returned_goto (h : s'.pc? t = some .returned) (heq : s' = b.goto t pc) :
    pc = .returned := by
  subst heq
  obtain ⟨k, hk, hreturned⟩ := Option.map_eq_some_iff.mp h
  rw [tasks_goto, if_pos rfl] at hk
  obtain ⟨k', -, rfl⟩ := Option.map_eq_some_iff.mp hk
  exact hreturned

theorem not_returned_goto (b : Session ε) (t : Nat) (hpc : pc ≠ .returned) :
    (b.goto t pc).pc? t ≠ some .returned := fun h ↦ hpc (returned_goto h rfl)

theorem not_returned_flushReturned (b : Session ε) (t : Nat) :
    (b.flushReturned t .finish).pc? t ≠ some .returned :=
  not_returned_goto b.release t nofun

theorem not_returned_flushLoop (b : Session ε) (t : Nat) (streamId : Int) (force : Bool) :
    (b.flushLoop t streamId force .finish).pc? t ≠ some .returned := by
  rw [flushLoop]
  split
  · exact not_returned_goto _ t (by rintro ⟨⟩)
  · split
    · exact not_returned_goto _ t (by rintro ⟨⟩)
    · exact not_returned_flushReturned b t

theorem not_returned_flush (b : Session ε) (t : Nat) (force : Bool) :
    (b.flush t force .finish).pc? t ≠ some .returned := by
  rw [flush]
  split
  · exact not_returned_flushReturned b t
  · split
    · exact not_returned_flushReturned b t
    · exact not_returned_flushLoop b t _ force

theorem not_returned_flushResume (b : Session ε) (t : Nat) (force isEos : Bool) :
    (b.flushResume t force isEos .finish).pc? t ≠ some .returned := by
  rw [flushResume]
  split
  · exact not_returned_flushReturned _ t
  · split
    · exact not_returned_flushLoop b t _ force
    · exact not_returned_flushReturned b t

/-- A `finish` that times out raises. -/
theorem not_returned_waitRaised (b : Session ε) (t : Nat) (e : PyErr) :
    (b.waitRaised cc t e).pc? t ≠ some .returned := by
  rw [waitRaised]
  split
  · rw [sendClose]
    split
    · exact not_returned_goto _ t (by rintro ⟨⟩)
    · exact not_returned_goto _ t (by rintro ⟨⟩)
  · exact not_returned_goto b t (by rintro ⟨⟩)

theorem returned_finishOpened (ht : b.tasks[t]? = some k) :
    (b.finishOpened t).pc? t = some .returned ↔ b.closed = true ∧ b.error = none := by
  rw [finishOpened]
  split
  · next hclosed =>
    split
    · next e herror => simp [not_returned_goto, herror]
    · next herror => simp [pc?_goto_self b t .returned ht, hclosed, herror]
  · next hopen =>
    have hno : (if b.lockFree t then (b.hold t).finishLocked t
        else b.goto t (.awaitLock .finishFlush)).pc? t ≠ some .returned := by
      split
      · exact not_returned_flush _ t true
      · exact not_returned_goto b t (by rintro ⟨⟩)
    simp [hno, hopen]

theorem returned_finishDrained (ht : b.tasks[t]? = some k) :
    (b.finishDrained t).pc? t = some .returned ↔
      (b.openPc = none ∨ b.openPc = some .returned) ∧ b.closed = true ∧ b.error = none := by
  rw [finishDrained]
  split
  · next hopen => simp [returned_finishOpened ht, hopen]
  · next hopen => simp [returned_finishOpened ht, hopen]
  · next e hopen => simp [not_returned_goto, hopen]
  · next pc hne _ hopen =>
    have hne : pc ≠ .returned := hne
    simp [not_returned_goto, hopen, hne]

/-- A `finish` that runs returns at its exits, when the session is closed without an error. -/
theorem returned_runTask {positive pad : Bool}
    (ht : s.tasks[t]? = some ⟨.finish positive pad, pc⟩)
    (hk : Task.Fits ⟨.finish positive pad, pc⟩)
    (h : s.runTask opus cc t ⟨.finish positive pad, pc⟩ = some s') :
    s'.pc? t = some .returned ↔
      s.AtExit ⟨.finish positive pad, pc⟩ ∧ s.closed = true ∧ s.error = none := by
  -- the first block of `finish` leaves the session standing
  have hdrain : ∀ pad', ((s.hold t).locked opus t (.finishDrain pad')).pc? t = some .returned ↔
      (s.openPc = none ∨ s.openPc = some .returned) ∧ s.closed = true ∧ s.error = none := by
    intro pad'
    have hsame : SameStand (.finish positive pad') s ((s.hold t).drainBuffer opus pad').release :=
      (((SameStand.refl s).hold t).trans (sameStand_drainBuffer _ positive pad')).release
    have hpcs : ((s.hold t).drainBuffer opus pad').release.pc? = s.pc? := by
      funext t'
      rw [pc?, pc?, hsame.tasks]
    have hopenPc : ((s.hold t).drainBuffer opus pad').release.openPc = s.openPc := by
      rw [openPc, openPc, hsame.openTask, hpcs]
    rw [locked, returned_finishDrained (hsame.tasks ▸ ht), hopenPc, hsame.closed, hsame.error]
  rw [runTask.eq_def] at h
  cases pc with
  | start =>
      cases h
      rw [begin.eq_def]
      cases positive with
      | false => simp [AtExit, not_returned_goto]
      | true =>
          simp only [Bool.not_true, Bool.false_eq_true, if_false]
          split
          · next hclosed =>
            split
            · next e herror => simp [not_returned_goto, herror]
            · next herror => simp [pc?_goto_self s t .returned ht, AtExit, hclosed, herror]
          · next hopen =>
            rw [acquire]
            split
            · simp [hdrain, hopen]
            · simp [not_returned_goto, hopen]
  | awaitLock use =>
      simp only at h
      split at h
      · cases h
        cases use with
        | finishDrain pad' => exact hdrain pad'
        | finishFlush => simp [AtExit, locked, finishLocked, not_returned_flush]
        | _ => exact hk.elim
      · cases h
  | awaitOpen =>
      simp only at h
      split at h
      · next hopen =>
        cases h
        simp [AtExit, returned_finishOpened ht, hopen]
      · next e hopen =>
        cases h
        simp [AtExit, not_returned_goto, hopen]
      · cases h
  | awaitDone =>
      simp only at h
      split at h
      · next hclosed =>
        split at h
        · next e herror =>
          cases h
          simp [not_returned_waitRaised, herror]
        · next herror =>
          cases h
          simp [pc?_goto_self s t .returned ht, AtExit, hclosed, herror]
      · cases h
  | awaitShielded => exact hk.elim
  | _ => cases h

theorem not_returned_resumeTask {c : Call} {positive pad : Bool} (hc : c = .finish positive pad)
    (hk : Task.Fits ⟨c, pc⟩) (h : s.resumeTask t pc = some s') : s'.pc? t ≠ some .returned := by
  subst hc
  rw [resumeTask.eq_def] at h
  split at h
  · cases h
    exact not_returned_goto s t (by rintro ⟨⟩)
  · next who =>
    cases h
    cases Option.some.inj (Task.fits_data.mp hk)
    exact not_returned_flushResume s t _ _
  · next who =>
    cases h
    cases Option.some.inj (Task.fits_close.mp hk)
    exact not_returned_goto _ t (by rintro ⟨⟩)
  · cases h

theorem not_returned_failTask {c : Call} {positive pad : Bool} {e : PyErr}
    (hc : c = .finish positive pad) (hk : Task.Fits ⟨c, pc⟩) (h : s.failTask t e pc = some s') :
    s'.pc? t ≠ some .returned := by
  subst hc
  rw [failTask.eq_def] at h
  split at h
  · split at h
    · cases h
      exact not_returned_goto s t (by rintro ⟨⟩)
    · cases h
  · split at h
    · cases h
      exact not_returned_goto _ t (by rintro ⟨⟩)
    · cases h
  · split at h
    · cases h
      exact not_returned_goto s t (by rintro ⟨⟩)
    · cases h
  · cases h
    exact not_returned_goto _ t (by rintro ⟨⟩)
  · split at h
    · cases h
      exact not_returned_goto s t (by rintro ⟨⟩)
    · cases h
  · exact hk.elim
  · next send phase =>
    cases send with
    | request => exact hk.elim
    | data packets streamId isEos force who =>
        cases h
        cases Option.some.inj (Task.fits_data.mp hk)
        exact not_returned_goto _ t (by rintro ⟨⟩)
    | close streamId reason who =>
        cases h
        cases Option.some.inj (Task.fits_close.mp hk)
        exact not_returned_goto _ t (by rintro ⟨⟩)
  · cases h

end Exits

/-! ## Behind the end of the stream -/

/-- The end of a stream is final, and a step that hands it over has ended the stream. -/
structure Further (s b : Session ε) : Prop where
  ending : s.ending = true → b.ending = true
  accepted : s.ending = true → b.accepted = s.accepted
  drained : s.ending = true → b.drained = s.drained
  frames : s.ending = true → s.frames = [] → b.frames = []
  endHanded : s.EndHanded → b.EndHanded
  ends : b.EndHanded → s.EndHanded ∨ b.ending = true ∧ b.frames = []

/-- The stream has ended where its end was handed over. -/
def Ended (s : Session ε) : Prop := s.EndHanded → s.ending = true ∧ s.frames = []

section Further

variable {opus : OpusEncoder ε} {s s' b : Session ε} {cc : Bool} {a : Label} {t : Nat} {k : Task}
  {pc : Pc}

theorem Further.refl (s : Session ε) : Further s s :=
  ⟨id, fun _ ↦ rfl, fun _ ↦ rfl, fun _ ↦ id, id, .inl⟩

theorem Further.trans {d : Session ε} (h : Further s b) (h' : Further b d) : Further s d where
  ending hs := h'.ending (h.ending hs)
  accepted hs := (h'.accepted (h.ending hs)).trans (h.accepted hs)
  drained hs := (h'.drained (h.ending hs)).trans (h.drained hs)
  frames hs hnil := h'.frames (h.ending hs) (h.frames hs hnil)
  endHanded hs := h'.endHanded (h.endHanded hs)
  ends hd := by
    rcases h'.ends hd with hb | hd
    · exact (h.ends hb).imp_right fun ⟨hending, hnil⟩ ↦
        ⟨h'.ending hending, h'.frames hending hnil⟩
    · exact .inr hd

theorem Further.ended (h : Further s b) (hs : s.Ended) : b.Ended := by
  intro hb
  rcases h.ends hb with hend | hnew
  · obtain ⟨hending, hnil⟩ := hs hend
    exact ⟨h.ending hending, h.frames hending hnil⟩
  · exact hnew

/-- What was handed over for the stream stays so. -/
theorem Further.endsStream (h : Further s b) (hs : s.Ended) {pad : Bool} (hend : s.EndsStream pad) :
    b.EndsStream pad := by
  have hending := (hs hend.1).1
  rw [EndsStream, h.accepted hending, h.drained hending]
  exact ⟨h.endHanded hend.1, hend.2⟩

theorem SameStand.further {c : Call} (h : SameStand c s b) : Further s b where
  ending := h.ending
  accepted := h.accepted
  drained hs := by
    rcases h.ends with ⟨-, hdrained⟩ | ⟨hopen, -, -⟩
    · exact hdrained
    · rw [hs] at hopen
      cases hopen
  frames := h.frames
  endHanded := (endHanded_of_events (events_of_log h.log)).mpr
  ends hb := .inl ((endHanded_of_events (events_of_log h.log)).mp hb)

/-- A step that touches the stream no further than to record what is no part of it. -/
theorem Further.of_events (hending : b.ending = s.ending) (haccepted : b.accepted = s.accepted)
    (hdrained : b.drained = s.drained) (hframes : b.frames = s.frames)
    (hevents : b.events = s.events) : Further s b where
  ending hs := hending.trans hs
  accepted _ := haccepted
  drained _ := hdrained
  frames _ hnil := hframes.trans hnil
  endHanded := (endHanded_of_events hevents).mpr
  ends hb := .inl ((endHanded_of_events hevents).mp hb)

theorem further_log (hending : b.ending = s.ending) (haccepted : b.accepted = s.accepted)
    (hdrained : b.drained = s.drained) (hframes : b.frames = s.frames) (hlog : b.log = s.log) :
    Further s b := .of_events hending haccepted hdrained hframes (events_of_log hlog)

theorem further_record {entry : Entry} (hending : b.ending = s.ending)
    (haccepted : b.accepted = s.accepted) (hdrained : b.drained = s.drained)
    (hframes : b.frames = s.frames) (hlog : b.log = s.log ++ [entry])
    (h : entry.dataEvent? = none) : Further s b := by
  refine .of_events hending haccepted hdrained hframes ?_
  rw [events_of_log (s := s.record entry) hlog]
  exact events_record h

/-- The end of the stream is handed over with the last frame of a stream that has ended. -/
theorem further_hand {packets : List Packet} {streamId : Int} {isEos force : Bool} {who : Flusher}
    (hlast : isEos = true → s.ending = true ∧ s.frames = []) :
    Further s (s.hand t (.data packets streamId isEos force who)) where
  ending := id
  accepted _ := rfl
  drained _ := rfl
  frames _ := id
  endHanded := by
    rintro ⟨e, hmem, he⟩
    refine ⟨e, ?_, he⟩
    rw [events, hand, goto_log, record, List.filterMap_append]
    exact List.mem_append_left _ hmem
  ends hb := by
    by_cases hend : s.EndHanded
    · exact .inl hend
    · exact .inr (hlast ((endHanded_hand t packets streamId isEos force who hend).2.mpr hb))

theorem Begins.further (h : Begins s a t k b) : Further s b := by
  cases h with
  | runs b h => exact h.further
  | cancels => exact ⟨fun _ ↦ rfl, fun _ ↦ rfl, fun _ ↦ rfl, fun _ ↦ id, id, .inl⟩
  | opens => exact further_log rfl rfl rfl rfl rfl

theorem Outcome.further (h : Outcome b cc t k s') : Further b s' := by
  cases h with
  | rests d pc h => exact h.further.trans (further_log rfl rfl rfl rfl rfl)
  | event d packets streamId isEos force who h hwho hid hforce hlast =>
      refine h.further.trans (further_hand fun heos ↦ ?_)
      exact ⟨hforce (hlast heos).1, (hlast heos).2⟩
  | close streamId reason who => exact further_record rfl rfl rfl rfl rfl rfl
  | noClose who => cases who <;> exact further_log rfl rfl rfl rfl rfl
  | noStream => exact further_log rfl rfl rfl rfl rfl

theorem Turn.further (h : Turn s cc a t k s') : Further s s' := by
  cases h with
  | request => exact further_record rfl rfl rfl rfl rfl rfl
  | written send => exact further_record rfl rfl rfl rfl rfl rfl
  | runs b s' _ hb h => exact hb.further.trans h.further
  | closeSent streamId reason who => cases who <;> exact further_log rfl rfl rfl rfl rfl
  | requestRaised => exact further_record rfl rfl rfl rfl rfl rfl
  | eventRaised packets streamId isEos force who =>
      cases who <;> exact further_record rfl rfl rfl rfl rfl rfl
  | closeRaised streamId reason who =>
      cases who <;> exact further_record rfl rfl rfl rfl rfl rfl
  | _ => exact further_log rfl rfl rfl rfl rfl

/-- **Every step leaves the end of a stream behind it.** -/
theorem Proper.further (hs : s.Proper) (h : s.step opus cc a = some s') : Further s s' := by
  rcases hs.turn_cases h with ⟨-, rfl⟩ | ⟨c, -, -, rfl⟩ | ⟨reason, -, rfl⟩ | ⟨t, k, -, -, hturn⟩
  · rw [Session.start]
    split <;> exact further_log rfl rfl rfl rfl rfl
  · exact further_log rfl rfl rfl rfl rfl
  · rcases s.handleClose_cases reason with ⟨-, heq⟩ | ⟨-, heq⟩
    · rw [heq]
      exact further_record rfl rfl rfl rfl rfl rfl
    · rw [heq]
      exact further_record rfl rfl rfl rfl rfl rfl
  · exact hturn.further

/-! ## What is delivered -/

/-- The number of the frames of a stream tells whether its remainder is among them. -/
theorem length_streamFrames (pcm : Bytes) (pad : Bool) : (streamFrames pcm pad).length =
    (cutFrames pcm).1.length + if pad && !(cutFrames pcm).2.1.isEmpty then 1 else 0 := by
  simp only [streamFrames]
  split <;> simp

/-- **A stream is delivered exactly when its end was handed over, and no remainder dropped.** -/
theorem Ended.delivered_iff (hs : s.Ended) (hacc : s.Accounted opus) (pad : Bool) :
    s.Delivered opus pad ↔ s.EndsStream pad := by
  have hpackets : s.EndHanded →
      s.packets = packetsOf 0 (opus.encodeAll opus.init s.pcmFrames).1 := by
    intro hend
    have hall := hacc.packets
    rw [(hs hend).2] at hall
    exact (List.append_nil _).symm.trans hall
  constructor
  · rintro ⟨⟨frames, hprefix, heq⟩, hend⟩
    refine ⟨hend, fun hpad ↦ ?_⟩
    subst hpad
    have hlen : frames.length = s.pcmFrames.length := by
      have h := congrArg List.length (heq.symm.trans (hpackets hend))
      simpa only [length_packetsOf, OpusEncoder.length_encodeAll] using h
    have hle := hprefix.length_le
    rw [hlen, length_streamFrames, pcmFrames, length_streamFrames] at hle
    cases hempty : (cutFrames s.accepted).2.1.isEmpty with
    | true => exact .inr rfl
    | false =>
        left
        rw [hempty] at hle
        cases hdrained : s.drained with
        | none =>
            rw [hdrained] at hle
            exact (Nat.not_succ_le_self _ hle).elim
        | some pad =>
            cases pad with
            | false =>
                rw [hdrained] at hle
                exact (Nat.not_succ_le_self _ hle).elim
            | true => rfl
  · rintro ⟨hend, hpad⟩
    refine ⟨⟨s.pcmFrames, ?_, hpackets hend⟩, hend⟩
    rw [pcmFrames]
    cases pad with
    | false =>
        rw [streamFrames_false]
        cases s.drained.getD false with
        | false => exact List.prefix_refl _
        | true =>
            rw [streamFrames_true]
            exact List.prefix_append _ _
    | true =>
        rcases hpad rfl with hdrained | hempty
        · rw [hdrained]
          exact List.prefix_refl _
        · rw [streamFrames_true, hempty, if_pos rfl, List.append_nil]
          cases s.drained.getD false with
          | false => exact List.prefix_refl _
          | true =>
              rw [streamFrames_true]
              exact List.prefix_append _ _

end Further

/-! ## The steps -/

section Honest

variable {opus : OpusEncoder ε} {s s' b : Session ε} {cc : Bool} {a : Label} {t : Nat} {k : Task}
  {pc : Pc}

theorem Outcome.others (h : Outcome b cc t k s') {t' : Nat} (hne : t' ≠ t) :
    s'.tasks[t']? = b.tasks[t']? := by
  cases h with
  | rests d pc h => exact getElem?_goto_of_ne h.tasks hne
  | event d packets streamId isEos force who h => exact getElem?_goto_of_ne h.tasks hne
  | close => exact getElem?_goto_of_ne rfl hne
  | noClose who => cases who <;> exact getElem?_goto_of_ne rfl hne
  | noStream => exact getElem?_goto_of_ne rfl hne

/-- A turn moves one task. -/
theorem Turn.others (h : Turn s cc a t k s') {t' : Nat} (hne : t' ≠ t) :
    s'.tasks[t']? = s.tasks[t']? := by
  cases h with
  | runs b s' _ hb h =>
      have htasks : b.tasks = s.tasks := by
        cases hb with
        | runs b h => exact h.tasks
        | cancels => rfl
        | opens => rfl
      rw [h.others hne, htasks]
  | closeSent streamId reason who => cases who <;> exact getElem?_goto_of_ne rfl hne
  | eventRaised packets streamId isEos force who =>
      cases who <;> exact getElem?_goto_of_ne rfl hne
  | closeRaised streamId reason who => cases who <;> exact getElem?_goto_of_ne rfl hne
  | _ => exact getElem?_goto_of_ne rfl hne

/-- A step moves no other task, and a new task is at its start. -/
theorem Proper.others (hs : s.Proper) (h : s.step opus cc a = some s') {t : Nat} {k : Task}
    (ht : s'.tasks[t]? = some k) (ha : a.task ≠ some t) :
    s.tasks[t]? = some k ∨ k.pc = .start := by
  have hnew : ∀ {c : Call}, (s.tasks ++ [⟨c, .start⟩])[t]? = some k →
      s.tasks[t]? = some k ∨ k.pc = .start := by
    intro c h
    rcases getElem?_concat_eq_some.mp h with hold | ⟨-, rfl⟩
    · exact .inl hold
    · exact .inr rfl
  rcases hs.turn_cases h with
    ⟨-, rfl⟩ | ⟨c, -, -, rfl⟩ | ⟨reason, -, rfl⟩ | ⟨t', k', htask, -, hturn⟩
  · rw [Session.start] at ht
    split at ht
    · exact hnew ht
    · exact .inl ht
  · exact hnew ht
  · rcases s.handleClose_cases reason with ⟨-, heq⟩ | ⟨-, heq⟩
    · rw [heq] at ht
      exact .inl ht
    · rw [heq] at ht
      exact .inl ht
  · left
    have hne : t ≠ t' := by
      rintro rfl
      exact ha htask
    rw [← hturn.others hne]
    exact ht

theorem Outcome.self (h : Outcome b cc t k s') (ht : b.tasks[t]? = some k) :
    ∃ pc, s'.tasks[t]? = some ⟨k.call, pc⟩ := by
  cases h with
  | rests d pc h => exact ⟨_, getElem?_goto_self ht h.tasks⟩
  | event d packets streamId isEos force who h => exact ⟨_, getElem?_goto_self ht h.tasks⟩
  | close => exact ⟨_, getElem?_goto_self ht rfl⟩
  | noClose who => cases who <;> exact ⟨_, getElem?_goto_self ht rfl⟩
  | noStream => exact ⟨_, getElem?_goto_self ht rfl⟩

/-- A task keeps its call. -/
theorem Turn.self (h : Turn s cc a t k s') (ht : s.tasks[t]? = some k) :
    ∃ pc, s'.tasks[t]? = some ⟨k.call, pc⟩ := by
  cases h with
  | runs b s' _ hb h =>
      have htasks : b.tasks = s.tasks := by
        cases hb with
        | runs b h => exact h.tasks
        | cancels => rfl
        | opens => rfl
      exact h.self (htasks ▸ ht)
  | closeSent streamId reason who => cases who <;> exact ⟨_, getElem?_goto_self ht rfl⟩
  | eventRaised packets streamId isEos force who =>
      cases who <;> exact ⟨_, getElem?_goto_self ht rfl⟩
  | closeRaised streamId reason who => cases who <;> exact ⟨_, getElem?_goto_self ht rfl⟩
  | _ => exact ⟨_, getElem?_goto_self ht rfl⟩

/-- A task that returns tells its connection nothing. -/
theorem Turn.log_of_returned (h : Turn s cc a t k s') (hreturned : s'.pc? t = some .returned) :
    s'.log = s.log := by
  cases h with
  | runs b s' _ hb h =>
      have hlog : b.log = s.log := by
        cases hb with
        | runs b h => exact h.log
        | cancels => rfl
        | opens => rfl
      rw [← hlog]
      cases h with
      | rests d pc h => exact h.log
      | event => cases returned_goto hreturned rfl
      | close => cases returned_goto hreturned rfl
      | noClose who => cases who <;> rfl
      | noStream => rfl
  | closeSent streamId reason who => cases who <;> rfl
  | eventRaised packets streamId isEos force who phase e _ hpc =>
      cases who with
      | write => cases returned_goto hreturned rfl
      | finish => cases returned_goto hreturned rfl
      | «open» => cases returned_goto hreturned rfl
  | closeRaised streamId reason who =>
      cases who <;> cases returned_goto hreturned rfl
  | _ => cases returned_goto hreturned rfl

/-- A `finish` returns when it runs. -/
theorem Proper.run_of_returned (hs : s.Proper) (h : s.step opus cc a = some s')
    {positive pad : Bool} (ht : s.tasks[t]? = some ⟨.finish positive pad, pc⟩)
    (ha : a.task = some t) (hreturned : s'.pc? t = some .returned) : a = .run t := by
  have hfits := hs.fits _ (List.mem_of_getElem? ht)
  have hpc : s.pc? t = some pc := Option.map_eq_some_iff.mpr ⟨_, ht, rfl⟩
  cases a with
  | run t' =>
      cases ha
      rfl
  | response t' status message onOpen =>
      cases ha
      simp only [Session.step, hpc, Option.some.injEq] at h
      split at h
      · next hawait =>
        subst hawait
        exact hfits.elim
      · cases h
  | sent t' =>
      cases ha
      simp only [Session.step] at h
      split at h
      · split at h
        · cases h
        · cases h
          cases returned_goto hreturned rfl
      · cases h
  | resume t' =>
      cases ha
      simp only [Session.step, hpc, Option.bind_some] at h
      exact (not_returned_resumeTask rfl hfits h hreturned).elim
  | fail t' e =>
      cases ha
      simp only [Session.step, hpc, Option.bind_some] at h
      exact (not_returned_failTask rfl hfits h hreturned).elim
  | timeout t' =>
      cases ha
      simp only [Session.step, hpc] at h
      split at h
      · cases h
        exact (not_returned_waitRaised s t _ hreturned).elim
      · next hshielded =>
        cases hshielded
        exact hfits.elim
      · cases h
  | _ => cases ha

/-- **A step keeps the returns of `finish` right exactly when no `finish` finds the session
closed before the end of its stream.** -/
theorem Proper.finishHonest_step (hs : s.Proper) (hended : s.Ended) (hacc : s.Accounted opus)
    (hacc' : s'.Accounted opus) (h : s.step opus cc a = some s') (hold : s.FinishHonest opus) :
    s'.FinishHonest opus ↔ s.ExitsBehindEnd a := by
  have hfurther := hs.further h
  have hended' := hfurther.ended hended
  constructor
  · intro hhonest
    cases a with
    | run t =>
        intro positive pad pc ht hexit hclosed herror
        have hrun : s.runTask opus cc t ⟨.finish positive pad, pc⟩ = some s' := by
          simpa only [Session.step, ht, Option.bind_some] using h
        have hreturned : s'.pc? t = some .returned :=
          (returned_runTask ht (hs.fits _ (List.mem_of_getElem? ht)) hrun).mpr
            ⟨hexit, hclosed, herror⟩
        obtain ⟨t', k', htask, ht', hturn⟩ : ∃ (t' : Nat) (k : Task), some t = some t' ∧
            s.tasks[t']? = some k ∧ Turn s cc (.run t) t' k s' := by
          rcases hs.turn_cases h with ⟨ha, -⟩ | ⟨c, ha, -⟩ | ⟨reason, ha, -⟩ | hturn
          · cases ha
          · cases ha
          · cases ha
          · exact hturn
        cases htask
        rw [ht] at ht'
        cases ht'
        have hlog := hturn.log_of_returned hreturned
        obtain ⟨pc', hk'⟩ := hturn.self ht
        have hpc' : pc' = .returned := by
          rw [pc?, hk'] at hreturned
          exact Option.some.inj hreturned
        subst hpc'
        rcases hhonest _ (List.mem_of_getElem? hk') positive pad rfl rfl with
          ⟨-, hdelivered⟩ | ⟨e, he⟩
        · obtain ⟨hend, hpad⟩ := (hended'.delivered_iff hacc' pad).mp hdelivered
          have hend : s.EndHanded := (endHanded_of_events (events_of_log hlog)).mp hend
          have hending := (hended hend).1
          rw [hfurther.accepted hending, hfurther.drained hending] at hpad
          exact ⟨hend, hpad⟩
        · cases he
    | _ => trivial
  · intro hexits k hmem positive pad hcall hdone
    obtain ⟨t, ht⟩ := List.mem_iff_getElem?.mp hmem
    by_cases ha : a.task = some t
    · obtain ⟨c, pc'⟩ := k
      cases pc' with
      | returned =>
          left
          refine ⟨rfl, (hended'.delivered_iff hacc' pad).mpr ?_⟩
          have hreturned : s'.pc? t = some .returned := Option.map_eq_some_iff.mpr ⟨_, ht, rfl⟩
          obtain ⟨⟨c', pc⟩, hk, rfl⟩ : ∃ k : Task, s.tasks[t]? = some k ∧ k.call = c := by
            rcases hs.turn_cases h with
              ⟨rfl, -⟩ | ⟨c, rfl, -⟩ | ⟨reason, rfl, -⟩ | ⟨t', k, htask, hk, hturn⟩
            · cases ha
            · cases ha
            · cases ha
            · rw [ha] at htask
              cases htask
              obtain ⟨pc, hself⟩ := hturn.self hk
              rw [ht] at hself
              cases hself
              exact ⟨k, hk, rfl⟩
          have hcall : c' = .finish positive pad := hcall
          subst hcall
          have hrun := hs.run_of_returned h hk ha hreturned
          subst hrun
          have hstep : s.runTask opus cc t ⟨.finish positive pad, pc⟩ = some s' := by
            simpa only [Session.step, hk, Option.bind_some] using h
          obtain ⟨hexit, hclosed, herror⟩ :=
            (returned_runTask hk (hs.fits _ (List.mem_of_getElem? hk)) hstep).mp hreturned
          exact hfurther.endsStream hended (hexits positive pad pc hk hexit hclosed herror)
      | raised e => exact .inr ⟨e, rfl⟩
      | _ => cases hdone
    · rcases hs.others h ht ha with hk | hstart
      · rcases hold k (List.mem_of_getElem? hk) positive pad hcall hdone with
          ⟨hreturned, hdelivered⟩ | hraised
        · left
          refine ⟨hreturned, (hended'.delivered_iff hacc' pad).mpr ?_⟩
          exact hfurther.endsStream hended ((hended.delivered_iff hacc pad).mp hdelivered)
        · exact .inr hraised
      · rw [hstart] at hdone
        cases hdone

end Honest

end Session

end AtvRemote.Audio
