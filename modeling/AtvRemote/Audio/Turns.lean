import AtvRemote.Audio.Steps

/-!
# Where a step leaves its task

`step_cases` lists what a step does to the stream.  The laws about how a session ends need
the other side of it: where the task is left, and what became of the stream id, the error and
the flag that the session is closed.  `turn_cases` lists that, for tasks that are at the
places of their own coroutines (`Task.Fits`).
-/

namespace AtvRemote.Audio

open Lib

/-! ## The places of a coroutine -/

/-- The flush that a coroutine calls. -/
def Call.flusher : Call → Option Flusher
  | .open => some .open
  | .write _ => some .write
  | .finish _ _ => some .finish
  | _ => none

/-- The close that a coroutine sends. -/
def Call.closer : Call → Option Closer
  | .open => some .open
  | .finish _ _ => some .timeout
  | .cancel _ => some .cancel
  | .handleAck _ => some .ack
  | _ => none

/-- The task is at a place of its coroutine. -/
def Task.Fits : Task → Prop
  | ⟨.open, .sending .request _⟩ | ⟨.open, .awaitResponse⟩ | ⟨.open, .awaitLock .openFlush⟩ => True
  | ⟨.write _, .awaitLock (.write _)⟩ => True
  | ⟨.finish _ pad, .awaitLock (.finishDrain pad')⟩ => pad' = pad
  | ⟨.finish _ _, .awaitLock .finishFlush⟩ | ⟨.finish _ _, .awaitOpen⟩
  | ⟨.finish _ _, .awaitDone⟩ => True
  | ⟨.cancel _, .awaitShielded _⟩ => True
  | ⟨c, .sending (.data _ _ _ _ who) _⟩ => c.flusher = some who
  | ⟨c, .sending (.close _ _ who) _⟩ => c.closer = some who
  | ⟨_, .start⟩ | ⟨_, .returned⟩ | ⟨_, .raised _⟩ => True
  | _ => False

theorem Task.fits_data {c : Call} {packets : List Packet} {streamId : Int} {isEos force : Bool}
    {who : Flusher} {phase : SendPhase} :
    Task.Fits ⟨c, .sending (.data packets streamId isEos force who) phase⟩ ↔
      c.flusher = some who := by
  cases c <;> rfl

theorem Task.fits_close {c : Call} {streamId : Int} {reason : HDSCloseReason} {who : Closer}
    {phase : SendPhase} :
    Task.Fits ⟨c, .sending (.close streamId reason who) phase⟩ ↔ c.closer = some who := by
  cases c <;> rfl

/-- The task is about to call `_send_close`. -/
def Task.closer : Task → Option Closer
  | ⟨.open, .awaitResponse⟩ => some .open
  | ⟨.finish _ _, .awaitDone⟩ => some .timeout
  | ⟨.handleAck true, .start⟩ => some .ack
  | ⟨.cancel _, .start⟩ | ⟨.cancel _, .awaitShielded _⟩ => some .cancel
  | _ => none

theorem Task.closer_call {k : Task} {who : Closer} (h : k.closer = some who) :
    k.call.closer = some who := by
  rw [Task.closer.eq_def] at h
  split at h
  · exact h
  · exact h
  · exact h
  · exact h
  · exact h
  · cases h

namespace Session

variable {ε : Type}

/-- The task that a label moves. -/
def Label.task : Label → Option Nat
  | .run t | .response t _ _ _ | .sent t | .resume t | .fail t _ | .timeout t => some t
  | _ => none

/-! ## Turns -/

/-- A block of the coroutine `c` leaves the session standing as before: its stream id, its
error, and whether it is closed.  `finish` may have ended the stream. -/
structure SameStand (c : Call) (s b : Session ε) : Prop where
  tasks : b.tasks = s.tasks
  openTask : b.openTask = s.openTask
  streamId : b.streamId = s.streamId
  error : b.error = s.error
  closed : b.closed = s.closed
  closeSent : b.closeSent = s.closeSent
  cancelReason : b.cancelReason = s.cancelReason
  log : b.log = s.log
  ends : b.ending = s.ending ∧ b.drained = s.drained ∨ s.ending = false ∧ b.ending = true ∧
    ∃ positive pad, c = .finish positive pad ∧ b.drained = some pad
  /-- A stream that has ended gets no frames. -/
  frames : s.ending = true → s.frames = [] → b.frames = []
  accepted : s.ending = true → b.accepted = s.accepted

/-- What a task has seen where it waits, other than for its connection, or is done. -/
def Rests (b : Session ε) : Call → Pc → Prop
  | .finish _ _, .returned => b.closed = true ∧ b.error = none
  | _, .returned | _, .raised _ => True
  | .open, .awaitLock .openFlush => b.streamId.isSome = true
  | .write _, .awaitLock (.write _) => True
  | .finish _ pad, .awaitLock (.finishDrain pad') => pad' = pad
  | .finish _ _, .awaitLock .finishFlush | .finish _ _, .awaitOpen => b.ending = true
  | .finish _ _, .awaitDone => True
  | .cancel _, .awaitShielded _ => b.cancelReason.isSome = true
  | _, _ => False

/-- What the task `k` changes before it runs through a function that others call too. -/
inductive Begins (s : Session ε) (a : Label) (t : Nat) (k : Task) : Session ε → Prop
  | runs (b : Session ε) (h : SameStand k.call s b) : Begins s a t k b
  /-- `cancel` -/
  | cancels (reason : HDSCloseReason) (hk : k = ⟨.cancel reason, .start⟩)
      (hopen : s.closed = false) :
      Begins s a t k { s with ending := true, cancelReason := some reason }
  /-- `_open` behind a response that opens a stream. -/
  | opens (status : Int) (message : List (Obj × Obj)) (streamId : Int)
      (ha : a = .response t status message none) (hk : k = ⟨.open, .awaitResponse⟩)
      (hid : openedStream status message = (some streamId, none)) :
      Begins s a t k { s with streamId := some streamId }

/-- Where the task `k` gets from a session `b`. -/
inductive Outcome (b : Session ε) (connectionClosed : Bool) (t : Nat) (k : Task) :
    Session ε → Prop
  /-- It waits, or is done. -/
  | rests (b' : Session ε) (pc : Pc) (h : SameStand k.call b b') (hpc : Rests b' k.call pc) :
      Outcome b connectionClosed t k (b'.goto t pc)
  /-- It hands a data event over. -/
  | event (b' : Session ε) (packets : List Packet) (streamId : Int) (isEos force : Bool)
      (who : Flusher) (h : SameStand k.call b b') (hwho : k.call.flusher = some who)
      (hid : b'.streamId = some streamId) (hforce : force = true → b'.ending = true)
      (hlast : isEos = true → force = true ∧ b'.frames = []) :
      Outcome b connectionClosed t k (b'.hand t (.data packets streamId isEos force who))
  /-- It hands a close over. -/
  | close (streamId : Int) (reason : HDSCloseReason) (who : Closer) (hwho : k.closer = some who)
      (hopened : who = .open → b.cancelReason.isSome = true)
      (hstart : k.pc = .start → b.closed = false)
      (hid : b.streamId = some streamId) (hmay : b.mayClose connectionClosed = true) :
      Outcome b connectionClosed t k (b.hand t (.close streamId reason who))
  /-- The guard of `_send_close` holds it back. -/
  | noClose (who : Closer) (hwho : k.closer = some who)
      (hopened : who = .open → b.cancelReason.isSome = true)
      (hstart : k.pc = .start → b.closed = false) (hsome : who = .ack → b.streamId.isSome = true)
      (hmay : b.mayClose connectionClosed = false) :
      Outcome b connectionClosed t k (b.closeReturned t who)
  /-- `cancel` without a stream. -/
  | noStream (hwho : k.closer = some .cancel) (hstart : k.pc = .start → b.closed = false)
      (hid : b.streamId = none) :
      Outcome b connectionClosed t k (b.markDone.goto t .returned)

/-- A step of the task `t`; `k` is the task before it. -/
inductive Turn (s : Session ε) (connectionClosed : Bool) (a : Label) (t : Nat) (k : Task) :
    Session ε → Prop
  /-- `_open` hands its request over. -/
  | request (hk : k = ⟨.open, .start⟩) : Turn s connectionClosed a t k (s.hand t .request)
  /-- A frame is written. -/
  | written (send : Send) (hk : k.pc = .sending send .queued) :
      Turn s connectionClosed a t k
        ((s.record (.written send.outgoing)).goto t (.sending send .drain))
  /-- The request is sent. -/
  | requestSent (hk : k.pc = .sending .request .drain) :
      Turn s connectionClosed a t k (s.goto t .awaitResponse)
  /-- The task runs on. -/
  | runs (b s' : Session ε) (hstart : k.pc = .start → a = .run t) (hb : Begins s a t k b)
      (h : Outcome b connectionClosed t k s') : Turn s connectionClosed a t k s'
  /-- The task is cancelled before it starts. -/
  | unstarted (e : PyErr) (ha : a = .fail t e) (hk : k.pc = .start) :
      Turn s connectionClosed a t k (s.goto t (.raised e))
  /-- A response is refused, or its callback raises; the stream may have been assigned. -/
  | refused (status : Int) (message : List (Obj × Obj)) (onOpen : Option PyErr) (e : PyErr)
      (ha : a = .response t status message onOpen) (hk : k.pc = .awaitResponse)
      (he : (openedStream status message).2.or onOpen = some e) :
      Turn s connectionClosed a t k
        (openRaised { s with streamId := (openedStream status message).1.or s.streamId } t e)
  /-- A close is sent. -/
  | closeSent (streamId : Int) (reason : HDSCloseReason) (who : Closer)
      (hk : k.pc = .sending (.close streamId reason who) .drain) :
      Turn s connectionClosed a t k ({ s with closeSent := true }.closeReturned t who)
  /-- `_open` raises at an `await`, other than in a send of its own. -/
  | openRaised (e : PyErr) (ha : a = .fail t e)
      (hk : k.pc = .awaitResponse ∨ k.pc = .awaitLock .openFlush ∧ e = .cancelledError) :
      Turn s connectionClosed a t k (s.openRaised t e)
  /-- The send of the request raises. -/
  | requestRaised (phase : SendPhase) (e : PyErr) (ha : a = .fail t e)
      (hk : k.pc = .sending .request phase) :
      Turn s connectionClosed a t k ((s.record (.raised .open)).openRaised t e)
  /-- The send of an event raises. -/
  | eventRaised (packets : List Packet) (streamId : Int) (isEos force : Bool) (who : Flusher)
      (phase : SendPhase) (e : PyErr) (ha : a = .fail t e)
      (hk : k.pc = .sending (.data packets streamId isEos force who) phase) :
      Turn s connectionClosed a t k
        ((s.record (.raised (.data packets streamId isEos))).flushRaised t e who)
  /-- The send of a close raises. -/
  | closeRaised (streamId : Int) (reason : HDSCloseReason) (who : Closer) (phase : SendPhase)
      (e : PyErr) (ha : a = .fail t e) (hk : k.pc = .sending (.close streamId reason who) phase) :
      Turn s connectionClosed a t k
        ((s.record (.raised (.close streamId reason))).closeRaised t e who)

section Stands

variable {c : Call} {s b d : Session ε}

theorem SameStand.refl (s : Session ε) : SameStand c s s :=
  ⟨rfl, rfl, rfl, rfl, rfl, rfl, rfl, rfl, .inl ⟨rfl, rfl⟩, fun _ ↦ id, fun _ ↦ rfl⟩

theorem SameStand.ending (h : SameStand c s b) (hs : s.ending = true) : b.ending = true := by
  rcases h.ends with ⟨heq, -⟩ | ⟨-, hb, -⟩
  · exact heq.trans hs
  · exact hb

theorem SameStand.trans (h : SameStand c s b) (h' : SameStand c b d) : SameStand c s d where
  tasks := h'.tasks.trans h.tasks
  openTask := h'.openTask.trans h.openTask
  streamId := h'.streamId.trans h.streamId
  error := h'.error.trans h.error
  closed := h'.closed.trans h.closed
  closeSent := h'.closeSent.trans h.closeSent
  cancelReason := h'.cancelReason.trans h.cancelReason
  log := h'.log.trans h.log
  ends := by
    rcases h'.ends with ⟨heq, hdrained⟩ | ⟨hopen, hend, hpad⟩
    · rw [heq, hdrained]
      exact h.ends
    · rcases h.ends with ⟨heq, -⟩ | ⟨-, hb, -⟩
      · exact .inr ⟨heq.symm.trans hopen, hend, hpad⟩
      · rw [hb] at hopen
        cases hopen
  frames hending hnil := h'.frames (h.ending hending) (h.frames hending hnil)
  accepted hending := (h'.accepted (h.ending hending)).trans (h.accepted hending)

theorem SameStand.release (h : SameStand c s b) : SameStand c s b.release :=
  h.trans ⟨rfl, rfl, rfl, rfl, rfl, rfl, rfl, rfl, .inl ⟨rfl, rfl⟩, fun _ ↦ id, fun _ ↦ rfl⟩

theorem SameStand.hold (h : SameStand c s b) (t : Nat) : SameStand c s (b.hold t) :=
  h.trans ⟨rfl, rfl, rfl, rfl, rfl, rfl, rfl, rfl, .inl ⟨rfl, rfl⟩, fun _ ↦ id, fun _ ↦ rfl⟩

end Stands

section Outcomes

variable {opus : OpusEncoder ε} {b d : Session ε} {cc : Bool} {t : Nat} {k : Task}

/-- A block may end without a wait for its connection. -/
theorem Outcome.done (h : SameStand k.call b d) (hk : k.call.flusher ≠ some .finish) :
    Outcome b cc t k (d.goto t .returned) := by
  refine .rests d .returned h ?_
  cases hc : k.call with
  | finish => exact (hk (by rw [hc]; rfl)).elim
  | _ => exact trivial

theorem Outcome.raise (h : SameStand k.call b d) (e : PyErr) :
    Outcome b cc t k (d.goto t (.raised e)) := by
  refine .rests d (.raised e) h ?_
  cases k.call <;> exact trivial

theorem outcome_flushReturned (h : SameStand k.call b d) {who : Flusher}
    (hwho : k.call.flusher = some who) : Outcome b cc t k (d.flushReturned t who) := by
  cases who with
  | «open» => exact .done h.release (by rw [hwho]; nofun)
  | write => exact .done h.release (by rw [hwho]; nofun)
  | finish =>
      refine .rests d.release .awaitDone h.release ?_
      cases hc : k.call with
      | finish => exact trivial
      | _ =>
          rw [hc] at hwho
          cases hwho

theorem outcome_flushLoop (h : SameStand k.call b d) {who : Flusher}
    (hwho : k.call.flusher = some who)
    {streamId : Int} (hid : d.streamId = some streamId) {force : Bool}
    (hforce : force = true → d.ending = true) :
    Outcome b cc t k (d.flushLoop t streamId force who) := by
  rw [flushLoop]
  split
  · refine .event _ _ streamId _ force who (h.trans ?_) hwho hid hforce fun hlast ↦ ?_
    · refine ⟨rfl, rfl, rfl, rfl, rfl, rfl, rfl, rfl, .inl ⟨rfl, rfl⟩, fun _ hnil ↦ ?_, fun _ ↦ rfl⟩
      exact (congrArg (List.drop framesPerHdsEvent) hnil).trans List.drop_nil
    · simpa using hlast
  · split
    · next heos =>
      simp only [Bool.and_eq_true, List.isEmpty_iff] at heos
      exact .event d _ streamId _ force who h hwho hid hforce fun _ ↦ heos.1
    · exact outcome_flushReturned h hwho

theorem outcome_flush (h : SameStand k.call b d) {who : Flusher} (hwho : k.call.flusher = some who)
    {force : Bool} (hforce : force = true → d.ending = true) :
    Outcome b cc t k (d.flush t force who) := by
  rw [flush]
  split
  · exact outcome_flushReturned h hwho
  · next hid =>
    split
    · exact outcome_flushReturned h hwho
    · exact outcome_flushLoop h hwho hid hforce

/-- The event of a flush is sent. -/
theorem outcome_flushResume (h : SameStand k.call b d) {who : Flusher}
    (hwho : k.call.flusher = some who)
    {force : Bool} (hforce : force = true → d.ending = true) (isEos : Bool) :
    Outcome b cc t k (d.flushResume t force isEos who) := by
  rw [flushResume]
  split
  · exact outcome_flushReturned (d := { d with eosSent := true })
      (h.trans ⟨rfl, rfl, rfl, rfl, rfl, rfl, rfl, rfl, .inl ⟨rfl, rfl⟩, fun _ ↦ id, fun _ ↦ rfl⟩)
      hwho
  · split
    · next hid => exact outcome_flushLoop h hwho hid hforce
    · exact outcome_flushReturned h hwho

/-! ### The blocks under the I/O lock -/

theorem outcome_writeLocked (h : SameStand k.call b d) {pcm : Bytes} (hk : k.call = .write pcm)
    (pcm' : Bytes) : Outcome b cc t k (d.writeLocked opus t pcm') := by
  have hwho : k.call.flusher = some .write := by rw [hk]; rfl
  rw [writeLocked]
  split
  · exact .raise h.release _
  · next hgo =>
    have hopen : d.ending = false := by
      simp only [Bool.or_eq_true, not_or, Bool.not_eq_true] at hgo
      exact hgo.1
    have hgoes : ∀ {p : Prop}, d.ending = true → p := by
      intro p hending
      rw [hopen] at hending
      cases hending
    have hbuffer : SameStand k.call b (d.buffer opus pcm') :=
      h.trans ⟨rfl, rfl, rfl, rfl, rfl, rfl, rfl, rfl, .inl ⟨rfl, rfl⟩, hgoes, hgoes⟩
    simp only
    split
    · exact outcome_flush hbuffer hwho nofun
    · exact .done hbuffer.release (by rw [hwho]; nofun)

/-- `finish` behind the wait for the open task. -/
theorem outcome_finishOpened (h : SameStand k.call b d) {positive pad : Bool}
    (hk : k.call = .finish positive pad) (hending : d.ending = true) :
    Outcome b cc t k (d.finishOpened t) := by
  rw [finishOpened]
  split
  · next hclosed =>
    split
    · exact .raise h _
    · next herror =>
      refine .rests d .returned h ?_
      rw [hk]
      exact ⟨hclosed, herror⟩
  · split
    · exact outcome_flush (h.hold t) (by rw [hk]; rfl) fun _ ↦ hending
    · refine .rests d _ h ?_
      rw [hk]
      exact hending

theorem outcome_finishDrained (h : SameStand k.call b d) {positive pad : Bool}
    (hk : k.call = .finish positive pad) (hending : d.ending = true) :
    Outcome b cc t k (d.finishDrained t) := by
  rw [finishDrained]
  split
  · exact outcome_finishOpened h hk hending
  · exact outcome_finishOpened h hk hending
  · exact .raise h _
  · refine .rests d .awaitOpen h ?_
    rw [hk]
    exact hending

theorem sameStand_drainBuffer (d : Session ε) (positive pad : Bool) :
    SameStand (.finish positive pad) d (d.drainBuffer opus pad) := by
  rw [drainBuffer]
  split
  · exact .refl d
  · next hopen =>
    have hopen : d.ending = false := Bool.eq_false_iff.mpr hopen
    have hends : d.ending = false ∧ true = true ∧ ∃ positive' pad',
        Call.finish positive pad = .finish positive' pad' ∧ some pad = some pad' :=
      ⟨hopen, rfl, positive, pad, rfl, rfl⟩
    have hgoes : ∀ {p : Prop}, d.ending = true → p := by
      intro p hending
      rw [hopen] at hending
      cases hending
    simp only
    split
    · exact ⟨rfl, rfl, rfl, rfl, rfl, rfl, rfl, rfl, .inr hends, hgoes, hgoes⟩
    · split <;> exact ⟨rfl, rfl, rfl, rfl, rfl, rfl, rfl, rfl, .inr hends, hgoes, hgoes⟩

/-- The first block of `finish` ends the stream. -/
theorem ending_drainBuffer (d : Session ε) (pad : Bool) :
    (d.drainBuffer opus pad).ending = true := by
  rw [drainBuffer]
  split
  · next hending => exact hending
  · simp only
    split
    · rfl
    · split <;> rfl

/-- A block that the task has entered. -/
theorem outcome_locked (h : SameStand k.call b d) {use : LockUse}
    (hk : (⟨k.call, .awaitLock use⟩ : Task).Fits) (hending : use = .finishFlush → d.ending = true) :
    Outcome b cc t k (d.locked opus t use) := by
  obtain ⟨c, pc⟩ := k
  cases use with
  | openFlush =>
      cases c with
      | «open» => exact outcome_flush h rfl id
      | _ => exact hk.elim
  | write pcm =>
      cases c with
      | write => exact outcome_writeLocked h rfl pcm
      | _ => exact hk.elim
  | finishDrain pad =>
      cases c with
      | finish positive pad' =>
          have hpad : pad = pad' := hk
          subst hpad
          exact outcome_finishDrained (h.trans (sameStand_drainBuffer d positive pad)).release rfl
            (ending_drainBuffer d pad)
      | _ => exact hk.elim
  | finishFlush =>
      cases c with
      | finish => exact outcome_flush h rfl fun _ ↦ hending rfl
      | _ => exact hk.elim

/-- `async with self._io_lock` -/
theorem outcome_acquire (h : SameStand k.call b d) {use : LockUse}
    (hk : (⟨k.call, .awaitLock use⟩ : Task).Fits) (hpc : Rests d k.call (.awaitLock use))
    (hending : use = .finishFlush → d.ending = true) : Outcome b cc t k (d.acquire opus t use) := by
  rw [acquire]
  split
  · exact outcome_locked (h.hold t) hk hending
  · exact .rests d _ h hpc

/-! ### The close -/

theorem outcome_sendClose {who : Closer} (hwho : k.closer = some who)
    (hopened : who = .open → b.cancelReason.isSome = true)
    (hstart : k.pc = .start → b.closed = false) (hsome : who = .ack → b.streamId.isSome = true)
    (reason : HDSCloseReason) :
    Outcome b cc t k (b.sendClose cc t reason who) := by
  rw [sendClose]
  split
  · next hmay hid => exact .close _ reason who hwho hopened hstart hid hmay
  · next hno =>
    refine .noClose who hwho hopened hstart hsome ?_
    cases hmay : b.mayClose cc with
    | false => rfl
    | true =>
        cases hid : b.streamId with
        | none => simp [mayClose, hid] at hmay
        | some streamId => exact (hno streamId hmay hid).elim

theorem outcome_cancelOpened (hwho : k.closer = some .cancel)
    (hstart : k.pc = .start → b.closed = false) (reason : HDSCloseReason) :
    Outcome b cc t k (b.cancelOpened cc t reason) := by
  rw [cancelOpened]
  split
  · exact outcome_sendClose hwho nofun hstart nofun reason
  · next hid => exact .noStream hwho hstart (by simpa using hid)

theorem outcome_waitRaised (hwho : k.closer = some .timeout)
    (hstart : k.pc = .start → b.closed = false) (e : PyErr) :
    Outcome b cc t k (b.waitRaised cc t e) := by
  rw [waitRaised]
  split
  · exact outcome_sendClose hwho nofun hstart nofun .timeout
  · exact .raise (.refl b) e

end Outcomes

/-! ## Steps -/

section Steps

variable {opus : OpusEncoder ε} {s s' : Session ε} {cc : Bool} {t : Nat} {k : Task}

/-- The first step of a coroutine. -/
theorem turn_begin (hk : k.pc = .start) :
    Turn s cc (.run t) t k (s.begin opus cc t k.call) := by
  obtain ⟨c, pc⟩ := k
  subst hk
  have hruns : ∀ {s'}, Outcome s cc t ⟨c, .start⟩ s' → Turn s cc (.run t) t ⟨c, .start⟩ s' :=
    fun h ↦ .runs s _ (fun _ ↦ rfl) (.runs s (.refl s)) h
  cases c with
  | «open» => exact .request rfl
  | write pcm =>
      refine hruns ?_
      rw [begin.eq_def]
      simp only
      split
      · exact .done (.refl s) nofun
      · exact outcome_acquire (.refl s) trivial trivial nofun
  | finish positive pad =>
      refine hruns ?_
      rw [begin.eq_def]
      simp only
      split
      · exact .raise (.refl s) _
      · split
        · next hclosed =>
          split
          · exact .raise (.refl s) _
          · next herror => exact .rests s .returned (.refl s) ⟨hclosed, herror⟩
        · exact outcome_acquire (.refl s) rfl rfl nofun
  | cancel reason =>
      rw [begin.eq_def]
      simp only
      split
      · exact hruns (.done (.refl s) nofun)
      · next hopen =>
        have hopen : s.closed = false := Bool.eq_false_iff.mpr hopen
        have hcancels := Begins.cancels (t := t) (a := .run t) reason rfl hopen
        split
        · exact .runs _ _ (fun _ ↦ rfl) hcancels (.rests _ _ (.refl _) rfl)
        · refine .runs _ _ (fun _ ↦ rfl) hcancels ?_
          refine outcome_cancelOpened (k := ⟨.cancel reason, .start⟩) rfl (fun _ ↦ ?_) reason
          exact hopen
  | handleAck endOfStream =>
      refine hruns ?_
      rw [begin.eq_def]
      simp only
      split
      · exact .done (.refl s) nofun
      · next hgo =>
        simp only [Bool.or_eq_true, not_or, Bool.not_eq_true] at hgo
        have heos : endOfStream = true := by simpa using hgo.1.2
        subst heos
        have hwho : Task.closer ⟨.handleAck true, .start⟩ = some .ack := rfl
        have hsome : s.streamId.isSome = true := by simpa using hgo.2
        exact outcome_sendClose hwho nofun (fun _ ↦ hgo.1.1) (fun _ ↦ hsome) .normal

/-- A task that runs on. -/
theorem turn_runTask (hk : k.Fits)
    (hending : k.pc = .awaitLock .finishFlush ∨ k.pc = .awaitOpen → s.ending = true)
    (h : s.runTask opus cc t k = some s') : Turn s cc (.run t) t k s' := by
  have hruns : ∀ {s'}, Outcome s cc t k s' → Turn s cc (.run t) t k s' :=
    fun h ↦ .runs s _ (fun _ ↦ rfl) (.runs s (.refl s)) h
  obtain ⟨c, pc⟩ := k
  rw [runTask.eq_def] at h
  cases pc with
  | start =>
      cases h
      exact turn_begin rfl
  | awaitLock use =>
      simp only at h
      split at h
      · cases h
        refine hruns (outcome_locked ((SameStand.refl s).hold t) hk ?_)
        rintro rfl
        exact hending (.inl rfl)
      · cases h
  | awaitOpen =>
      cases c with
      | finish positive pad =>
          simp only at h
          split at h
          · cases h
            exact hruns (outcome_finishOpened (.refl s) rfl (hending (.inr rfl)))
          · cases h
            exact hruns (.raise (.refl s) _)
          · cases h
      | _ => exact hk.elim
  | awaitDone =>
      cases c with
      | finish positive pad =>
          simp only at h
          split at h
          · next hclosed =>
            split at h
            · cases h
              refine hruns (outcome_waitRaised (k := ⟨.finish positive pad, .awaitDone⟩) rfl ?_ _)
              rintro ⟨⟩
            · next herror =>
              cases h
              exact hruns (.rests s .returned (.refl s) ⟨hclosed, herror⟩)
          · cases h
      | _ => exact hk.elim
  | awaitShielded reason =>
      cases c with
      | cancel given =>
          simp only at h
          split at h
          · cases h
            refine hruns
              (outcome_cancelOpened (k := ⟨.cancel given, .awaitShielded reason⟩) rfl ?_ _)
            rintro ⟨⟩
          · cases h
            exact hruns (.done (.refl s) nofun)
          · cases h
      | _ => exact hk.elim
  | _ => cases h

/-- A send that returns. -/
theorem turn_resumeTask (a : Label) (hk : k.Fits)
    (hforce : ∀ packets streamId isEos who phase,
      k.pc = .sending (.data packets streamId isEos true who) phase → s.ending = true)
    (h : s.resumeTask t k.pc = some s') : Turn s cc a t k s' := by
  obtain ⟨c, pc⟩ := k
  rw [resumeTask.eq_def] at h
  dsimp only at h
  split at h
  · cases h
    exact .requestSent rfl
  · next packets streamId isEos force who =>
    cases h
    refine .runs s _ (fun h ↦ nomatch h) (.runs s (.refl s)) ?_
    refine outcome_flushResume (.refl s) (Task.fits_data.mp hk) ?_ isEos
    rintro rfl
    exact hforce _ _ _ _ _ rfl
  · cases h
    exact .closeSent _ _ _ rfl
  · cases h

/-- An `await` that raises. -/
theorem turn_failTask {e : PyErr} (hk : k.Fits) (h : s.failTask t e k.pc = some s') :
    Turn s cc (.fail t e) t k s' := by
  have hruns : ∀ {s'}, k.pc ≠ .start → Outcome s cc t k s' → Turn s cc (.fail t e) t k s' :=
    fun hne h ↦ .runs s _ (fun hk ↦ (hne hk).elim) (.runs s (.refl s)) h
  obtain ⟨c, pc⟩ := k
  rw [failTask.eq_def] at h
  dsimp only at h
  split at h
  · split at h
    · cases h
      exact .unstarted e rfl rfl
    · cases h
  · split at h
    · next he =>
      cases h
      exact .openRaised e rfl (.inr ⟨rfl, he⟩)
    · cases h
  · split at h
    · cases h
      exact hruns (fun h ↦ nomatch h) (.raise (.refl s) e)
    · cases h
  · cases h
    exact .openRaised e rfl (.inl rfl)
  · split at h
    · cases h
      exact hruns (fun h ↦ nomatch h) (.raise (.refl s) e)
    · cases h
  · split at h
    · cases h
      cases c with
      | cancel => exact hruns (fun h ↦ nomatch h) (.done (.refl s) nofun)
      | _ => exact hk.elim
    · cases h
  · next send phase =>
    cases send with
    | request =>
        cases h
        exact .requestRaised phase e rfl rfl
    | data packets streamId isEos force who =>
        cases h
        exact .eventRaised packets streamId isEos force who phase e rfl rfl
    | close streamId reason who =>
        cases h
        exact .closeRaised streamId reason who phase e rfl rfl
  · cases h

/-- `_open` behind a response that opens a stream. -/
theorem outcome_openResponse {status : Int} {message : List (Obj × Obj)} {streamId : Int}
    (hk : k = ⟨.open, .awaitResponse⟩)
    (hid : openedStream status message = (some streamId, none)) :
    Outcome { s with streamId := some streamId } cc t k
      (s.openResponse opus cc t status message none) := by
  subst hk
  simp only [openResponse, hid, Option.some_or, Option.none_or]
  split
  · next hreason =>
    have hwho : Task.closer ⟨.open, .awaitResponse⟩ = some .open := rfl
    refine outcome_sendClose hwho (fun _ ↦ ?_) (fun h ↦ nomatch h) (fun h ↦ nomatch h) _
    exact Option.isSome_of_eq_some hreason
  · exact outcome_acquire (.refl _) trivial rfl nofun

/-- `_open` behind the response. -/
theorem turn_openResponse {status : Int} {message : List (Obj × Obj)} {onOpen : Option PyErr}
    (hk : k = ⟨.open, .awaitResponse⟩) :
    Turn s cc (.response t status message onOpen) t k
      (s.openResponse opus cc t status message onOpen) := by
  cases he : (openedStream status message).2.or onOpen with
  | some e =>
      simp only [openResponse, he]
      exact .refused status message onOpen e rfl (by rw [hk]) he
  | none =>
      obtain ⟨hvalid, rfl⟩ := Option.or_eq_none_iff.mp he
      obtain ⟨streamId, hid⟩ := Option.isSome_iff_exists.mp (isSome_of_openedStream hvalid)
      have hopened : openedStream status message = (some streamId, none) := by
        rw [← hid, ← hvalid]
      exact .runs _ _ (by rw [hk]; nofun) (.opens status message streamId rfl hk hopened)
        (outcome_openResponse hk hopened)

/-- `handle_close` closes a session that is open, and keeps a reason that it had. -/
theorem handleClose_cases (s : Session ε) (reason : Int) :
    s.closed = true ∧ s.handleClose reason = s.record (.received reason) ∨
      s.closed = false ∧ s.handleClose reason =
        markDone { s.record (.received reason) with error := (closeError reason).or s.error } := by
  cases hclosed : s.closed with
  | true => exact .inl ⟨rfl, if_pos hclosed⟩
  | false => exact .inr ⟨rfl, if_neg (Bool.eq_false_iff.mp hclosed)⟩

/-- **The steps of a session whose tasks fit.** -/
theorem turn_cases {a : Label} (hfits : ∀ k ∈ s.tasks, k.Fits)
    (hending : ∀ k ∈ s.tasks, k.pc = .awaitLock .finishFlush ∨ k.pc = .awaitOpen ∨
      (∃ packets streamId isEos who phase,
        k.pc = .sending (.data packets streamId isEos true who) phase) → s.ending = true)
    (h : s.step opus cc a = some s') :
    (a = .start ∧ s' = s.start) ∨ (∃ c, a = .call c ∧ c ≠ .open ∧ s' = s.spawn c) ∨
      (∃ reason, a = .handleClose reason ∧ s' = s.handleClose reason) ∨
      ∃ (t : Nat) (k : Task), a.task = some t ∧ s.tasks[t]? = some k ∧ Turn s cc a t k s' := by
  have hpc : ∀ {t : Nat} {pc : Pc}, s.pc? t = some pc →
      ∃ k : Task, s.tasks[t]? = some k ∧ k.pc = pc := fun h ↦ Option.map_eq_some_iff.mp h
  have hturn : ∀ {t : Nat} {k : Task}, a.task = some t → s.tasks[t]? = some k →
      Turn s cc a t k s' →
      (a = .start ∧ s' = s.start) ∨ (∃ c, a = .call c ∧ c ≠ .open ∧ s' = s.spawn c) ∨
        (∃ reason, a = .handleClose reason ∧ s' = s.handleClose reason) ∨
        ∃ (t : Nat) (k : Task), a.task = some t ∧ s.tasks[t]? = some k ∧ Turn s cc a t k s' :=
    fun ha ht h ↦ .inr (.inr (.inr ⟨_, _, ha, ht, h⟩))
  cases a with
  | start =>
      cases h
      exact .inl ⟨rfl, rfl⟩
  | call c =>
      cases c with
      | «open» => cases h
      | _ =>
          cases h
          exact .inr (.inl ⟨_, rfl, (by rintro ⟨⟩), rfl⟩)
  | run t =>
      obtain ⟨k, ht, hrun⟩ := Option.bind_eq_some_iff.mp h
      have hmem := List.mem_of_getElem? ht
      refine hturn rfl ht (turn_runTask (hfits k hmem) (fun hwait ↦ hending k hmem ?_) hrun)
      exact hwait.imp_right .inl
  | response t status message onOpen =>
      simp only [step] at h
      split at h
      · next hawait =>
        cases h
        obtain ⟨⟨c, pc⟩, ht, rfl⟩ := hpc hawait
        refine hturn rfl ht (turn_openResponse ?_)
        cases c with
        | «open» => rfl
        | _ => exact (hfits _ (List.mem_of_getElem? ht)).elim
      · cases h
  | sent t =>
      simp only [step] at h
      split at h
      · next send hsend =>
        obtain ⟨k, ht, hk⟩ := hpc hsend
        split at h
        · cases h
        · cases h
          exact hturn rfl ht (.written send hk)
      · cases h
  | resume t =>
      obtain ⟨pc, hsome, hrun⟩ := Option.bind_eq_some_iff.mp h
      obtain ⟨k, ht, rfl⟩ := hpc hsome
      have hmem := List.mem_of_getElem? ht
      exact hturn rfl ht (turn_resumeTask _ (hfits k hmem)
        (fun packets streamId isEos who phase hk ↦
          hending k hmem (.inr (.inr ⟨packets, streamId, isEos, who, phase, hk⟩))) hrun)
  | fail t e =>
      obtain ⟨pc, hsome, hrun⟩ := Option.bind_eq_some_iff.mp h
      obtain ⟨k, ht, rfl⟩ := hpc hsome
      exact hturn rfl ht (turn_failTask (hfits k (List.mem_of_getElem? ht)) hrun)
  | timeout t =>
      simp only [step] at h
      split at h
      · next hawait =>
        cases h
        obtain ⟨⟨c, pc⟩, ht, rfl⟩ := hpc hawait
        cases c with
        | finish =>
            refine hturn rfl ht (.runs s _ (by rintro ⟨⟩) (.runs s (.refl s)) ?_)
            refine outcome_waitRaised (k := ⟨.finish _ _, .awaitDone⟩) rfl ?_ _
            rintro ⟨⟩
        | _ => exact (hfits _ (List.mem_of_getElem? ht)).elim
      · next hawait =>
        cases h
        obtain ⟨⟨c, pc⟩, ht, rfl⟩ := hpc hawait
        cases c with
        | cancel =>
            refine hturn rfl ht (.runs s _ (by rintro ⟨⟩) (.runs s (.refl s)) ?_)
            exact .done (.refl s) (by rintro ⟨⟩)
        | _ => exact (hfits _ (List.mem_of_getElem? ht)).elim
      · cases h
  | handleClose reason =>
      cases h
      exact .inr (.inr (.inl ⟨reason, rfl, rfl⟩))

end Steps

end Session

end AtvRemote.Audio
