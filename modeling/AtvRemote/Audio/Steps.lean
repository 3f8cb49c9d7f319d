import AtvRemote.Audio.Session
import AtvRemote.Lib.System

/-!
# What one step of a session can do

`Session.step` runs a task from one suspension to the next, through up to four functions
of the source.  `Session.step_cases` lists the outcomes once, as a relation on the states
before and after; every law about the runs of a session is derived from it.

The conditions of the outcomes are stated on the state before the step: `takesLock` is
the lock block that a label enters, `startsFlush` says that the block begins a flush with
an event due, and `handsClose` that a label gets past the guard of `_send_close`.
-/

namespace AtvRemote.Audio.Session

open Lib

variable {ε : Type}

/-! ## Moving a task -/

section Goto

variable (s : Session ε) (t : Nat) (pc : Pc)

@[simp] theorem goto_log : (s.goto t pc).log = s.log := rfl
@[simp] theorem goto_closed : (s.goto t pc).closed = s.closed := rfl
@[simp] theorem goto_closeSent : (s.goto t pc).closeSent = s.closeSent := rfl
@[simp] theorem goto_ioLock : (s.goto t pc).ioLock = s.ioLock := rfl
@[simp] theorem goto_frames : (s.goto t pc).frames = s.frames := rfl
@[simp] theorem goto_streamId : (s.goto t pc).streamId = s.streamId := rfl
@[simp] theorem goto_ending : (s.goto t pc).ending = s.ending := rfl
@[simp] theorem goto_eosSent : (s.goto t pc).eosSent = s.eosSent := rfl

theorem goto_tasks : (s.goto t pc).tasks = s.tasks.modify t fun k ↦ { k with pc } := rfl

theorem tasks_goto (t' : Nat) : (s.goto t pc).tasks[t']? =
    if t' = t then s.tasks[t]?.map fun k ↦ { k with pc } else s.tasks[t']? := by
  rw [goto_tasks, List.getElem?_modify]
  split
  · next h =>
    rw [if_pos h.symm, h]
    rfl
  · next h =>
    rw [if_neg (Ne.symm h)]
    cases s.tasks[t']? <;> rfl

theorem pc?_goto_self {k : Task} (h : s.tasks[t]? = some k) : (s.goto t pc).pc? t = some pc := by
  rw [pc?, tasks_goto, if_pos rfl, h]
  rfl

variable {s t}

/-- Some task is at a place with the property: the moved one, or another one. -/
theorem exists_task_goto {P : Pc → Prop} {k : Task} (ht : s.tasks[t]? = some k) :
    (∃ k ∈ (s.goto t pc).tasks, P k.pc) ↔
      P pc ∨ ∃ (t' : Nat) (k' : Task), t' ≠ t ∧ s.tasks[t']? = some k' ∧ P k'.pc := by
  constructor
  · rintro ⟨k', hmem, hP⟩
    obtain ⟨t', ht'⟩ := List.mem_iff_getElem?.mp hmem
    rw [tasks_goto] at ht'
    split at ht'
    · rw [ht, Option.map_some, Option.some.injEq] at ht'
      subst ht'
      exact .inl hP
    · next hne => exact .inr ⟨t', k', hne, ht', hP⟩
  · rintro (hP | ⟨t', k', hne, ht', hP⟩)
    · refine ⟨{ k with pc }, List.mem_iff_getElem?.mpr ⟨t, ?_⟩, hP⟩
      rw [tasks_goto, if_pos rfl, ht]
      rfl
    · exact ⟨k', List.mem_iff_getElem?.mpr ⟨t', by rw [tasks_goto, if_neg hne, ht']⟩, hP⟩

/-- Some task is at a place with the property: the given one, or another one. -/
theorem exists_task_iff {P : Pc → Prop} {k : Task} (ht : s.tasks[t]? = some k) :
    (∃ k ∈ s.tasks, P k.pc) ↔
      P k.pc ∨ ∃ (t' : Nat) (k' : Task), t' ≠ t ∧ s.tasks[t']? = some k' ∧ P k'.pc := by
  have hself : s.goto t k.pc = s := by
    have htasks : s.tasks.modify t (fun k' ↦ { k' with pc := k.pc }) = s.tasks := by
      apply List.ext_getElem?
      intro t'
      have := s.tasks_goto t k.pc t'
      rw [goto_tasks] at this
      rw [this]
      split
      · next h => rw [h, ht]; rfl
      · rfl
    simp only [goto, htasks]
  have h := exists_task_goto (P := P) k.pc ht
  rwa [hself] at h

end Goto

/-! ## What a label leads to -/

/-- The response opens a stream. -/
def opensStream (status : Int) (message : List (Obj × Obj)) (onOpen : Option PyErr) : Bool :=
  (openedStream status message).1.isSome && ((openedStream status message).2.or onOpen).isNone

/-- The task that takes the I/O lock, and the block it enters. -/
def takesLock (s : Session ε) : Label → Option (Nat × LockUse)
  | .run t => match s.tasks[t]? with
      | some ⟨.write pcm, .start⟩ =>
          if !pcm.isEmpty && s.lockFree t then some (t, .write pcm) else none
      | some ⟨.finish timeoutPositive pad, .start⟩ =>
          if timeoutPositive && !s.closed && s.lockFree t then some (t, .finishDrain pad)
          else none
      | some ⟨_, .awaitLock use⟩ => if s.ioLock.isNone then some (t, use) else none
      | some ⟨_, .awaitOpen⟩ =>
          if s.openPc = some .returned && !s.closed && s.lockFree t then some (t, .finishFlush)
          else none
      | _ => none
  | .response t status message onOpen =>
      if s.pc? t = some .awaitResponse && opensStream status message onOpen &&
        s.cancelReason.isNone && s.lockFree t then some (t, .openFlush)
      else none
  | _ => none

/-- A forced flush finds an event due. -/
def forcedDue (s : Session ε) : Bool := s.streamId.isSome && !s.closed && !s.eosSent

/-- The block that the label enters begins a flush with an event due. -/
def startsFlush (s : Session ε) (a : Label) : Bool :=
  match s.takesLock a with
  | some (_, .write pcm) =>
      s.streamId.isSome && !s.closed && !s.ending &&
        framesPerHdsEvent ≤ s.frames.length + (s.pcmBuffer.1.length + pcm.length) / frameBytes
  | some (_, .openFlush) =>
      !s.closed && (if s.ending then !s.eosSent else framesPerHdsEvent ≤ s.frames.length)
  | some (t, .finishDrain _) =>
      s.forcedDue && s.openPc.all (· = .returned) &&
        !(s.tasks.eraseIdx t).any fun k ↦ k.pc.awaitsLock
  | some (_, .finishFlush) => s.forcedDue
  | none => false

/-- The label gets past the guard of `_send_close`. -/
def handsClose (s : Session ε) (connectionClosed : Bool) : Label → Bool
  | .run t => s.mayClose connectionClosed && match s.tasks[t]? with
      | some ⟨.cancel _, .start⟩ => !s.closed && !s.opening
      | some ⟨.handleAck endOfStream, .start⟩ => !s.closed && endOfStream
      | some ⟨_, .awaitShielded _⟩ => s.openPc = some .returned
      | some ⟨_, .awaitDone⟩ => s.closed && s.error.any PyErr.isTimeoutError
      | _ => false
  | .timeout t => s.mayClose connectionClosed && s.pc? t = some .awaitDone
  | .response t status message onOpen =>
      s.pc? t = some .awaitResponse && opensStream status message onOpen &&
        s.cancelReason.isSome && !s.closeSent && !connectionClosed
  | _ => false

/-! ## Outcomes -/

/-- A block changes the fields of the session, but neither its tasks nor its log. -/
structure Base (s b : Session ε) : Prop where
  tasks : b.tasks = s.tasks
  openTask : b.openTask = s.openTask
  log : b.log = s.log
  closeSent : b.closeSent = s.closeSent
  closed : s.closed → b.closed

/-- A block leaves the stream alone: the PCM, the frames and their numbers. -/
structure SameStream (s b : Session ε) : Prop where
  encoder : b.encoder = s.encoder
  pcmBuffer : b.pcmBuffer = s.pcmBuffer
  frames : b.frames = s.frames
  sequence : b.sequence = s.sequence
  accepted : b.accepted = s.accepted
  drained : b.drained = s.drained
  ending : s.ending → b.ending

/-- A block may feed the stream, as `write` does, or `finish`. -/
inductive Fed (opus : OpusEncoder ε) (s b : Session ε) : Prop
  | same (h : SameStream s b)
  | write (pcm : Bytes) (hgo : s.ending = false) (h : SameStream (s.buffer opus pcm) b)
  | drain (pad : Bool) (h : SameStream (s.drainBuffer opus pad) b)

/-- `_flush_locked` hands an event to the connection. -/
inductive HandsEvent (b : Session ε) (t : Nat) (streamId : Int) (force : Bool) (who : Flusher) :
    Session ε → Prop
  /-- The next frames are due. -/
  | due (h : b.eventDue force) :
      HandsEvent b t streamId force who ({ b with
          frames := b.frames.drop framesPerHdsEvent
          sequence := b.sequence + (b.frames.take framesPerHdsEvent).length }.hand t
        (.data (packetsOf b.sequence (b.frames.take framesPerHdsEvent)) streamId
          (force && (b.frames.drop framesPerHdsEvent).isEmpty) force who))
  /-- Only the end of the stream is left to tell. -/
  | eos (hforce : force = true) (hframes : b.frames = []) (heos : b.eosSent = false) :
      HandsEvent b t streamId force who (b.hand t (.data [] streamId true force who))

/-- What a step of the task `t` ends in; `k` is the task before the step. -/
inductive Ran (opus : OpusEncoder ε) (s : Session ε) (connectionClosed : Bool) (a : Label)
    (t : Nat) (k : Task) : Session ε → Prop
  /-- The task ends or waits, and sends nothing. -/
  | quiet (b : Session ε) (pc : Pc) (hk : k.pc.sends = false) (hb : Base s b)
      (hfed : Fed opus s b)
      (hlock : b.ioLock = s.ioLock ∧ b.frames = s.frames ∨ s.ioLock = none ∧ b.ioLock = none)
      (hpc : pc.sends = false) : Ran opus s connectionClosed a t k (b.goto t pc)
  /-- The task hands the request over. -/
  | request (hk : k.pc = .start) (hcall : k.call = .open) :
      Ran opus s connectionClosed a t k (s.hand t .request)
  /-- The task hands a close over. -/
  | close (b : Session ε) (streamId : Int) (reason : HDSCloseReason) (who : Closer)
      (hk : k.pc.sends = false) (ha : s.handsClose connectionClosed a = true)
      (hguard : s.closeSent = false) (hb : Base s b) (hsame : SameStream s b)
      (hlock : b.ioLock = s.ioLock) :
      Ran opus s connectionClosed a t k (b.hand t (.close streamId reason who))
  /-- The task begins a flush. -/
  | event (b s' : Session ε) (streamId : Int) (force : Bool) (who : Flusher)
      (hk : k.pc.sends = false) (ha : s.startsFlush a = true) (hb : Base s b)
      (hfed : Fed opus s b) (hopen : s.closed = false) (hlock : s.ioLock = none)
      (hlock' : b.ioLock = some t)
      (h : HandsEvent b t streamId force who s') : Ran opus s connectionClosed a t k s'
  /-- The frame of a send is written. -/
  | written (send : Send) (hk : k.pc = .sending send .queued) :
      Ran opus s connectionClosed a t k
        ((s.record (.written send.outgoing)).goto t (.sending send .drain))
  /-- The send of the request returns. -/
  | requestReturned (hk : k.pc = .sending .request .drain) :
      Ran opus s connectionClosed a t k (s.goto t .awaitResponse)
  /-- The send of an event returns, and the flush goes on. -/
  | nextEvent (s' : Session ε) (packets : List Packet) (streamId streamId' : Int) (force : Bool)
      (who : Flusher) (hk : k.pc = .sending (.data packets streamId false force who) .drain)
      (h : HandsEvent s t streamId' force who s') : Ran opus s connectionClosed a t k s'
  /-- The send of an event returns, and the flush is over. -/
  | flushReturned (b : Session ε) (packets : List Packet) (streamId : Int) (isEos force : Bool)
      (who : Flusher) (pc : Pc)
      (hk : k.pc = .sending (.data packets streamId isEos force who) .drain)
      (hb : Base s b) (hsame : SameStream s b) (hlock : b.ioLock = none) (hpc : pc.sends = false) :
      Ran opus s connectionClosed a t k (b.goto t pc)
  /-- The send of a close returns. -/
  | closeReturned (b : Session ε) (streamId : Int) (reason : HDSCloseReason) (who : Closer)
      (pc : Pc) (hk : k.pc = .sending (.close streamId reason who) .drain)
      (hb : Base { s with closeSent := true } b) (hsame : SameStream s b)
      (hlock : b.ioLock = s.ioLock) (hclosed : b.closed = true) (hpc : pc.sends = false) :
      Ran opus s connectionClosed a t k (b.goto t pc)
  /-- A send raises. -/
  | sendRaised (b : Session ε) (send : Send) (phase : SendPhase) (pc : Pc)
      (hk : k.pc = .sending send phase) (hb : Base (s.record (.raised send.outgoing)) b)
      (hsame : SameStream s b)
      (hlock : k.pc.flushing = true ∧ b.ioLock = none ∨ b.ioLock = s.ioLock)
      (hclosed : k.pc.closing → b.closed = true) (hpc : pc.sends = false) :
      Ran opus s connectionClosed a t k (b.goto t pc)

namespace Base

theorem refl (s : Session ε) : Base s s := ⟨rfl, rfl, rfl, rfl, id⟩

theorem trans {s b c : Session ε} (h : Base s b) (h' : Base b c) : Base s c :=
  ⟨h'.tasks.trans h.tasks, h'.openTask.trans h.openTask, h'.log.trans h.log,
    h'.closeSent.trans h.closeSent, fun hc ↦ h'.closed (h.closed hc)⟩

end Base

namespace SameStream

theorem refl (s : Session ε) : SameStream s s := ⟨rfl, rfl, rfl, rfl, rfl, rfl, id⟩

theorem trans {s b c : Session ε} (h : SameStream s b) (h' : SameStream b c) : SameStream s c :=
  ⟨h'.encoder.trans h.encoder, h'.pcmBuffer.trans h.pcmBuffer, h'.frames.trans h.frames,
    h'.sequence.trans h.sequence, h'.accepted.trans h.accepted, h'.drained.trans h.drained,
    fun he ↦ h'.ending (h.ending he)⟩

end SameStream

theorem Fed.trans {opus : OpusEncoder ε} {s b c : Session ε} (h : Fed opus s b)
    (h' : SameStream b c) : Fed opus s c := by
  cases h with
  | same h => exact .same (h.trans h')
  | write pcm hgo h => exact .write pcm hgo (h.trans h')
  | drain pad h => exact .drain pad (h.trans h')

/-- Without `force`, an event takes as many frames as fit. -/
theorem HandsEvent.frames_le {b s' : Session ε} {t : Nat} {streamId : Int} {who : Flusher}
    (h : HandsEvent b t streamId false who s') : framesPerHdsEvent ≤ b.frames.length := by
  cases h with
  | due hdue => simpa [eventDue] using hdue
  | eos hforce => cases hforce

/-! ## The functions of a step -/

/-- `_flush_locked` from its loop on hands an event over, or is over. -/
theorem flushLoop_cases (s : Session ε) (t : Nat) (streamId : Int) (force : Bool)
    (who : Flusher) :
    HandsEvent s t streamId force who (s.flushLoop t streamId force who) ∨
      s.flushLoop t streamId force who = s.flushReturned t who := by
  unfold flushLoop
  split
  · next hdue => exact .inl (.due hdue)
  · split
    · next heos =>
      simp only [Bool.and_eq_true, List.isEmpty_iff, Bool.not_eq_true'] at heos
      exact .inl (.eos heos.1.1 heos.1.2 heos.2)
    · exact .inr rfl

/-- `_flush_locked` hands an event over only for an open stream, and a forced one only
before the end of the stream was sent. -/
theorem flush_cases (s : Session ε) (t : Nat) (force : Bool) (who : Flusher) :
    (∃ streamId, s.streamId = some streamId ∧ s.closed = false ∧ (force → s.eosSent = false) ∧
        HandsEvent s t streamId force who (s.flush t force who)) ∨
      s.flush t force who = s.flushReturned t who := by
  unfold flush
  cases hid : s.streamId with
  | none => exact .inr rfl
  | some streamId =>
      simp only
      split
      · exact .inr rfl
      · next hgo =>
        simp only [Bool.or_eq_true, Bool.and_eq_true, not_or, not_and,
          Bool.not_eq_true] at hgo
        rcases s.flushLoop_cases t streamId force who with h | h
        · exact .inl ⟨streamId, rfl, hgo.1, hgo.2, h⟩
        · exact .inr h

/-- A flush that is over leaves the I/O lock. -/
theorem flushReturned_eq (s : Session ε) (t : Nat) (who : Flusher) :
    ∃ pc : Pc, pc.sends = false ∧ s.flushReturned t who = s.release.goto t pc := by
  cases who
  · exact ⟨.returned, rfl, rfl⟩
  · exact ⟨.returned, rfl, rfl⟩
  · exact ⟨.awaitDone, rfl, rfl⟩

/-- `_send_close` hands a close over if its guard lets it. -/
theorem sendClose_cases (s : Session ε) (connectionClosed : Bool) (t : Nat)
    (reason : HDSCloseReason) (who : Closer) :
    (∃ streamId, s.mayClose connectionClosed = true ∧
        s.sendClose connectionClosed t reason who = s.hand t (.close streamId reason who)) ∨
      s.mayClose connectionClosed = false ∧
        s.sendClose connectionClosed t reason who = s.closeReturned t who := by
  unfold sendClose
  cases hmay : s.mayClose connectionClosed with
  | false => exact .inr ⟨rfl, rfl⟩
  | true =>
      cases hid : s.streamId with
      | none => simp [mayClose, hid] at hmay
      | some streamId => exact .inl ⟨streamId, rfl, rfl⟩

/-- The callers of `_send_close` close the session when it returns. -/
theorem closeReturned_eq (s : Session ε) (t : Nat) (who : Closer) :
    ∃ (b : Session ε) (pc : Pc), s.closeReturned t who = b.goto t pc ∧ Base s b ∧
      SameStream s b ∧ b.ioLock = s.ioLock ∧ b.closed = true ∧ pc.sends = false := by
  cases who <;>
    exact ⟨_, _, rfl, ⟨rfl, rfl, rfl, rfl, fun _ ↦ rfl⟩, ⟨rfl, rfl, rfl, rfl, rfl, rfl, id⟩,
      rfl, rfl, rfl⟩

/-- The callers of `_send_close` close the session when it raises. -/
theorem closeRaised_eq (s : Session ε) (t : Nat) (e : PyErr) (who : Closer) :
    ∃ (b : Session ε) (pc : Pc), s.closeRaised t e who = b.goto t pc ∧ Base s b ∧
      SameStream s b ∧ b.ioLock = s.ioLock ∧ b.closed = true ∧ pc.sends = false := by
  cases who <;>
    exact ⟨_, _, rfl, ⟨rfl, rfl, rfl, rfl, fun _ ↦ rfl⟩, ⟨rfl, rfl, rfl, rfl, rfl, rfl, id⟩,
      rfl, rfl, rfl⟩

section Ran

variable {opus : OpusEncoder ε} {s b : Session ε} {cc : Bool} {a : Label} {t : Nat} {k : Task}

/-- The task moves, and that is all. -/
theorem ran_goto (hk : k.pc.sends = false) {pc : Pc} (hpc : pc.sends = false) :
    Ran opus s cc a t k (s.goto t pc) :=
  .quiet s pc hk (.refl s) (.same (.refl s)) (.inl ⟨rfl, rfl⟩) hpc

/-- A block under the lock that is left in the same step. -/
theorem ran_release (hk : k.pc.sends = false) (hb : Base s b) (hfed : Fed opus s b)
    (hlock : s.ioLock = none) {pc : Pc} (hpc : pc.sends = false) :
    Ran opus s cc a t k (b.release.goto t pc) :=
  .quiet b.release pc hk ⟨hb.tasks, hb.openTask, hb.log, hb.closeSent, hb.closed⟩
    (hfed.trans ⟨rfl, rfl, rfl, rfl, rfl, rfl, id⟩) (.inr ⟨hlock, rfl⟩) hpc

/-- A call of `_send_close`. -/
theorem ran_sendClose (hk : k.pc.sends = false) (hb : Base s b) (hsame : SameStream s b)
    (hlock : b.ioLock = s.ioLock) (ha : b.mayClose cc → s.handsClose cc a)
    (reason : HDSCloseReason) (who : Closer) :
    Ran opus s cc a t k (b.sendClose cc t reason who) := by
  rcases b.sendClose_cases cc t reason who with ⟨streamId, hmay, heq⟩ | ⟨-, heq⟩
  · have hguard : s.closeSent = false := by
      rw [← hb.closeSent]
      simp only [mayClose, Bool.and_eq_true, Bool.not_eq_true'] at hmay
      exact hmay.1.1
    rw [heq]
    exact .close b streamId reason who hk (ha hmay) hguard hb hsame hlock
  · obtain ⟨c, pc, hc, hbase, hcs, hcl, -, hpc⟩ := b.closeReturned_eq t who
    have hcsame := hsame.trans hcs
    rw [heq, hc]
    exact .quiet c pc hk (hb.trans hbase) (.same hcsame)
      (.inl ⟨hcl.trans hlock, hcsame.frames⟩) hpc

/-- A call of `_flush_locked` by the task that has just taken the lock. -/
theorem ran_flush (hk : k.pc.sends = false) (hb : Base s b) (hfed : Fed opus s b)
    (hlock : s.ioLock = none)
    (hlock' : b.ioLock = some t) {force : Bool} {who : Flusher}
    (ha : b.streamId.isSome → b.closed = false → (force → b.eosSent = false) →
      (force = false → framesPerHdsEvent ≤ b.frames.length) → s.startsFlush a) :
    Ran opus s cc a t k (b.flush t force who) := by
  rcases b.flush_cases t force who with ⟨streamId, hid, hopen, heos, h⟩ | heq
  · have hdue : force = false → framesPerHdsEvent ≤ b.frames.length := by
      rintro rfl
      exact h.frames_le
    have hopen' : s.closed = false := by
      cases hs : s.closed with
      | false => rfl
      | true => rw [hb.closed hs] at hopen; cases hopen
    refine .event b _ streamId force who hk (ha ?_ hopen heos hdue) hb hfed hopen' hlock
      hlock' h
    rw [hid]
    rfl
  · obtain ⟨pc, hpc, hret⟩ := b.flushReturned_eq t who
    rw [heq, hret]
    exact ran_release hk hb hfed hlock hpc

/-- `finish` behind the wait for the open task, with the lock not held. -/
theorem ran_finishOpened (hk : k.pc.sends = false) (hb : Base s b) (hfed : Fed opus s b)
    (hs : s.ioLock = none) (hlock : b.ioLock = none)
    (ha : b.closed = false → b.lockFree t → b.streamId.isSome → b.eosSent = false →
      s.startsFlush a) : Ran opus s cc a t k (b.finishOpened t) := by
  have hquiet : ∀ {pc : Pc}, pc.sends = false → Ran opus s cc a t k (b.goto t pc) :=
    fun hpc ↦ .quiet b _ hk hb hfed (.inr ⟨hs, hlock⟩) hpc
  unfold finishOpened
  split
  · split
    · exact hquiet rfl
    · exact hquiet rfl
  · next hopen =>
    split
    · next hfree =>
      refine ran_flush (b := b.hold t) hk
        ⟨hb.tasks, hb.openTask, hb.log, hb.closeSent, hb.closed⟩
        (hfed.trans ⟨rfl, rfl, rfl, rfl, rfl, rfl, id⟩) hs rfl ?_
      intro hid _ heos _
      exact ha (by simpa using hopen) hfree hid (heos rfl)
    · exact hquiet rfl

end Ran

section Blocks

variable {opus : OpusEncoder ε} {s : Session ε} {cc : Bool} {a : Label} {t : Nat} {k : Task}

theorem buffer_base (opus : OpusEncoder ε) (b : Session ε) (pcm : Bytes) :
    Base b (b.buffer opus pcm) :=
  ⟨rfl, rfl, rfl, rfl, id⟩

theorem length_frames_buffer (b : Session ε) (pcm : Bytes) :
    (b.buffer opus pcm).frames.length =
      b.frames.length + (b.pcmBuffer.1.length + pcm.length) / frameBytes := by
  simp only [buffer, List.length_append, OpusEncoder.length_encodeAll, length_cutFrames]

theorem drainBuffer_base (opus : OpusEncoder ε) (b : Session ε) (pad : Bool) :
    Base b (b.drainBuffer opus pad) ∧ (b.drainBuffer opus pad).ioLock = b.ioLock ∧
      (b.drainBuffer opus pad).closed = b.closed ∧
      (b.drainBuffer opus pad).streamId = b.streamId ∧
      (b.drainBuffer opus pad).eosSent = b.eosSent := by
  unfold drainBuffer
  split
  · exact ⟨.refl b, rfl, rfl, rfl, rfl⟩
  · simp only
    split
    · exact ⟨⟨rfl, rfl, rfl, rfl, id⟩, rfl, rfl, rfl, rfl⟩
    · split <;> exact ⟨⟨rfl, rfl, rfl, rfl, id⟩, rfl, rfl, rfl, rfl⟩

/-- `write` and `finish` feed the same frames to sessions with the same stream. -/
theorem SameStream.buffer {s b : Session ε} (h : SameStream s b) (pcm : Bytes) :
    SameStream (s.buffer opus pcm) (b.buffer opus pcm) := by
  simp only [Session.buffer, h.encoder, h.pcmBuffer, h.frames, h.accepted]
  exact ⟨rfl, rfl, rfl, h.sequence, rfl, h.drained, h.ending⟩

theorem SameStream.drainBuffer {s b : Session ε} (h : SameStream s b) (he : b.ending = s.ending)
    (pad : Bool) : SameStream (s.drainBuffer opus pad) (b.drainBuffer opus pad) := by
  simp only [Session.drainBuffer, he, h.encoder, h.pcmBuffer, h.frames]
  split
  · exact h
  · split
    · exact ⟨rfl, rfl, rfl, h.sequence, h.accepted, rfl, id⟩
    · split
      · exact ⟨rfl, rfl, rfl, h.sequence, h.accepted, rfl, id⟩
      · exact ⟨rfl, rfl, rfl, h.sequence, h.accepted, rfl, id⟩

theorem openPc_eq {b : Session ε} (hb : Base s b) : b.openPc = s.openPc := by
  have hpc : b.pc? = s.pc? := by
    funext t
    rw [pc?, pc?, hb.tasks]
  rw [openPc, openPc, hb.openTask, hpc]

theorem lockFree_eq {b : Session ε} (hb : Base s b) (hlock : b.ioLock = s.ioLock) :
    b.lockFree t = s.lockFree t := by
  rw [lockFree, lockFree, hb.tasks, hlock]

/-- The task has just taken the lock; of the state `s` before the step, `b` keeps all that
the blocks under the lock read, except the stream id. -/
structure Enters (s b : Session ε) (t : Nat) : Prop where
  base : Base s b
  same : SameStream s b
  free : s.ioLock = none
  held : b.ioLock = some t
  ending : b.ending = s.ending
  eosSent : b.eosSent = s.eosSent
  closed : b.closed = s.closed

theorem enters_hold (hs : s.ioLock = none) : Enters s (s.hold t) t :=
  ⟨⟨rfl, rfl, rfl, rfl, id⟩, ⟨rfl, rfl, rfl, rfl, rfl, rfl, id⟩, hs, rfl, rfl, rfl, rfl⟩

variable {b : Session ε}

/-- The flush at the end of `_open`. -/
theorem ran_openFlush (hk : k.pc.sends = false) (hb : Enters s b t)
    (ha : s.takesLock a = some (t, .openFlush)) :
    Ran opus s cc a t k (b.flush t b.ending .open) := by
  refine ran_flush hk hb.base (.same hb.same) hb.free hb.held fun _ hopen heos hframes ↦ ?_
  simp only [startsFlush, ha, ← hb.closed, ← hb.ending, ← hb.eosSent, ← hb.same.frames]
  cases he : b.ending with
  | true => simp [hopen, heos he]
  | false => simpa [hopen] using hframes he

/-- The body of `write`. -/
theorem ran_writeLocked {pcm : Bytes} (hk : k.pc.sends = false) (hb : Enters s b t)
    (hid : b.streamId = s.streamId) (ha : s.takesLock a = some (t, .write pcm)) :
    Ran opus s cc a t k (b.writeLocked opus t pcm) := by
  unfold writeLocked
  split
  · exact ran_release hk hb.base (.same hb.same) hb.free rfl
  · next hgo =>
    simp only [Bool.or_eq_true, not_or, Bool.not_eq_true] at hgo
    have hbuf := hb.base.trans (buffer_base opus b pcm)
    have hfed : Fed opus s (b.buffer opus pcm) :=
      .write pcm (hb.ending.symm.trans hgo.1) (hb.same.buffer pcm)
    simp only
    split
    · refine ran_flush hk hbuf hfed hb.free hb.held fun hsome _ _ hdue ↦ ?_
      have hdue := hdue rfl
      rw [length_frames_buffer] at hdue
      have hsome : s.streamId.isSome := by rw [← hid]; exact hsome
      simp only [startsFlush, ha, ← hb.closed, ← hb.ending, ← hb.same.frames,
        ← hb.same.pcmBuffer, hsome, hgo.1, hgo.2]
      simpa using hdue
    · exact ran_release hk hbuf hfed hb.free rfl

/-- The second block of `finish`. -/
theorem ran_finishLocked (hk : k.pc.sends = false) (hb : Enters s b t)
    (hid : b.streamId = s.streamId) (ha : s.takesLock a = some (t, .finishFlush)) :
    Ran opus s cc a t k (b.finishLocked t) := by
  refine ran_flush hk hb.base (.same hb.same) hb.free hb.held fun hsome hopen heos _ ↦ ?_
  have h1 : s.streamId.isSome = true := by rw [← hid]; exact hsome
  have h2 : s.closed = false := by rw [← hb.closed]; exact hopen
  have h3 : s.eosSent = false := by rw [← hb.eosSent]; exact heos rfl
  simp [startsFlush, ha, forcedDue, h1, h2, h3]

/-- The first block of `finish`, and what follows it up to the next wait. -/
theorem ran_finishDrain {pad : Bool} (hk : k.pc.sends = false) (hb : Enters s b t)
    (hid : b.streamId = s.streamId) (ha : s.takesLock a = some (t, .finishDrain pad)) :
    Ran opus s cc a t k ((b.drainBuffer opus pad).release.finishDrained t) := by
  obtain ⟨hd, -, hdc, hds, hde⟩ := drainBuffer_base opus b pad
  have hbase := hb.base.trans hd
  have hfed : Fed opus s (b.drainBuffer opus pad) := .drain pad (hb.same.drainBuffer hb.ending pad)
  have hrel : Base s (b.drainBuffer opus pad).release :=
    ⟨hbase.tasks, hbase.openTask, hbase.log, hbase.closeSent, hbase.closed⟩
  have hfinish : (s.openPc = none ∨ s.openPc = some .returned) →
      Ran opus s cc a t k ((b.drainBuffer opus pad).release.finishOpened t) := by
    intro hopened
    refine ran_finishOpened hk hrel (hfed.trans ⟨rfl, rfl, rfl, rfl, rfl, rfl, id⟩) hb.free rfl
      fun hopen hfree hsome hne ↦ ?_
    have hfree : s.lockFree t = true := (lockFree_eq hrel hb.free.symm).symm.trans hfree
    have hwait : (s.tasks.eraseIdx t).any (fun k ↦ k.pc.awaitsLock) = false := by
      simpa [lockFree, hb.free] using hfree
    have hall : s.openPc.all (fun pc ↦ decide (pc = .returned)) = true := by
      rcases hopened with h | h <;> simp [h]
    have h1 : s.streamId.isSome = true := by rw [← hid, ← hds]; exact hsome
    have h2 : s.closed = false := by rw [← hb.closed, ← hdc]; exact hopen
    have h3 : s.eosSent = false := by rw [← hb.eosSent, ← hde]; exact hne
    simp [startsFlush, ha, forcedDue, h1, h2, h3, hall, hwait]
  unfold finishDrained
  rw [openPc_eq hrel]
  split
  · next h => exact hfinish (.inl h)
  · next h => exact hfinish (.inr h)
  · exact ran_release hk hbase hfed hb.free rfl
  · exact ran_release hk hbase hfed hb.free rfl

/-- A block under the lock. -/
theorem ran_locked {use : LockUse} (hk : k.pc.sends = false) (hb : Enters s b t)
    (hid : use = .openFlush ∨ b.streamId = s.streamId)
    (ha : s.takesLock a = some (t, use)) : Ran opus s cc a t k (b.locked opus t use) := by
  cases use with
  | openFlush => exact ran_openFlush hk hb ha
  | write pcm => exact ran_writeLocked hk hb (hid.resolve_left nofun) ha
  | finishDrain pad => exact ran_finishDrain hk hb (hid.resolve_left nofun) ha
  | finishFlush => exact ran_finishLocked hk hb (hid.resolve_left nofun) ha

/-- `async with self._io_lock` by a task that goes on from its call. -/
theorem ran_acquire {use : LockUse} (hk : k.pc.sends = false)
    (ha : s.lockFree t → s.takesLock a = some (t, use)) :
    Ran opus s cc a t k (s.acquire opus t use) := by
  unfold acquire
  split
  · next hfree =>
    have hs : s.ioLock = none := by
      simp only [lockFree, Bool.and_eq_true, Option.isNone_iff_eq_none] at hfree
      exact hfree.1
    exact ran_locked hk (enters_hold hs) (.inr rfl) (ha hfree)
  · exact ran_goto hk rfl

/-- A response without a stream id is refused. -/
theorem isSome_of_openedStream {status : Int} {message : List (Obj × Obj)}
    (h : (openedStream status message).2 = none) : (openedStream status message).1.isSome := by
  revert h
  unfold openedStream
  split
  · exact nofun
  · split
    · exact nofun
    · split
      · exact nofun
      · split
        · exact nofun
        · exact fun _ ↦ rfl

/-- `_open` behind the response. -/
theorem ran_openResponse {status : Int} {message : List (Obj × Obj)} {onOpen : Option PyErr}
    (hk : k.pc.sends = false) (hpc : s.pc? t = some .awaitResponse)
    (hlabel : a = .response t status message onOpen) :
    Ran opus s cc a t k (s.openResponse opus cc t status message onOpen) := by
  subst hlabel
  unfold openResponse
  simp only
  generalize hb : ({ s with streamId := (openedStream status message).1.or s.streamId } :
    Session ε) = b
  have hbase : Base s b := by subst hb; exact ⟨rfl, rfl, rfl, rfl, id⟩
  have hlock : b.ioLock = s.ioLock := by subst hb; rfl
  have hsame : SameStream s b := by subst hb; exact ⟨rfl, rfl, rfl, rfl, rfl, rfl, id⟩
  cases herr : (openedStream status message).2.or onOpen with
  | some e =>
      exact .quiet _ _ hk ⟨hbase.tasks, hbase.openTask, hbase.log, hbase.closeSent, fun _ ↦ rfl⟩
        (.same (hsame.trans ⟨rfl, rfl, rfl, rfl, rfl, rfl, id⟩)) (.inl ⟨hlock, hsame.frames⟩) rfl
  | none =>
      obtain ⟨hvalid, honOpen⟩ := Option.or_eq_none_iff.mp herr
      have hopens : opensStream status message onOpen = true := by
        simp [opensStream, isSome_of_openedStream hvalid, herr]
      simp only
      cases hr : s.cancelReason with
      | some reason =>
          refine ran_sendClose hk hbase hsame hlock (fun hmay ↦ ?_) reason .open
          simp only [mayClose, Bool.and_eq_true, Bool.not_eq_true'] at hmay
          have hsent : s.closeSent = false := by rw [← hbase.closeSent]; exact hmay.1.1
          simp [handsClose, hpc, hopens, hr, hsent, hmay.2]
      | none =>
          simp only [acquire]
          split
          · next hfree =>
            have hfree' : s.lockFree t = true := (lockFree_eq hbase hlock).symm.trans hfree
            have hs : s.ioLock = none := by
              simp only [lockFree, Bool.and_eq_true, Option.isNone_iff_eq_none] at hfree'
              exact hfree'.1
            refine ran_openFlush hk (b := b.hold t) ?_ ?_
            · subst hb
              exact ⟨⟨rfl, rfl, rfl, rfl, id⟩, ⟨rfl, rfl, rfl, rfl, rfl, rfl, id⟩, hs, rfl, rfl,
                rfl, rfl⟩
            · simp [takesLock, hpc, hopens, hr, hfree']
          · exact .quiet _ _ hk hbase (.same hsame) (.inl ⟨hlock, hsame.frames⟩) rfl

/-- `cancel` behind the wait for the open task. -/
theorem ran_cancelOpened (hk : k.pc.sends = false) (hb : Base s b) (hsame : SameStream s b)
    (hlock : b.ioLock = s.ioLock) (ha : b.mayClose cc → s.handsClose cc a)
    (reason : HDSCloseReason) : Ran opus s cc a t k (b.cancelOpened cc t reason) := by
  unfold cancelOpened
  split
  · exact ran_sendClose hk hb hsame hlock ha reason .cancel
  · exact .quiet _ _ hk ⟨hb.tasks, hb.openTask, hb.log, hb.closeSent, fun _ ↦ rfl⟩
      (.same (hsame.trans ⟨rfl, rfl, rfl, rfl, rfl, rfl, id⟩)) (.inl ⟨hlock, hsame.frames⟩) rfl

/-- `finish` after its wait raised. -/
theorem ran_waitRaised (hk : k.pc.sends = false) {e : PyErr}
    (ha : s.mayClose cc → e.isTimeoutError → s.handsClose cc a) :
    Ran opus s cc a t k (s.waitRaised cc t e) := by
  unfold waitRaised
  split
  · next he => exact ran_sendClose hk (.refl s) (.refl s) rfl (fun hmay ↦ ha hmay he) _ _
  · exact ran_goto hk rfl

/-- The first step of a coroutine. -/
theorem ran_begin {c : Call} (hk : k = ⟨c, .start⟩) (ht : s.tasks[t]? = some k) :
    Ran opus s cc (.run t) t k (s.begin opus cc t c) := by
  subst hk
  cases c with
  | «open» => exact .request rfl rfl
  | write pcm =>
      simp only [begin]
      split
      · exact ran_goto rfl rfl
      · next hne => exact ran_acquire rfl fun hfree ↦ by simp [takesLock, ht, hne, hfree]
  | finish timeoutPositive pad =>
      simp only [begin]
      split
      · exact ran_goto rfl rfl
      · next htimeout =>
        split
        · split <;> exact ran_goto rfl rfl
        · next hopen =>
          refine ran_acquire rfl fun hfree ↦ ?_
          simp only [Bool.not_eq_true', Bool.not_eq_false] at htimeout
          simp [takesLock, ht, htimeout, hopen, hfree]
  | cancel reason =>
      simp only [begin]
      split
      · exact ran_goto rfl rfl
      · next hopen =>
        split
        · exact .quiet _ _ rfl ⟨rfl, rfl, rfl, rfl, id⟩
            (.same ⟨rfl, rfl, rfl, rfl, rfl, rfl, fun _ ↦ rfl⟩) (.inl ⟨rfl, rfl⟩) rfl
        · next hready =>
          have hbase : Base s { s with ending := true, cancelReason := some reason } :=
            ⟨rfl, rfl, rfl, rfl, id⟩
          refine ran_cancelOpened (k := ⟨.cancel reason, .start⟩) rfl hbase
            ⟨rfl, rfl, rfl, rfl, rfl, rfl, fun _ ↦ rfl⟩ rfl (fun hmay ↦ ?_) reason
          have hmay : s.mayClose cc = true := hmay
          have hready : s.opening = false := Bool.eq_false_iff.mpr hready
          simp [handsClose, ht, hmay, hopen, hready]
  | handleAck endOfStream =>
      simp only [begin]
      split
      · exact ran_goto rfl rfl
      · next hgo =>
        simp only [Bool.or_eq_true, not_or, Bool.not_eq_true] at hgo
        have heos : endOfStream = true := by simpa using hgo.1.2
        refine ran_sendClose rfl (.refl s) (.refl s) rfl (fun hmay ↦ ?_) _ _
        simp [handsClose, ht, hmay, hgo.1.1, heos]

/-- A task that runs on. -/
theorem ran_runTask {s' : Session ε} (ht : s.tasks[t]? = some k)
    (h : s.runTask opus cc t k = some s') : Ran opus s cc (.run t) t k s' := by
  obtain ⟨c, pc⟩ := k
  unfold runTask at h
  cases pc with
  | start =>
      cases h
      exact ran_begin rfl ht
  | awaitLock use =>
      simp only at h
      split at h
      · next hs =>
        cases h
        have hs : s.ioLock = none := by simpa using hs
        refine ran_locked rfl (enters_hold hs) (.inr rfl) ?_
        simp [takesLock, ht, hs]
      · cases h
  | awaitOpen =>
      simp only at h
      split at h
      · next hret =>
        cases h
        cases hs : s.ioLock with
        | none =>
            refine ran_finishOpened rfl (.refl s) (.same (.refl s)) hs hs
              fun hopen hfree hsome heos ↦ ?_
            simp [startsFlush, takesLock, ht, hret, hopen, hfree, forcedDue, hsome, heos]
        | some owner =>
            have hfree : s.lockFree t = false := by simp [lockFree, hs]
            unfold finishOpened
            rw [hfree]
            split
            · split <;> exact ran_goto rfl rfl
            · exact ran_goto rfl rfl
      · cases h
        exact ran_goto rfl rfl
      · cases h
  | awaitDone =>
      simp only at h
      split at h
      · next hcl =>
        split at h
        · next e he =>
          cases h
          exact ran_waitRaised rfl fun hmay htime ↦ by
            simp [handsClose, ht, hmay, hcl, he, htime]
        · cases h
          exact ran_goto rfl rfl
      · cases h
  | awaitShielded reason =>
      simp only at h
      split at h
      · next hret =>
        cases h
        exact ran_cancelOpened rfl (.refl s) (.refl s) rfl
          (fun hmay ↦ by simp [handsClose, ht, hmay, hret]) reason
      · cases h
        exact ran_goto rfl rfl
      · cases h
  | _ => cases h

/-- A send that returns. -/
theorem ran_resumeTask {s' : Session ε} (h : s.resumeTask t k.pc = some s') :
    Ran opus s cc a t k s' := by
  unfold resumeTask at h
  split at h
  · next hpc =>
    cases h
    exact .requestReturned hpc
  · next packets streamId isEos force who hpc =>
    cases h
    have hdone : ∀ b : Session ε, Base s b → SameStream s b →
        Ran opus s cc a t k (b.flushReturned t who) := by
      intro b hb hsame
      obtain ⟨pc, hret, heq⟩ := b.flushReturned_eq t who
      rw [heq]
      exact .flushReturned b.release packets streamId isEos force who pc hpc
        ⟨hb.tasks, hb.openTask, hb.log, hb.closeSent, hb.closed⟩
        (hsame.trans ⟨rfl, rfl, rfl, rfl, rfl, rfl, id⟩) rfl hret
    unfold flushResume
    split
    · exact hdone _ ⟨rfl, rfl, rfl, rfl, id⟩ ⟨rfl, rfl, rfl, rfl, rfl, rfl, id⟩
    · next hneos =>
      split
      · next streamId' _ =>
        rcases s.flushLoop_cases t streamId' force who with hev | heq
        · have : isEos = false := by simpa using hneos
          subst this
          exact .nextEvent _ packets streamId streamId' force who hpc hev
        · rw [heq]
          exact hdone s (.refl s) (.refl s)
      · exact hdone s (.refl s) (.refl s)
  · next streamId reason who hpc =>
    cases h
    obtain ⟨b, pc, heq, hb, hsame, hlock, hclosed, hret⟩ :=
      ({ s with closeSent := true } : Session ε).closeReturned_eq t who
    rw [heq]
    exact .closeReturned b streamId reason who pc hpc hb
      ⟨hsame.1, hsame.2, hsame.3, hsame.4, hsame.5, hsame.6, hsame.7⟩ hlock hclosed hret
  · cases h

/-- A send that raises. -/
theorem ran_sendRaised {s' : Session ε} {e : PyErr} {send : Send} {phase : SendPhase}
    (hpc : k.pc = .sending send phase) (h : s.failTask t e (.sending send phase) = some s') :
    Ran opus s cc a t k s' := by
  cases send with
  | request =>
      cases h
      exact .sendRaised _ _ phase _ hpc ⟨rfl, rfl, rfl, rfl, fun _ ↦ rfl⟩
        ⟨rfl, rfl, rfl, rfl, rfl, rfl, id⟩ (.inr rfl) (fun _ ↦ rfl) rfl
  | data packets streamId isEos force who =>
      have hflush : k.pc.flushing = true := by
        rw [hpc]
        rfl
      have hopen : k.pc.closing → False := by
        rw [hpc]
        exact nofun
      cases h
      cases who
      · exact .sendRaised _ _ phase _ hpc ⟨rfl, rfl, rfl, rfl, fun _ ↦ rfl⟩
          ⟨rfl, rfl, rfl, rfl, rfl, rfl, id⟩ (.inl ⟨hflush, rfl⟩) (fun _ ↦ rfl) rfl
      · exact .sendRaised (s.record _).release _ phase _ hpc ⟨rfl, rfl, rfl, rfl, id⟩
          ⟨rfl, rfl, rfl, rfl, rfl, rfl, id⟩ (.inl ⟨hflush, rfl⟩) (fun hc ↦ (hopen hc).elim) rfl
      · exact .sendRaised (s.record _).release _ phase _ hpc ⟨rfl, rfl, rfl, rfl, id⟩
          ⟨rfl, rfl, rfl, rfl, rfl, rfl, id⟩ (.inl ⟨hflush, rfl⟩) (fun hc ↦ (hopen hc).elim) rfl
  | close streamId reason who =>
      cases h
      obtain ⟨b, pc, heq, hb, hsame, hlock, hclosed, hret⟩ :=
        (s.record (.raised (Send.close streamId reason who).outgoing)).closeRaised_eq t e who
      rw [heq]
      exact .sendRaised b _ phase pc hpc hb
        ⟨hsame.1, hsame.2, hsame.3, hsame.4, hsame.5, hsame.6, hsame.7⟩ (.inr hlock)
        (fun _ ↦ hclosed) hret

/-- An `await` of something else that raises. -/
theorem ran_awaitRaised {s' : Session ε} {e : PyErr} (hk : k.pc.sends = false)
    (h : s.failTask t e k.pc = some s') : Ran opus s cc a t k s' := by
  have hraised : Ran opus s cc a t k (s.openRaised t e) :=
    .quiet _ _ hk ⟨rfl, rfl, rfl, rfl, fun _ ↦ rfl⟩
      (.same ⟨rfl, rfl, rfl, rfl, rfl, rfl, id⟩) (.inl ⟨rfl, rfl⟩) rfl
  have hgoto : ∀ pc : Pc, pc.sends = false → ∀ p : Prop, [Decidable p] →
      (if p then some (s.goto t pc) else none) = some s' → Ran opus s cc a t k s' := by
    intro pc hpc p _ hsome
    split at hsome
    · cases hsome
      exact ran_goto hk hpc
    · cases hsome
  unfold failTask at h
  split at h
  · exact hgoto _ rfl _ h
  · split at h
    · cases h
      exact hraised
    · cases h
  · exact hgoto _ rfl _ h
  · cases h
    exact hraised
  · exact hgoto _ rfl _ h
  · exact hgoto _ rfl _ h
  · next hpc =>
    rw [hpc] at hk
    cases hk
  · cases h

/-- **The outcomes of a step.** -/
theorem step_cases {s' : Session ε} (h : s.step opus cc a = some s') :
    (a = .start ∧ s' = s) ∨
      (∃ (k : Task) (openTask : Option Nat), k.pc = .start ∧
        s' = { s with tasks := s.tasks ++ [k], openTask }) ∨
      (∃ reason, a = .handleClose reason ∧ s' = s.handleClose reason) ∨
      ∃ (t : Nat) (k : Task), s.tasks[t]? = some k ∧ Ran opus s cc a t k s' := by
  have hpc : ∀ {t : Nat} {pc : Pc}, s.pc? t = some pc →
      ∃ k : Task, s.tasks[t]? = some k ∧ k.pc = pc := fun h ↦ Option.map_eq_some_iff.mp h
  cases a with
  | start =>
      simp only [step, Session.start, Option.some.injEq] at h
      split at h
      · exact .inr (.inl ⟨⟨.open, .start⟩, _, rfl, h.symm⟩)
      · exact .inl ⟨rfl, h.symm⟩
  | call c =>
      cases c with
      | «open» => cases h
      | _ =>
          cases h
          exact .inr (.inl ⟨⟨_, .start⟩, _, rfl, rfl⟩)
  | run t =>
      obtain ⟨k, hk, hrun⟩ := Option.bind_eq_some_iff.mp h
      exact .inr (.inr (.inr ⟨t, k, hk, ran_runTask hk hrun⟩))
  | response t status message onOpen =>
      simp only [step] at h
      split at h
      · next hawait =>
        cases h
        obtain ⟨k, hk, hkpc⟩ := hpc hawait
        exact .inr (.inr (.inr ⟨t, k, hk, ran_openResponse (by rw [hkpc]; rfl) hawait rfl⟩))
      · cases h
  | sent t =>
      simp only [step] at h
      split at h
      · next send hsend =>
        split at h
        · cases h
        · cases h
          obtain ⟨k, hk, hkpc⟩ := hpc hsend
          exact .inr (.inr (.inr ⟨t, k, hk, .written send hkpc⟩))
      · cases h
  | resume t =>
      obtain ⟨pc, hsome, hrun⟩ := Option.bind_eq_some_iff.mp h
      obtain ⟨k, hk, rfl⟩ := hpc hsome
      exact .inr (.inr (.inr ⟨t, k, hk, ran_resumeTask hrun⟩))
  | fail t e =>
      obtain ⟨pc, hsome, hrun⟩ := Option.bind_eq_some_iff.mp h
      obtain ⟨k, hk, rfl⟩ := hpc hsome
      refine .inr (.inr (.inr ⟨t, k, hk, ?_⟩))
      cases hkpc : k.pc with
      | sending send phase =>
          rw [hkpc] at hrun
          exact ran_sendRaised hkpc hrun
      | _ => exact ran_awaitRaised (by rw [hkpc]; rfl) hrun
  | timeout t =>
      simp only [step] at h
      split at h
      · next hawait =>
        cases h
        obtain ⟨k, hk, hkpc⟩ := hpc hawait
        refine .inr (.inr (.inr ⟨t, k, hk, ran_waitRaised (by rw [hkpc]; rfl) fun hmay _ ↦ ?_⟩))
        simp [handsClose, hmay, hawait]
      · next hawait =>
        cases h
        obtain ⟨k, hk, hkpc⟩ := hpc hawait
        exact .inr (.inr (.inr ⟨t, k, hk, ran_goto (by rw [hkpc]; rfl) rfl⟩))
      · cases h
  | handleClose reason =>
      cases h
      exact .inr (.inr (.inl ⟨reason, rfl, rfl⟩))

end Blocks

/-! ## A closed session -/

section Closed

variable {ε : Type}

theorem closed_handleClose (s : Session ε) (reason : Int) :
    (s.handleClose reason).closed = true := by
  unfold handleClose
  simp only
  split
  · next h => exact h
  · rfl

theorem HandsEvent.closed {b s' : Session ε} {t : Nat} {streamId : Int} {force : Bool}
    {who : Flusher} (h : HandsEvent b t streamId force who s') : s'.closed = b.closed := by
  cases h <;> rfl

/-- What a task does leaves a closed session closed. -/
theorem Ran.closed {opus : OpusEncoder ε} {s s' : Session ε} {cc : Bool} {a : Label} {t : Nat}
    {k : Task} (h : Ran opus s cc a t k s') (hs : s.closed = true) : s'.closed = true := by
  cases h with
  | quiet b _ _ hb => exact hb.closed hs
  | request => exact hs
  | close b _ _ _ _ _ _ hb => exact hb.closed hs
  | event b _ _ _ _ _ _ hb _ _ _ _ h =>
      rw [h.closed]
      exact hb.closed hs
  | written => exact hs
  | requestReturned => exact hs
  | nextEvent _ _ _ _ _ _ _ h =>
      rw [h.closed]
      exact hs
  | flushReturned b _ _ _ _ _ _ _ hb => exact hb.closed hs
  | closeReturned b _ _ _ _ _ _ _ _ hclosed => exact hclosed
  | sendRaised b _ _ _ _ hb => exact hb.closed hs

/-- **A session that is closed stays closed.** -/
theorem step_closed {opus : OpusEncoder ε} {s s' : Session ε} {cc : Bool} {a : Label}
    (h : s.step opus cc a = some s') (hs : s.closed = true) : s'.closed = true := by
  rcases step_cases h with ⟨-, rfl⟩ | ⟨k, openTask, -, rfl⟩ | ⟨reason, -, rfl⟩ | ⟨t, k, -, hran⟩
  · exact hs
  · exact hs
  · exact s.closed_handleClose reason
  · exact hran.closed hs

end Closed

end AtvRemote.Audio.Session

namespace AtvRemote.Audio

open Lib

/-! ## Runs -/

/-- A session, and whether its connection is closed. -/
structure Live (ε : Type) where
  session : Session ε
  connectionClosed : Bool

/-- What happens to a session and its connection. -/
inductive Event where
  | session (a : Session.Label)
  | connectionClosed
deriving Repr

/-- A session from its construction on. -/
def sessions {ε : Type} (opus : OpusEncoder ε) : System (Live ε) Event where
  init s := s = ⟨.new opus.init, false⟩
  step s
    | .session a =>
        (s.session.step opus s.connectionClosed a).map fun session ↦ { s with session }
    | .connectionClosed => some { s with connectionClosed := true }

end AtvRemote.Audio
