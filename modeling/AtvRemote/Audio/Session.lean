import AtvRemote.Audio.Opus
import AtvRemote.Constants
import AtvRemote.Python.Object

/-!
# A Siri session

`SiriSession` of `audio` as a step function.  Its coroutines are tasks in a table, each
with the place where it is suspended (`Pc`); a label picks a task and what happens to it,
and one step runs that task up to its next suspension, as the event loop does.  Nothing
else runs in between.

* A `send_event` on the connection is handed over (`queued`: it waits for the
  connection's send lock), written to the transport (`drain`: it waits in
  `writer.drain()`), and then returns; it may raise at either place.
* The I/O lock is held by at most one task.  A task that finds it free, with nobody
  waiting, takes it at once; otherwise it waits and takes it in a later step.
* What the session reads of its connection, whether it is closed, is an argument of the
  step.

Three fields are a record, which no step reads: the log, of what was handed to the
connection, written, raised, and received, in order; the PCM that `write` accepted; and
whether a `finish` dealt with the last partial frame, and how.
-/

namespace AtvRemote.Audio

open Lib

/-! ## Messages -/

/-- One packet of a `dataSend/data` event. -/
structure Packet where
  /-- `data` -/
  data : Bytes
  /-- `metadata.rms` -/
  rms : Float64
  /-- `metadata.sequenceNumber` -/
  sequenceNumber : Nat
deriving DecidableEq, Repr

/-- What the session hands to its connection. -/
inductive Outgoing where
  /-- The `dataSend/open` request. -/
  | open
  /-- A `dataSend/data` event. -/
  | data (packets : List Packet) (streamId : Int) (endOfStream : Bool)
  /-- A `dataSend/close` event. -/
  | close (streamId : Int) (reason : HDSCloseReason)
deriving DecidableEq, Repr

/-- An entry of the log. -/
inductive Entry where
  /-- A call of `send_event` or `send_request`. -/
  | handed (o : Outgoing)
  /-- Its frame was written to the transport. -/
  | written (o : Outgoing)
  /-- The call raised. -/
  | raised (o : Outgoing)
  /-- A `dataSend/close` came from the Apple TV. -/
  | received (reason : Int)
deriving DecidableEq, Repr

/-! ## Tasks -/

/-- The coroutines of a session. -/
inductive Call where
  /-- `_open()` -/
  | open
  /-- `write(pcm)` -/
  | write (pcm : Bytes)
  /-- `finish(timeout, pad_final_frame)`; of the timeout only its check matters. -/
  | finish (timeoutPositive pad : Bool)
  /-- `cancel(reason)` -/
  | cancel (reason : HDSCloseReason)
  /-- `handle_ack(end_of_stream)` -/
  | handleAck (endOfStream : Bool)
deriving DecidableEq, Repr

/-- The coroutines that call `_flush_locked`. -/
inductive Flusher where
  | open | write | finish
deriving DecidableEq, Repr

/-- The coroutines that call `_send_close`; `timeout` is the `except` branch of `finish`. -/
inductive Closer where
  | open | timeout | ack | cancel
deriving DecidableEq, Repr

/-- The blocks under the I/O lock. -/
inductive LockUse where
  /-- The flush at the end of `_open`. -/
  | openFlush
  /-- The body of `write`. -/
  | write (pcm : Bytes)
  /-- The first block of `finish`. -/
  | finishDrain (pad : Bool)
  /-- The second block of `finish`. -/
  | finishFlush
deriving DecidableEq, Repr

/-- A `send_event` or `send_request` in flight: what it sends, and for whom. -/
inductive Send where
  /-- The request of `_open`. -/
  | request
  /-- An event of `_flush_locked(force)`; `isEos` is its `is_eos`. -/
  | data (packets : List Packet) (streamId : Int) (isEos force : Bool) (who : Flusher)
  /-- The event of `_send_close`. -/
  | close (streamId : Int) (reason : HDSCloseReason) (who : Closer)
deriving DecidableEq, Repr

/-- What is handed to the connection. -/
def Send.outgoing : Send → Outgoing
  | .request => .open
  | .data packets streamId isEos _ _ => .data packets streamId isEos
  | .close streamId reason _ => .close streamId reason

/-- The two places where a `send_event` is suspended. -/
inductive SendPhase where
  | queued | drain
deriving DecidableEq, Repr

/-- Where a task is suspended. -/
inductive Pc where
  | start
  | awaitResponse
  | awaitLock (use : LockUse)
  | awaitOpen
  | awaitDone
  | awaitShielded (reason : HDSCloseReason)
  | sending (send : Send) (phase : SendPhase)
  | returned
  | raised (e : PyErr)
deriving DecidableEq, Repr

namespace Pc

/-- `task.done()` -/
def done : Pc → Bool
  | .returned | .raised _ => true
  | _ => false

/-- The task waits for the I/O lock. -/
def awaitsLock : Pc → Bool
  | .awaitLock _ => true
  | _ => false

/-- A `send_event` or `send_request` of the task is in flight. -/
def sends : Pc → Bool
  | .sending _ _ => true
  | _ => false

/-- A `dataSend/data` event of the task is in flight. -/
def flushing : Pc → Bool
  | .sending (.data _ _ _ _ _) _ => true
  | _ => false

/-- A `dataSend/close` of the task is in flight. -/
def closing : Pc → Bool
  | .sending (.close _ _ _) _ => true
  | _ => false

end Pc

/-- A task: the call it runs, and where it is. -/
structure Task where
  call : Call
  pc : Pc
deriving DecidableEq, Repr

/-! ## The session -/

/-- `SiriSession` -/
structure Session (ε : Type) where
  /-- `encoder` -/
  encoder : ε
  /-- `stream_id` -/
  streamId : Option Int
  /-- `sequence` -/
  sequence : Nat
  /-- `_pcm_buffer` -/
  pcmBuffer : PartialFrame
  /-- `_frames` -/
  frames : List AudioFrame
  /-- `_open_task`, as a place in `tasks`. -/
  openTask : Option Nat
  /-- `_error` -/
  error : Option PyErr
  /-- `_ending` -/
  ending : Bool
  /-- `_closed`, and with it `_done`. -/
  closed : Bool
  /-- `_eos_sent` -/
  eosSent : Bool
  /-- `_close_sent` -/
  closeSent : Bool
  /-- `_cancel_reason` -/
  cancelReason : Option HDSCloseReason
  /-- The task that holds `_io_lock`. -/
  ioLock : Option Nat
  /-- The tasks, in the order in which they were created. -/
  tasks : List Task
  /-- What happened on the connection. -/
  log : List Entry
  /-- The PCM that `write` took into the buffer. -/
  accepted : Bytes
  /-- The `pad_final_frame` of the `finish` that emptied the buffer. -/
  drained : Option Bool

namespace Session

variable {ε : Type}

/-- `SiriSession(...)` -/
def new (encoder : ε) : Session ε where
  encoder := encoder
  streamId := none
  sequence := 0
  pcmBuffer := .empty
  frames := []
  openTask := none
  error := none
  ending := false
  closed := false
  eosSent := false
  closeSent := false
  cancelReason := none
  ioLock := none
  tasks := []
  log := []
  accepted := []
  drained := none

/-- Where a task is suspended. -/
def pc? (s : Session ε) (t : Nat) : Option Pc := s.tasks[t]?.map Task.pc

/-- Where the open task is suspended. -/
def openPc (s : Session ε) : Option Pc := s.openTask.bind s.pc?

/-- `start` -/
def start (s : Session ε) : Session ε :=
  if s.openTask.isNone then
    { s with openTask := some s.tasks.length, tasks := s.tasks ++ [⟨.open, .start⟩] }
  else s

/-- Call a coroutine of the session in a task of its own. -/
def spawn (s : Session ε) (c : Call) : Session ε := { s with tasks := s.tasks ++ [⟨c, .start⟩] }

/-- Move a task. -/
def goto (s : Session ε) (t : Nat) (pc : Pc) : Session ε :=
  { s with tasks := s.tasks.modify t fun k ↦ { k with pc } }

/-- Add an entry to the log. -/
def record (s : Session ε) (entry : Entry) : Session ε := { s with log := s.log ++ [entry] }

/-- `_mark_done` -/
def markDone (s : Session ε) : Session ε := { s with closed := true }

/-- Enter a block under the I/O lock. -/
def hold (s : Session ε) (t : Nat) : Session ε := { s with ioLock := some t }

/-- Leave the block under the I/O lock. -/
def release (s : Session ε) : Session ε := { s with ioLock := none }

/-- Call `send_event` or `send_request`. -/
def hand (s : Session ε) (t : Nat) (send : Send) : Session ε :=
  (s.record (.handed send.outgoing)).goto t (.sending send .queued)

/-! ### `_send_close` -/

/-- The guard of `_send_close` lets the call through. -/
def mayClose (s : Session ε) (connectionClosed : Bool) : Bool :=
  !s.closeSent && s.streamId.isSome && !connectionClosed

/-- The exception that `finish` raises when no acknowledgement comes. -/
def ackTimeout : PyErr :=
  .timeoutError "timed out waiting for Siri end-of-stream acknowledgement"

/-- The callers of `_send_close` after it returned. -/
def closeReturned (s : Session ε) (t : Nat) : Closer → Session ε
  | .timeout => { s with error := some ackTimeout }.markDone.goto t (.raised ackTimeout)
  | _ => s.markDone.goto t .returned

/-- The callers of `_send_close` after it raised. -/
def closeRaised (s : Session ε) (t : Nat) (e : PyErr) : Closer → Session ε
  | .open | .ack => { s with error := some e }.markDone.goto t (.raised e)
  | .timeout => { s with error := some ackTimeout }.markDone.goto t (.raised e)
  | .cancel => s.markDone.goto t (.raised e)

/-- `_send_close` -/
def sendClose (s : Session ε) (connectionClosed : Bool) (t : Nat) (reason : HDSCloseReason)
    (who : Closer) : Session ε :=
  match s.mayClose connectionClosed, s.streamId with
  | true, some streamId => s.hand t (.close streamId reason who)
  | _, _ => s.closeReturned t who

/-! ### `_flush_locked` -/

/-- The end of `_flush_locked` and of the block under the lock. -/
def flushReturned (s : Session ε) (t : Nat) : Flusher → Session ε
  | .open | .write => s.release.goto t .returned
  | .finish => s.release.goto t .awaitDone

/-- `_flush_locked` raises. -/
def flushRaised (s : Session ε) (t : Nat) (e : PyErr) : Flusher → Session ε
  | .open => { s.release with error := some e }.markDone.goto t (.raised e)
  | .write | .finish => s.release.goto t (.raised e)

/-- The packets of the frames, numbered on from `sequence`. -/
def packetsOf (sequence : Nat) (frames : List AudioFrame) : List Packet :=
  frames.mapIdx fun i frame ↦ ⟨frame.data, frame.rms, sequence + i⟩

/-- The test of the `while` loop of `_flush_locked`. -/
def eventDue (s : Session ε) (force : Bool) : Bool :=
  framesPerHdsEvent ≤ s.frames.length || (force && !s.frames.isEmpty)

/-- `_flush_locked` from the `while` loop on, up to its next `await`. -/
def flushLoop (s : Session ε) (t : Nat) (streamId : Int) (force : Bool) (who : Flusher) :
    Session ε :=
  if s.eventDue force then
    let frames := s.frames.take framesPerHdsEvent
    let rest := s.frames.drop framesPerHdsEvent
    let isEos := force && rest.isEmpty
    { s with frames := rest, sequence := s.sequence + frames.length }.hand t
      (.data (packetsOf s.sequence frames) streamId isEos force who)
  else if force && s.frames.isEmpty && !s.eosSent then
    s.hand t (.data [] streamId true force who)
  else s.flushReturned t who

/-- `_flush_locked` -/
def flush (s : Session ε) (t : Nat) (force : Bool) (who : Flusher) : Session ε :=
  match s.streamId with
  | none => s.flushReturned t who
  | some streamId =>
      if s.closed || (force && s.eosSent) then s.flushReturned t who
      else s.flushLoop t streamId force who

/-- `_flush_locked` after one of its `send_event` calls returned. -/
def flushResume (s : Session ε) (t : Nat) (force isEos : Bool) (who : Flusher) : Session ε :=
  if isEos then { s with eosSent := true }.flushReturned t who
  else match s.streamId with
    | some streamId => s.flushLoop t streamId force who
    | none => s.flushReturned t who

/-! ### `_open` -/

/-- The `except` branches of `_open`. -/
def openRaised (s : Session ε) (t : Nat) (e : PyErr) : Session ε :=
  { s with error := some e }.markDone.goto t (.raised e)

/-- The stream that a `dataSend/open` response opens: the assigned `stream_id`, if the
response gets that far, and the exception of the checks around it. -/
def openedStream (status : Int) (message : List (Obj × Obj)) : Option Int × Option PyErr :=
  if status ≠ 0 then
    (none, some (.runtimeError s!"Apple TV rejected Siri dataSend/open with HDS status {status}"))
  else match Obj.lookup message (.text "streamId") with
    | none =>
        (none, some (.runtimeError "Apple TV dataSend/open response did not include streamId"))
    | some v => match v.toInt with
        | .error e => (none, some e)
        | .ok streamId =>
            if streamId < 0 then
              (some streamId, some (.runtimeError "Apple TV returned an invalid Siri streamId"))
            else (some streamId, none)

/-! ### The blocks under the I/O lock -/

section Steps

variable (opus : OpusEncoder ε)

/-- `write` extends the buffer and encodes the whole frames in it. -/
def buffer (s : Session ε) (pcm : Bytes) : Session ε :=
  let (whole, rest) := cutFrames (s.pcmBuffer.1 ++ pcm)
  let (frames, encoder) := opus.encodeAll s.encoder whole
  { s with
      pcmBuffer := rest
      frames := s.frames ++ frames
      encoder
      accepted := s.accepted ++ pcm }

/-- The body of `write` under the lock. -/
def writeLocked (s : Session ε) (t : Nat) (pcm : Bytes) : Session ε :=
  if s.ending || s.closed then
    s.release.goto t (.raised (.runtimeError "Siri session is already ending/closed"))
  else
    let s := s.buffer opus pcm
    if s.streamId.isSome then s.flush t false .write
    else s.release.goto t .returned

/-- The first block of `finish` under the lock. -/
def drainBuffer (s : Session ε) (pad : Bool) : Session ε :=
  if s.ending then s
  else
    let s := { s with ending := true, drained := some pad }
    if s.pcmBuffer.1.isEmpty then s
    else if pad then
      let (frame, encoder) := opus.encode s.encoder s.pcmBuffer.pad
      { s with pcmBuffer := .empty, frames := s.frames ++ [frame], encoder }
    else { s with pcmBuffer := .empty }

/-- The second block of `finish` under the lock. -/
def finishLocked (s : Session ε) (t : Nat) : Session ε := s.flush t true .finish

/-- The task can take the I/O lock without waiting: nobody holds it, and no other task
waits for it. -/
def lockFree (s : Session ε) (t : Nat) : Bool :=
  s.ioLock.isNone && !(s.tasks.eraseIdx t).any fun k ↦ k.pc.awaitsLock

/-- `finish` behind the wait for the open task. -/
def finishOpened (s : Session ε) (t : Nat) : Session ε :=
  if s.closed then
    match s.error with
    | some e => s.goto t (.raised e)
    | none => s.goto t .returned
  else if s.lockFree t then (s.hold t).finishLocked t
  else s.goto t (.awaitLock .finishFlush)

/-- `finish` from the wait for the open task on. -/
def finishDrained (s : Session ε) (t : Nat) : Session ε :=
  match s.openPc with
  | none | some .returned => s.finishOpened t
  | some (.raised e) => s.goto t (.raised e)
  | some _ => s.goto t .awaitOpen

/-- A block under the lock, which the task has taken. -/
def locked (s : Session ε) (t : Nat) : LockUse → Session ε
  | .openFlush => s.flush t s.ending .open
  | .write pcm => s.writeLocked opus t pcm
  | .finishDrain pad => (s.drainBuffer opus pad).release.finishDrained t
  | .finishFlush => s.finishLocked t

/-- `async with self._io_lock` -/
def acquire (s : Session ε) (t : Nat) (use : LockUse) : Session ε :=
  if s.lockFree t then (s.hold t).locked opus t use
  else s.goto t (.awaitLock use)

/-- `_open` behind the response; `onOpen` is what the callback raises. -/
def openResponse (s : Session ε) (connectionClosed : Bool) (t : Nat) (status : Int)
    (message : List (Obj × Obj)) (onOpen : Option PyErr) : Session ε :=
  let (streamId, invalid) := openedStream status message
  let s := { s with streamId := streamId.or s.streamId }
  match invalid.or onOpen with
  | some e => s.openRaised t e
  | none => match s.cancelReason with
      | some reason => s.sendClose connectionClosed t reason .open
      | none => s.acquire opus t .openFlush

/-! ### `finish`, `cancel`, `handle_ack` and `handle_close` -/

/-- `finish` after its wait for the acknowledgement raised. -/
def waitRaised (s : Session ε) (connectionClosed : Bool) (t : Nat) (e : PyErr) : Session ε :=
  if e.isTimeoutError then s.sendClose connectionClosed t .timeout .timeout
  else s.goto t (.raised e)

/-- `cancel` behind the wait for the open task. -/
def cancelOpened (s : Session ε) (connectionClosed : Bool) (t : Nat) (reason : HDSCloseReason) :
    Session ε :=
  if s.streamId.isSome then s.sendClose connectionClosed t reason .cancel
  else s.markDone.goto t .returned

/-- The open task is there, is not done, and has no stream yet. -/
def opening (s : Session ε) : Bool := s.openPc.any (fun pc ↦ !pc.done) && s.streamId.isNone

/-- The first step of a coroutine. -/
def begin (s : Session ε) (connectionClosed : Bool) (t : Nat) : Call → Session ε
  | .open => s.hand t .request
  | .write pcm =>
      if pcm.isEmpty then s.goto t .returned
      else s.acquire opus t (.write pcm)
  | .finish timeoutPositive pad =>
      if !timeoutPositive then s.goto t (.raised (.valueError "timeout must be > 0"))
      else if s.closed then
        match s.error with
        | some e => s.goto t (.raised e)
        | none => s.goto t .returned
      else s.acquire opus t (.finishDrain pad)
  | .cancel reason =>
      if s.closed then s.goto t .returned
      else
        let s := { s with ending := true, cancelReason := some reason }
        if s.opening then s.goto t (.awaitShielded reason)
        else s.cancelOpened connectionClosed t reason
  | .handleAck endOfStream =>
      if s.closed || !endOfStream || s.streamId.isNone then s.goto t .returned
      else s.sendClose connectionClosed t .normal .ack

/-- The exception that `handle_close` stores for a reason. -/
def closeError (reason : Int) : Option PyErr :=
  if (HDSCloseReason.ofInt? reason).getD .unexpectedFailure = .normal then none
  else some (.runtimeError s!"Apple TV closed Siri stream with reason {reason}")

/-- `handle_close` -/
def handleClose (s : Session ε) (reason : Int) : Session ε :=
  let s := s.record (.received reason)
  if s.closed then s
  else { s with error := (closeError reason).or s.error }.markDone

/-! ### Steps -/

/-- What the event loop and the environment do to a session. -/
inductive Label where
  /-- `start()` is called. -/
  | start
  /-- A coroutine is called, or a task for it is created. -/
  | call (c : Call)
  /-- A task runs: it starts, or what it waited for has come. -/
  | run (t : Nat)
  /-- The response to `dataSend/open` comes; the callback raises `onOpen`. -/
  | response (t : Nat) (status : Int) (message : List (Obj × Obj)) (onOpen : Option PyErr)
  /-- The frame of a `send_event` is written. -/
  | sent (t : Nat)
  /-- A `send_event` returns. -/
  | resume (t : Nat)
  /-- A task is cancelled at its `await`, or what it awaits raises. -/
  | fail (t : Nat) (e : PyErr)
  /-- A timeout of `finish` or `cancel` runs out. -/
  | timeout (t : Nat)
  /-- `handle_close(reason)` is called. -/
  | handleClose (reason : Int)
deriving Repr

/-- A task runs on from where it is suspended. -/
def runTask (s : Session ε) (connectionClosed : Bool) (t : Nat) (k : Task) :
    Option (Session ε) :=
  match k.pc with
  | .start => some (s.begin opus connectionClosed t k.call)
  | .awaitLock use =>
      if s.ioLock.isNone then some ((s.hold t).locked opus t use) else none
  | .awaitOpen => match s.openPc with
      | some .returned => some (s.finishOpened t)
      | some (.raised e) => some (s.goto t (.raised e))
      | _ => none
  | .awaitDone =>
      if s.closed then
        match s.error with
        | some e => some (s.waitRaised connectionClosed t e)
        | none => some (s.goto t .returned)
      else none
  | .awaitShielded reason => match s.openPc with
      | some .returned => some (s.cancelOpened connectionClosed t reason)
      | some (.raised _) => some (s.goto t .returned)
      | _ => none
  | _ => none

/-- A `send_event` returns to its task. -/
def resumeTask (s : Session ε) (t : Nat) : Pc → Option (Session ε)
  | .sending .request .drain => some (s.goto t .awaitResponse)
  | .sending (.data _ _ isEos force who) .drain => some (s.flushResume t force isEos who)
  | .sending (.close _ _ who) .drain => some ({ s with closeSent := true }.closeReturned t who)
  | _ => none

/-- An `await` raises. -/
def failTask (s : Session ε) (t : Nat) (e : PyErr) : Pc → Option (Session ε)
  | .start => if e = .cancelledError then some (s.goto t (.raised e)) else none
  | .awaitLock .openFlush => if e = .cancelledError then some (s.openRaised t e) else none
  | .awaitLock _ => if e = .cancelledError then some (s.goto t (.raised e)) else none
  | .awaitResponse => some (s.openRaised t e)
  | .awaitDone => if e = .cancelledError then some (s.goto t (.raised e)) else none
  | .awaitShielded _ => if e = .cancelledError then some (s.goto t .returned) else none
  | .sending send _ =>
      let s := s.record (.raised send.outgoing)
      match send with
      | .request => some (s.openRaised t e)
      | .data _ _ _ _ who => some (s.flushRaised t e who)
      | .close _ _ who => some (s.closeRaised t e who)
  | _ => none

/-- One step of the session. -/
def step (connectionClosed : Bool) (s : Session ε) : Label → Option (Session ε)
  | .start => some s.start
  | .call .open => none
  | .call c => some (s.spawn c)
  | .run t => s.tasks[t]?.bind (s.runTask opus connectionClosed t)
  | .response t status message onOpen =>
      if s.pc? t = some .awaitResponse then
        some (s.openResponse opus connectionClosed t status message onOpen)
      else none
  | .sent t => match s.pc? t with
      | some (.sending send .queued) =>
          if connectionClosed then none
          else some ((s.record (.written send.outgoing)).goto t (.sending send .drain))
      | _ => none
  | .resume t => (s.pc? t).bind (s.resumeTask t)
  | .fail t e => (s.pc? t).bind (s.failTask t e)
  | .timeout t => match s.pc? t with
      | some .awaitDone => some (s.waitRaised connectionClosed t (.timeoutError ""))
      | some (.awaitShielded _) => some (s.goto t .returned)
      | _ => none
  | .handleClose reason => some (s.handleClose reason)

end Steps

end Session

end AtvRemote.Audio
