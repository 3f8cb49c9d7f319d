import AtvRemote.Hds.Message
import AtvRemote.Lib.Dict
import AtvRemote.Lib.System

/-!
# A data stream connection

`HDSConnection` of `hds` as a step function.  Every call of `send_event`, `send_response`
and `send_request` has a place in a table with the place where it is suspended (`CallPc`);
the reader task `_run` has its own (`RunPc`).  One step runs one of them up to its next
suspension.

* A call waits for `_send_lock`, then for `writer.drain()` while it holds the lock, and a
  request then for its response.  Which of the waiting calls takes a free lock is left open.
* The reader is cut at both of its `readexactly` calls.  The bytes that have arrived and are
  not read yet are `buffer`; they stay there when the connection is closed.
* Calling `on_message` is one step, its end another; what it does to other objects is not
  part of the connection.

Beside the fields of the source the state keeps a record that no step reads: the bytes
written to the transport, the calls whose frames they are, the nonces used, the greeting and
the messages passed to `on_message`, and the responses that were received.
-/

namespace AtvRemote.Hds

open Lib

/-! ## Calls -/

/-- `asyncio.Future` of a request. -/
inductive Future where
  | pending
  | result (status : Int) (message : Items)
  | failed (e : PyErr)
  | cancelled
deriving Repr

/-- `future.done()` -/
def Future.done : Future → Bool
  | .pending => false
  | _ => true

/-- Where a call is. -/
inductive CallPc where
  /-- In `_send_lock.acquire()`. -/
  | waiting
  /-- In `writer.drain()`, under the lock. -/
  | draining
  /-- In `wait_for(future, timeout)`. -/
  | awaiting
  /-- In `wait_for`, which is going to raise: the timeout has run out, or the task is
  cancelled. -/
  | abandoned (e : PyErr)
  | returned (response : Option (Int × Items))
  | raised (e : PyErr)
deriving Repr

/-- The call has returned or raised. -/
def CallPc.ended : CallPc → Bool
  | .returned _ | .raised _ => true
  | _ => false

/-- A call of `send_event`, `send_response` or `send_request`. -/
structure Call where
  outgoing : Outgoing
  /-- `future`, which only `send_request` has. -/
  future : Option Future
  pc : CallPc
deriving Repr

namespace Call

/-- The request id of a call of `send_request`. -/
def requestId (k : Call) : Option Int :=
  match k.outgoing.kind with
  | .request requestId => some requestId
  | _ => none

/-- Put something into a future that is not done. -/
def settle (k : Call) (f : Future) : Call :=
  match k.future with
  | some .pending => { k with future := some f }
  | _ => k

end Call

/-! ## The connection -/

/-- Where `_run` is. -/
inductive RunPc where
  /-- The task is created. -/
  | start
  /-- In the `send_response` that answers the greeting. -/
  | replying (call : Nat)
  /-- In `readexactly(4)`. -/
  | header
  /-- In `readexactly(length + 16)`. -/
  | body (header : Bytes) (length : Nat)
  /-- In `on_message`. -/
  | handling (message : Message)
  | ended
deriving Repr

/-- A received response: its id, and the call that it completed. -/
structure Response where
  requestId : Int
  status : Int
  message : Items
  completed : Option Nat
deriving Repr

/-- `HDSConnection` -/
structure HDSConnection where
  /-- `prepared`, as a place in the list of prepared sessions. -/
  session : Nat
  /-- `_out_key` -/
  outKey : Bytes
  /-- `_in_key` -/
  inKey : Bytes
  /-- `_out_nonce` -/
  outNonce : Nat
  /-- `_in_nonce` -/
  inNonce : Nat
  /-- `_first_payload` -/
  firstPayload : Bytes
  /-- `_responses`, by the places of the calls whose futures they are. -/
  responses : Dict Int Nat
  /-- `_closed` -/
  closed : Bool
  /-- The call that holds `_send_lock`. -/
  sendLock : Option Nat
  /-- `_task` -/
  run : RunPc
  /-- What the transport has received and `reader` has not handed out. -/
  buffer : Bytes
  /-- The transport has reached the end of the stream. -/
  eof : Bool
  /-- Every call. -/
  calls : List Call
  /-- The bytes written to the transport. -/
  out : Bytes
  /-- The calls whose frames were written, in that order. -/
  written : List Nat
  /-- The nonce of each encryption. -/
  nonces : List Bytes
  /-- The greeting that `_run` has answered. -/
  hello : Option Message
  /-- The messages passed to `_dispatch`. -/
  dispatched : List Message
  /-- Whether the connection was closed at each call of `on_message`. -/
  handled : List Bool
  /-- The responses received. -/
  received : List Response

namespace HDSConnection

/-- `HDSConnection(...)` and `start()` -/
def new (session : Nat) (outKey inKey firstPayload buffer : Bytes) (eof : Bool) :
    HDSConnection where
  session := session
  outKey := outKey
  inKey := inKey
  outNonce := 0
  inNonce := 1
  firstPayload := firstPayload
  responses := .empty
  closed := false
  sendLock := none
  run := .start
  buffer := buffer
  eof := eof
  calls := []
  out := []
  written := []
  nonces := []
  hello := none
  dispatched := []
  handled := []
  received := []

/-! ### Sending -/

/-- Move a call. -/
def goto (c : HDSConnection) (i : Nat) (pc : CallPc) : HDSConnection :=
  { c with calls := c.calls.modify i fun k ↦ { k with pc } }

/-- Leave the block under the lock. -/
def release (c : HDSConnection) : HDSConnection := { c with sendLock := none }

/-- A call ends; `send_request` runs its `finally` block. -/
def endCall (c : HDSConnection) (i : Nat) (pc : CallPc) : HDSConnection :=
  match c.calls[i]?.bind Call.requestId with
  | none => c.goto i pc
  | some requestId => goto { c with
      responses := c.responses.erase requestId
      calls := c.calls.modify i (·.settle .cancelled) } i pc

/-- `send_event` and `send_response` up to the lock. -/
def send (c : HDSConnection) (o : Outgoing) : HDSConnection :=
  { c with calls := c.calls ++ [⟨o, none, .waiting⟩] }

/-- `send_request` from the id that it draws up to the lock. -/
def request (c : HDSConnection) (requestId : Nat) (protocol topic : PyStr)
    (message : Option Items) : HDSConnection :=
  { c with
    calls := c.calls ++ [⟨⟨.request requestId, protocol, topic, message⟩, some .pending, .waiting⟩]
    responses := c.responses.set requestId c.calls.length }

/-- `_send` under the lock, up to the encryption: the payload and its nonce. -/
def prepareFrame (c : HDSConnection) (o : Outgoing) : Except PyErr (Bytes × Bytes) :=
  if c.closed then .error (.connectionError "HDS connection is closed")
  else do
    let payload ← o.payload
    let nonce ← nonce c.outNonce
    return (payload, nonce)

/-- `_send` encrypts a payload and writes its frame. -/
def writeFrame (aead : Aead) (c : HDSConnection) (i : Nat) (payload nonce : Bytes) :
    HDSConnection :=
  goto { c with
    outNonce := c.outNonce + 1
    sendLock := some i
    out := c.out ++ hdsFraming.frame aead c.outKey nonce payload
    written := c.written ++ [i]
    nonces := c.nonces ++ [nonce] } i .draining

/-- `_send` from the acquisition of the lock to `writer.drain()`. -/
def acquired (aead : Aead) (c : HDSConnection) (i : Nat) (o : Outgoing) : HDSConnection :=
  match c.prepareFrame o with
  | .ok (payload, nonce) => c.writeFrame aead i payload nonce
  | .error e => c.endCall i (.raised e)

/-- A call behind `_send`. -/
def sent (c : HDSConnection) (i : Nat) (k : Call) : HDSConnection :=
  if k.future.isSome then c.release.goto i .awaiting else c.release.goto i (.returned none)

/-- `wait_for` hands out what is in the future. -/
def outcome : Future → Option CallPc
  | .pending => none
  | .result status message => some (.returned (some (status, message)))
  | .failed e => some (.raised e)
  | .cancelled => some (.raised .cancelledError)

/-- `wait_for` cancels the future, and will raise. -/
def abandon (c : HDSConnection) (i : Nat) (e : PyErr) : HDSConnection :=
  goto { c with calls := c.calls.modify i (·.settle .cancelled) } i (.abandoned e)

/-! ### Closing -/

/-- `close` fails the futures of the calls in `_responses`. -/
def failCalls (calls : List Call) (responses : List Nat) : List Call :=
  responses.foldl (fun calls i ↦
    calls.modify i (·.settle (.failed (.connectionError "HDS connection closed")))) calls

/-- `close` -/
def close (c : HDSConnection) : HDSConnection :=
  if c.closed then c
  else { c with
    closed := true
    calls := failCalls c.calls c.responses.values
    responses := .empty }

/-! ### The reader -/

/-- The `finally` block of `_run`. -/
def endRun (c : HDSConnection) : HDSConnection := close { c with run := .ended }

/-- The test of the `while` loop of `_run`. -/
def loop (c : HDSConnection) : HDSConnection :=
  if c.closed then c.endRun else { c with run := .header }

/-- The call that is registered under an id, if its future is not done. -/
def pendingCall (c : HDSConnection) (requestId : Int) : Option Nat :=
  (c.responses.get requestId).filter fun i ↦
    (c.calls[i]?.bind Call.future).any fun f ↦ !f.done

/-- A response completes the call that is registered under its id. -/
def resolve (c : HDSConnection) (requestId status : Int) (message : Items) : HDSConnection :=
  { c with
    responses := c.responses.erase requestId
    calls := match c.responses.get requestId with
      | some i => c.calls.modify i (·.settle (.result status message))
      | none => c.calls
    received := c.received ++ [⟨requestId, status, message, c.pendingCall requestId⟩] }

/-- `_dispatch` up to the call of `on_message`, and on to the loop for a response. -/
def dispatch (c : HDSConnection) (m : Message) : HDSConnection :=
  let c := { c with dispatched := c.dispatched ++ [m] }
  match m.kind with
  | .response => (c.resolve (m.requestId.getD 0) (m.status.getD 0) m.message).loop
  | _ => { c with run := .handling m, handled := c.handled ++ [c.closed] }

/-- `_run` answers the greeting. -/
def greet (c : HDSConnection) (m : Message) : HDSConnection :=
  if m.isHello then
    let c := { c with hello := some m, run := .replying c.calls.length }
    c.send ⟨.response (m.requestId.getD 0) 0, .ofString hdsProtocolControl,
      .ofString hdsTopicHello, none⟩
  else c.endRun

/-- `readexactly`: the bytes and what is left, an exception at the end of the stream, or
nothing as long as there are too few. -/
def readExactly (c : HDSConnection) (n : Nat) : Option (Option Bytes × HDSConnection) :=
  if n ≤ c.buffer.length then some (some (c.buffer.take n), { c with buffer := c.buffer.drop n })
  else if c.eof then some (none, { c with buffer := [] })
  else none

/-- `_run` reads a frame header. -/
def readHeader (c : HDSConnection) (header : Bytes) : HDSConnection :=
  match runFrameLength header with
  | .ok length => { c with run := .body header length }
  | .error _ => c.endRun

section

variable (aead : Aead) (reprOf : Obj → String)

/-- The payload of a frame under the next incoming nonce. -/
def decryptFrame (c : HDSConnection) (header encrypted : Bytes) : Except PyErr Bytes := do
  let nonce ← nonce c.inNonce
  match aead.decrypt c.inKey nonce encrypted header with
  | some payload => .ok payload
  | none => .error .invalidTag

/-- `_run` decodes a payload and dispatches it. -/
def receivePayload (c : HDSConnection) (payload : Bytes) : HDSConnection :=
  match decodeMessage reprOf payload with
  | .ok m => c.dispatch m
  | .error _ => c.endRun

/-- `_run` reads the rest of a frame. -/
def readBody (c : HDSConnection) (header encrypted : Bytes) : HDSConnection :=
  match c.decryptFrame aead header encrypted with
  | .ok payload => receivePayload reprOf { c with inNonce := c.inNonce + 1 } payload
  | .error _ => c.endRun

/-- `_run` goes on from where it is suspended. -/
def resume (c : HDSConnection) : Option HDSConnection :=
  match c.run with
  | .start => match decodeMessage reprOf c.firstPayload with
      | .ok m => some (c.greet m)
      | .error _ => some c.endRun
  | .replying i => match c.calls[i]?.map Call.pc with
      | some (.returned _) => some c.loop
      | some (.raised _) => some c.endRun
      | _ => none
  | .header => (c.readExactly 4).map fun r ↦ match r with
      | (some header, c) => c.readHeader header
      | (none, c) => c.endRun
  | .body header length => (c.readExactly (length + 16)).map fun r ↦ match r with
      | (some encrypted, c) => c.readBody aead reprOf header encrypted
      | (none, c) => c.endRun
  | .handling _ | .ended => none

/-- `_run` is cancelled, or what it awaits raises. -/
def failRun (c : HDSConnection) (e : PyErr) : Option HDSConnection :=
  match c.run with
  -- a task that is cancelled before it starts does not enter the `try` block
  | .start => some { c with run := .ended }
  | .header | .body _ _ | .handling _ => some c.endRun
  | .replying i => match c.calls[i]?.map Call.pc with
      | some .waiting => some (c.endCall i (.raised e)).endRun
      | some .draining => some (c.release.endCall i (.raised e)).endRun
      | _ => none
  | .ended => none

/-! ### Steps -/

/-- What the event loop and the environment do to a connection. -/
inductive Label where
  | sendEvent (protocol topic : PyStr) (message : Option Items)
  | sendResponse (protocol topic : PyStr) (requestId status : Int) (message : Option Items)
  /-- `send_request`, with the id that it draws. -/
  | sendRequest (protocol topic : PyStr) (message : Option Items) (timeoutPositive : Bool)
    (requestId : Nat)
  /-- A call takes the send lock. -/
  | acquire (call : Nat)
  /-- `writer.drain()` returns to a call. -/
  | drained (call : Nat)
  /-- `wait_for` returns to a call, or raises. -/
  | answered (call : Nat)
  /-- The timeout of a request runs out. -/
  | timeout (call : Nat)
  /-- A call is cancelled where it waits, or `writer.drain()` raises. -/
  | fail (call : Nat) (e : PyErr)
  /-- Bytes arrive. -/
  | receive (data : Bytes)
  /-- The stream ends. -/
  | receiveEof
  /-- `_run` goes on. -/
  | resume
  /-- `on_message` returns. -/
  | handled
  /-- `_run` is cancelled, or a read or `on_message` raises. -/
  | failRun (e : PyErr)
  /-- `close()` -/
  | close
deriving Repr

/-- A call is cancelled where it waits, or `writer.drain()` raises. -/
def failCall (c : HDSConnection) (i : Nat) (e : PyErr) : CallPc → Option HDSConnection
  | .waiting => if e = .cancelledError then some (c.endCall i (.raised e)) else none
  | .draining => some (c.release.endCall i (.raised e))
  | .awaiting => if e = .cancelledError then some (c.abandon i e) else none
  | _ => none

/-- `wait_for` returns to a call, or raises. -/
def finishWait (c : HDSConnection) (i : Nat) (k : Call) : Option HDSConnection :=
  match k.pc with
  | .awaiting => (k.future.bind outcome).map (c.endCall i)
  | .abandoned e => some (c.endCall i (.raised e))
  | _ => none

/-- One step. -/
def step (c : HDSConnection) : Label → Option HDSConnection
  | .sendEvent protocol topic message => some (c.send ⟨.event, protocol, topic, message⟩)
  | .sendResponse protocol topic requestId status message =>
      some (c.send ⟨.response requestId status, protocol, topic, message⟩)
  | .sendRequest protocol topic message timeoutPositive requestId =>
      -- `ValueError` before anything is done
      if timeoutPositive = false then some c
      -- `secrets.randbits(32)`, drawn until it is not in `_responses`
      else if requestId < 2 ^ 32 ∧ c.responses.get requestId = none then
        some (c.request requestId protocol topic message)
      else none
  | .acquire i => match c.calls[i]? with
      | some ⟨o, _, .waiting⟩ => if c.sendLock = none then some (c.acquired aead i o) else none
      | _ => none
  | .drained i => match c.calls[i]? with
      | some ⟨o, future, .draining⟩ => some (c.sent i ⟨o, future, .draining⟩)
      | _ => none
  | .answered i => c.calls[i]?.bind (c.finishWait i)
  | .timeout i => match c.calls[i]? with
      | some ⟨_, _, .awaiting⟩ => some (c.abandon i (.timeoutError ""))
      | _ => none
  | .fail i e => (c.calls[i]?.map Call.pc).bind (c.failCall i e)
  | .receive data => if c.eof then none else some { c with buffer := c.buffer ++ data }
  | .receiveEof => some { c with eof := true }
  | .resume => c.resume aead reprOf
  | .handled => match c.run with
      | .handling _ => some c.loop
      | _ => none
  | .failRun e => c.failRun e
  | .close => some c.close

end

end HDSConnection

/-- A connection that has received its greeting, for runs on fixed inputs. -/
def greeted : HDSConnection := .new 0 [] [] (greeting.payload.toOption.getD []) [] false

/-- A connection from its construction on. -/
def connections (aead : Aead) (reprOf : Obj → String) :
    System HDSConnection HDSConnection.Label where
  init c := ∃ session outKey inKey firstPayload buffer eof,
    c = .new session outKey inKey firstPayload buffer eof
  step c a := c.step aead reprOf a

end AtvRemote.Hds
