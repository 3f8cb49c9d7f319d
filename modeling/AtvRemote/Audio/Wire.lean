import AtvRemote.Audio.Messages
import AtvRemote.Hds.Calls

/-!
# Sessions on a connection

`SiriSession` and `HDSConnection` put together: any number of sessions that send on one
connection, one after the other or at once.  What a session hands over is a call of the
connection in the same step, and the call tells the task that awaits it when its frame is
written, when it returns, with which response, and when it raises.  The session makes its other
steps by itself, and so does the connection; nobody but its sessions and its reader sends
anything on it.
-/

namespace AtvRemote.Audio

open Lib Hds

/-! ## Calls of a connection -/

/-- The call of the connection for what a session hands over. -/
def Outgoing.label (o : Outgoing) (requestId : Nat) : HDSConnection.Label :=
  match o.kind requestId with
  | .request requestId =>
      .sendRequest (.ofString hdsProtocolDataSend) o.topic (some o.message) true requestId
  | _ => .sendEvent (.ofString hdsProtocolDataSend) o.topic (some o.message)

/-- A task of a session in a call of the connection, and what it sends. -/
structure Owner where
  session : Nat
  task : Nat
  send : Send
deriving DecidableEq, Repr

/-- What the place of a call tells the task that awaits it; `onOpen` is what the callback of
`_open` raises. -/
def Owner.told (o : Owner) (onOpen : Option PyErr) : CallPc → Option Session.Label
  | .draining => some (.sent o.task)
  | .awaiting | .returned none => some (.resume o.task)
  | .returned (some (status, message)) => some (.response o.task status message onOpen)
  | .raised e => some (.fail o.task e)
  | .waiting | .abandoned _ => none

/-! ## Steps of a session -/

/-- A task at this place waits for its connection. -/
def Pc.inCall : Pc → Bool
  | .sending _ _ | .awaitResponse => true
  | _ => false

namespace Session

variable {ε : Type}

/-- What a task has called and the connection has not got yet. -/
def called? (s : Session ε) (t : Nat) : Option Send :=
  match s.pc? t with
  | some (.sending send .queued) => some send
  | _ => none

/-- The session makes the step by itself. -/
def alone (s : Session ε) : Label → Bool
  | .sent _ | .resume _ | .response _ _ _ _ => false
  | .fail t _ => !(s.pc? t).any Pc.inCall
  | _ => true

end Session

/-! ## The sessions of a connection -/

/-- The Siri sessions of one connection. -/
structure Wire (ε : Type) where
  connection : HDSConnection
  sessions : List (Session ε)
  /-- Who awaits each call of the connection; the answer to the greeting is the reader's. -/
  owners : List (Option Owner)

namespace Wire

variable {ε : Type}

/-- What happens to a connection and its sessions. -/
inductive Label where
  /-- `SiriSession(connection, ...)` -/
  | begin
  /-- A session makes a step by itself, and draws this id if it sends a request. -/
  | session (sid : Nat) (a : Session.Label) (requestId : Nat)
  /-- The connection makes a step; the callback of `_open` raises `onOpen`. -/
  | connection (a : HDSConnection.Label) (onOpen : Option PyErr)

section

variable (opus : OpusEncoder ε) (aead : Aead) (reprOf : Obj → String)

/-- The connection gets what a task has called. -/
def forward (w : Wire ε) (sid t requestId : Nat) : Option (Wire ε) :=
  match w.sessions[sid]?.bind fun s ↦ s.called? t with
  | none => some w
  | some send =>
      (w.connection.step aead reprOf (send.outgoing.label requestId)).map fun connection ↦
        { w with connection, owners := w.owners ++ [some ⟨sid, t, send⟩] }

/-- A session makes a step. -/
def advance (w : Wire ε) (sid : Nat) (a : Session.Label) (requestId : Nat) : Option (Wire ε) :=
  (w.sessions[sid]?.bind fun s ↦ s.step opus w.connection.closed a).bind fun s ↦
    let w := { w with sessions := w.sessions.set sid s }
    match a.task with
    | some t => w.forward aead reprOf sid t requestId
    | none => some w

/-- What the call with this number tells a session. -/
def told? (w : Wire ε) (i : Nat) (onOpen : Option PyErr) : Option (Nat × Session.Label) := do
  let o ← w.owners[i]?.join
  let k ← w.connection.calls[i]?
  return (o.session, ← o.told onOpen k.pc)

/-- The call with this number has moved.  Only `_open` sends a request, and not behind an
`await`. -/
def tell (w : Wire ε) (i : Nat) (onOpen : Option PyErr) : Option (Wire ε) :=
  match w.told? i onOpen with
  | some (sid, a) => w.advance opus aead reprOf sid a 0
  | none => some w

/-- The connection has made a step; calls that it began are its own. -/
def withConnection (w : Wire ε) (connection : HDSConnection) : Wire ε :=
  { w with
    connection
    owners := w.owners ++ .replicate (connection.calls.length - w.owners.length) none }

/-- One step. -/
def step (w : Wire ε) : Label → Option (Wire ε)
  | .begin => some { w with sessions := w.sessions ++ [.new opus.init] }
  | .session sid a requestId =>
      if w.sessions[sid]?.any fun s ↦ s.alone a then w.advance opus aead reprOf sid a requestId
      else none
  | .connection a onOpen =>
      if a.begins then none
      else (w.connection.step aead reprOf a).bind fun connection ↦
        match a.call? with
        | some i => (w.withConnection connection).tell opus aead reprOf i onOpen
        | none => some (w.withConnection connection)

end

/-- What a session has written to the transport, by the calls of the connection. -/
def writes (w : Wire ε) (sid : Nat) : List Outgoing :=
  w.connection.written.filterMap fun i ↦
    (w.owners[i]?.join.filter fun o ↦ o.session = sid).map fun o ↦ o.send.outgoing

end Wire

/-- A connection without sessions. -/
def Wire.new {ε : Type} (connection : HDSConnection) : Wire ε := ⟨connection, [], []⟩

/-- The sessions of a connection from its construction on. -/
def wires {ε : Type} (opus : OpusEncoder ε) (aead : Aead) (reprOf : Obj → String) :
    System (Wire ε) Wire.Label where
  init w := ∃ c, (connections aead reprOf).init c ∧ w = .new c
  step w a := w.step opus aead reprOf a

end AtvRemote.Audio
