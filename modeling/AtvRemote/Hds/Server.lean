import AtvRemote.Hds.Connection
import AtvRemote.Lib.System

/-!
# The data stream server

`HDSServer` of `hds`: the table of prepared sessions with their expiry timers, the tasks that
accept TCP connections, and the connections.  Sessions and connections are compared by
identity in most places; they are places in the lists of all of them.  `prepared.remove` and
`in self.prepared` compare by `==` as well, which looks at the fields (`sameSession`).

A step of a connection is a step of the server; a connection that closes leaves
`self.connections` in the same step.
-/

namespace AtvRemote.Remote

/-- A HAP client: `tuple[str, int]` -/
structure ClientAddr where
  host : String
  port : Nat
deriving DecidableEq, Repr

end AtvRemote.Remote

namespace AtvRemote.Hds

open Lib Remote

/-- `MAX_PREPARED_SESSIONS` -/
def maxPreparedSessions : Nat := 16

/-- `READ_INFO` -/
def readInfo : Bytes := "HDS-Read-Encryption-Key".toList.flatMap String.utf8EncodeChar

/-- `WRITE_INFO` -/
def writeInfo : Bytes := "HDS-Write-Encryption-Key".toList.flatMap String.utf8EncodeChar

/-- `PreparedSession` -/
structure PreparedSession where
  clientAddr : ClientAddr
  accessoryToControllerKey : Bytes
  controllerToAccessoryKey : Bytes
  accessorySalt : Bytes
  /-- `timeout`: the handle of the timer, as the place of the session it was made for. -/
  timeout : Option Nat
deriving DecidableEq, Repr

/-- Where `_accept` is. -/
inductive AcceptPc where
  /-- In `readexactly(4)`. -/
  | header
  /-- In `readexactly(length + 16)`. -/
  | body (header : Bytes) (length : Nat)
  | rejected
  | accepted (connection : Nat)
deriving DecidableEq, Repr

/-- A task that runs `_accept`, with what its transport has received. -/
structure Accept where
  buffer : Bytes
  eof : Bool
  pc : AcceptPc
deriving DecidableEq, Repr

/-- Where a call of `stop` is. -/
inductive StopPc where
  /-- In `server.wait_closed()`. -/
  | closing
  /-- Behind it. -/
  | gathering
  | stopped
deriving DecidableEq, Repr

/-- `HDSServer` -/
structure HDSServer where
  /-- `server` is not `None`. -/
  server : Bool
  /-- `port` -/
  port : Option Nat
  /-- Every session that `prepare_session` made. -/
  sessions : List PreparedSession
  /-- The timers that will run `_expire_prepared`, by the places of their sessions. -/
  timers : List Nat
  /-- `prepared` -/
  prepared : List Nat
  /-- The tasks that run `_accept`. -/
  accepts : List Accept
  /-- Every connection that `_accept` made. -/
  opened : List HDSConnection
  /-- `connections` -/
  connections : List Nat
  /-- The calls of `stop`. -/
  stops : List StopPc

namespace HDSServer

/-- `HDSServer(...)` -/
def new : HDSServer where
  server := false
  port := none
  sessions := []
  timers := []
  prepared := []
  accepts := []
  opened := []
  connections := []
  stops := []

section

variable (s : HDSServer)

/-- The client address of a session. -/
def clientAddr? (p : Nat) : Option ClientAddr := s.sessions[p]?.map PreparedSession.clientAddr

/-! ### Prepared sessions -/

/-- `x is y or x == y` for two sessions. -/
def sameSession (p q : Nat) : Bool := p == q || s.sessions[p]? == s.sessions[q]?

/-- `_remove_prepared` on the timer of a session. -/
def cancelTimer (p : Nat) : HDSServer :=
  match s.sessions[p]?.bind PreparedSession.timeout with
  | some timer => { s with
      timers := s.timers.erase timer
      sessions := s.sessions.modify p fun session ↦ { session with timeout := none } }
  | none => s

/-- `_remove_prepared` -/
def removePrepared (p : Nat) : HDSServer :=
  { s.cancelTimer p with prepared := s.prepared.eraseP ((s.cancelTimer p).sameSession p) }

/-- Remove the sessions of a list that are prepared for a client. -/
def removeForClient (client : ClientAddr) : HDSServer :=
  (s.prepared.filter fun p ↦ s.clientAddr? p = some client).foldl removePrepared s

/-- Remove every prepared session. -/
def removeAll : HDSServer := s.prepared.foldl removePrepared s

/-- `prepare_session` makes a session. -/
def addSession (hkdf : Bytes → Bytes → Bytes → Bytes) (client : ClientAddr)
    (sharedSecret controllerSalt accessorySalt : Bytes) : HDSServer :=
  { s with
    sessions := s.sessions ++ [{
      clientAddr := client
      accessoryToControllerKey := hkdf sharedSecret (controllerSalt ++ accessorySalt) readInfo
      controllerToAccessoryKey := hkdf sharedSecret (controllerSalt ++ accessorySalt) writeInfo
      accessorySalt
      timeout := some s.sessions.length }]
    timers := s.timers ++ [s.sessions.length]
    prepared := s.prepared ++ [s.sessions.length] }

/-- `prepare_session` behind the removal of the client's own session. -/
def prepareFresh (hkdf : Bytes → Bytes → Bytes → Bytes) (client : ClientAddr)
    (sharedSecret controllerSalt accessorySalt : Bytes) : Except PyErr Nat × HDSServer :=
  if maxPreparedSessions ≤ s.prepared.length then
    (.error (.runtimeError "too many pending HDS sessions"), s)
  else (.ok s.sessions.length, s.addSession hkdf client sharedSecret controllerSalt accessorySalt)

/-- `prepare_session`; `accessorySalt` is what `os.urandom(32)` draws. -/
def prepareSession (hkdf : Bytes → Bytes → Bytes → Bytes) (client : ClientAddr)
    (sharedSecret controllerSalt accessorySalt : Bytes) : Except PyErr Nat × HDSServer :=
  if s.port.isNone then (.error (.runtimeError "HDS server is not started"), s)
  else if sharedSecret.length < 32 then
    (.error (.valueError "HDS shared secret is unexpectedly short"), s)
  else if controllerSalt.length ≠ 32 then
    (.error (.valueError "controller HDS salt must be 32 bytes"), s)
  else (s.removeForClient client).prepareFresh hkdf client sharedSecret controllerSalt accessorySalt

/-- `_expire_prepared`, run by its timer. -/
def expirePrepared (p : Nat) : HDSServer :=
  let s := { s with timers := s.timers.erase p }
  if s.prepared.any (s.sameSession p) then s.removePrepared p else s

/-! ### Connections -/

/-- Replace a connection by what a step made of it; `_connection_closed` runs when it closed. -/
def setConnection (i : Nat) (c c' : HDSConnection) : HDSServer :=
  { s with
    opened := s.opened.set i c'
    connections := if c'.closed && !c.closed then s.connections.erase i else s.connections }

/-- `close()` of a connection. -/
def closeConnection (i : Nat) : HDSServer :=
  match s.opened[i]? with
  | some c => s.setConnection i c c.close
  | none => s

/-- The client address that a connection was prepared for. -/
def connectionAddr? (i : Nat) : Option ClientAddr :=
  s.opened[i]?.bind fun c ↦ s.clientAddr? c.session

/-- Close the connections that were prepared for a client. -/
def closeConnectionsFor (client : ClientAddr) : HDSServer :=
  (s.connections.filter fun i ↦ s.connectionAddr? i = some client).foldl closeConnection s

/-- Close every connection. -/
def closeConnections : HDSServer := s.connections.foldl closeConnection s

/-- `close_for_client` -/
def closeForClient (client : ClientAddr) : HDSServer :=
  (s.removeForClient client).closeConnectionsFor client

/-- `close_all` -/
def closeAll : HDSServer := s.removeAll.closeConnections

/-! ### `_accept` -/

/-- Change a task that runs `_accept`. -/
def setAccept (t : Nat) (a : Accept) : HDSServer := { s with accepts := s.accepts.set t a }

/-- A task is rejected. -/
def reject (t : Nat) (a : Accept) : HDSServer := s.setAccept t { a with pc := .rejected }

/-- The first prepared session that opens a frame as its first one, with the payload. -/
def identify (aead : Aead) (header encrypted : Bytes) : Option (Nat × Bytes) :=
  s.prepared.findSome? fun p ↦ s.sessions[p]?.bind fun session ↦
    (nonce 0).toOption.bind fun nonce ↦
      (aead.decrypt session.controllerToAccessoryKey nonce encrypted header).map fun payload ↦
        (p, payload)

/-- `_accept` makes a connection of a session that it has identified. -/
def openConnection (t : Nat) (a : Accept) (p : Nat) (session : PreparedSession)
    (firstPayload : Bytes) : HDSServer :=
  { (s.removePrepared p).setAccept t { a with pc := .accepted s.opened.length } with
    opened := s.opened ++ [.new p session.accessoryToControllerKey
      session.controllerToAccessoryKey firstPayload a.buffer a.eof]
    connections := s.connections ++ [s.opened.length] }

/-- `_accept` has read the first frame. -/
def acceptFrame (aead : Aead) (t : Nat) (a : Accept) (header encrypted : Bytes) : HDSServer :=
  match s.identify aead header encrypted with
  | some (p, firstPayload) => match s.sessions[p]? with
      | some session => s.openConnection t a p session firstPayload
      | none => s
  | none => s.reject t a

/-- `_accept` has read a frame header. -/
def acceptHeader (t : Nat) (a : Accept) (header : Bytes) : HDSServer :=
  match acceptFrameLength header with
  | .ok length => s.setAccept t { a with pc := .body header length }
  | .error _ => s.reject t a

/-- `_accept` goes on with a read of `n` bytes. -/
def acceptRead (t : Nat) (a : Accept) (n : Nat) (k : Accept → Bytes → HDSServer) :
    Option HDSServer :=
  if n ≤ a.buffer.length then some (k { a with buffer := a.buffer.drop n } (a.buffer.take n))
  else if a.eof then some (s.reject t { a with buffer := [] })
  else none

/-- `_accept` goes on. -/
def resumeAccept (aead : Aead) (t : Nat) (a : Accept) : Option HDSServer :=
  match a.pc with
  | .header => s.acceptRead t a 4 (s.acceptHeader t)
  | .body header length => s.acceptRead t a (length + 16) fun a ↦ s.acceptFrame aead t a header
  | _ => none

/-- `_accept` times out, is cancelled, or its read raises. -/
def failAccept (t : Nat) (a : Accept) : Option HDSServer :=
  match a.pc with
  | .header | .body _ _ => some (s.reject t a)
  | _ => none

/-- Bytes arrive on a TCP connection that is not accepted yet. -/
def feedAccept (t : Nat) (a : Accept) (data : Bytes) : Option HDSServer :=
  match a.pc with
  | .header | .body _ _ =>
      if a.eof then none else some (s.setAccept t { a with buffer := a.buffer ++ data })
  | _ => none

/-- A TCP connection that is not accepted yet ends. -/
def endAccept (t : Nat) (a : Accept) : Option HDSServer :=
  match a.pc with
  | .header | .body _ _ => some (s.setAccept t { a with eof := true })
  | _ => none

/-! ### `start` and `stop` -/

/-- `start`; `port` is what the listening socket says, `none` when there is none. -/
def start (port : Option Nat) : HDSServer :=
  if s.server then s
  else match port with
    | some port => { s with server := true, port := some port }
    | none => s

/-- `stop` up to `server.wait_closed()`. -/
def stop : HDSServer :=
  let s := s.removeAll.closeConnections
  { s with stops := s.stops ++ [.closing] }

/-- `stop` goes on. -/
def resumeStop (i : Nat) : StopPc → Option HDSServer
  | .closing => some { s with server := false, stops := s.stops.set i .gathering }
  | .gathering => some { s with
      connections := []
      port := none
      stops := s.stops.set i .stopped }
  | .stopped => none

/-! ### Steps -/

/-- What the event loop and the environment do to the server. -/
inductive Label where
  | start (port : Option Nat)
  | prepareSession (client : ClientAddr) (sharedSecret controllerSalt accessorySalt : Bytes)
  /-- The timer of a prepared session runs out. -/
  | expire (session : Nat)
  | closeForClient (client : ClientAddr)
  | closeAll
  | stop
  | resumeStop (stop : Nat)
  /-- A TCP connection comes in. -/
  | connect
  /-- Bytes arrive on a TCP connection that is not accepted yet. -/
  | feedAccept (accept : Nat) (data : Bytes)
  | endAccept (accept : Nat)
  /-- `_accept` goes on. -/
  | resumeAccept (accept : Nat)
  /-- `_accept` times out, is cancelled, or its read raises. -/
  | failAccept (accept : Nat)
  /-- A step of a connection. -/
  | connection (connection : Nat) (a : HDSConnection.Label)
deriving Repr

/-- A step of a connection. -/
def stepConnection (C : Crypto) (reprOf : Obj → String) (i : Nat) (a : HDSConnection.Label) :
    Option HDSServer :=
  s.opened[i]?.bind fun c ↦ (c.step C.aead reprOf a).map fun c' ↦ s.setConnection i c c'

/-- One step. -/
def step (C : Crypto) (reprOf : Obj → String) : Label → Option HDSServer
  | .start port => some (s.start port)
  | .prepareSession client sharedSecret controllerSalt accessorySalt =>
      if accessorySalt.length = 32 then
        some (s.prepareSession C.hkdf client sharedSecret controllerSalt accessorySalt).2
      else none
  | .expire p => if p ∈ s.timers then some (s.expirePrepared p) else none
  | .closeForClient client => some (s.closeForClient client)
  | .closeAll => some s.closeAll
  | .stop => some s.stop
  | .resumeStop i => s.stops[i]?.bind (s.resumeStop i)
  | .connect => some { s with accepts := s.accepts ++ [⟨[], false, .header⟩] }
  | .feedAccept t data => s.accepts[t]?.bind fun a ↦ s.feedAccept t a data
  | .endAccept t => s.accepts[t]?.bind (s.endAccept t)
  | .resumeAccept t => s.accepts[t]?.bind (s.resumeAccept C.aead t)
  | .failAccept t => s.accepts[t]?.bind (s.failAccept t)
  | .connection i a => s.stepConnection C reprOf i a

end

end HDSServer

/-- A data stream server from its construction on. -/
def servers (C : Crypto) (reprOf : Obj → String) : System HDSServer HDSServer.Label where
  init s := s = .new
  step s a := s.step C reprOf a

end AtvRemote.Hds
