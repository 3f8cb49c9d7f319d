import AtvRemote.Remote.Controller

/-!
# Starting and stopping the controller

`start` and `stop` of `AppleTVHomeKitRemote`, with `HDSServer.stop` that both of them call.
A call is known by its place in the list of all calls and by the `await` in which it is
suspended; a step runs it up to its next one.  In between the controller takes the steps of
its own, and another call of either kind may be under way.

`HDSServer.stop` closes the connections before it suspends.  It says where it is suspended, and
nothing once it returned, so that `stop` goes on in the same step when there is nothing to
wait for.
-/

namespace AtvRemote.Remote

open Lib Audio

/-- Where `HDSServer.stop` is suspended. -/
inductive ServerPhase where
  /-- In `server.wait_closed()`; the connections are those that it has closed. -/
  | closing (connections : List Nat)
  /-- In the `gather` behind it. -/
  | draining
deriving DecidableEq, Repr

/-- Where a call of `start` is suspended. -/
inductive StartPc where
  | called
  /-- In `asyncio.start_server`. -/
  | startingServer
  /-- In `driver.async_start()`. -/
  | startingDriver
  /-- In `hds.stop()`, behind which it raises. -/
  | undoing (phase : ServerPhase) (e : PyErr)
  | returned
  | raised (e : PyErr)
deriving DecidableEq, Repr

/-- Where a call of `stop` is suspended. -/
inductive StopPc where
  | called
  /-- In `session.cancel()`, a task of the session. -/
  | cancelling (sid task : Nat)
  /-- In `hds.stop()`. -/
  | stoppingServer (phase : ServerPhase)
  /-- In `driver.async_stop()`. -/
  | stoppingDriver
  /-- In the wait for the watcher of a session. -/
  | watching (sid : Nat)
  | returned
  | raised (e : PyErr)
deriving DecidableEq, Repr

/-- The call of `stop` has ended. -/
def StopPc.ended : StopPc → Bool
  | .returned | .raised _ => true
  | _ => false

/-- `AppleTVHomeKitRemote` with its calls of `start` and `stop`. -/
structure Lifecycle (ε T : Type) where
  remote : AppleTVHomeKitRemote ε T
  /-- `_started` -/
  started : Bool
  /-- `hds.server is not None` -/
  listening : Bool
  /-- Every call of `start`. -/
  starts : List StartPc
  /-- Every call of `stop`. -/
  stops : List StopPc
  /-- The sessions whose watcher was cancelled before it was done. -/
  cancelledWatchers : List Nat

/-- The watcher of the session is not done. -/
def AppleTVHomeKitRemote.watches {ε T : Type} (r : AppleTVHomeKitRemote ε T) (sid : Nat) : Bool :=
  (r.sessions[sid]?.map Utterance.watched).getD false

namespace Lifecycle

section

variable {ε T : Type} (l : Lifecycle ε T)

/-- Move a call of `start`. -/
def gotoStart (t : Nat) (pc : StartPc) : Lifecycle ε T := { l with starts := l.starts.set t pc }

/-- Move a call of `stop`. -/
def gotoStop (t : Nat) (pc : StopPc) : Lifecycle ε T := { l with stops := l.stops.set t pc }

/-! ## `HDSServer.stop` -/

/-- The end of `HDSServer.stop`. -/
def clearServer : Lifecycle ε T := { l with remote := { l.remote with serverConnections := [] } }

/-- `HDSServer.stop` behind `server.wait_closed()`. -/
def drainServer (connections : List Nat) : Option ServerPhase × Lifecycle ε T :=
  if connections.isEmpty then (none, l.clearServer) else (some .draining, l)

/-- `HDSServer.stop` -/
def stopServer : Option ServerPhase × Lifecycle ε T :=
  let connections := l.remote.serverConnections
  let l := { l with remote := l.remote.closeAll }
  if l.listening then (some (.closing connections), l) else l.drainServer connections

/-- What `HDSServer.stop` awaits is over. -/
def resumeServer : ServerPhase → Option ServerPhase × Lifecycle ε T
  | .closing connections => drainServer { l with listening := false } connections
  | .draining => (none, l.clearServer)

/-! ## `start` -/

/-- `start` from `hds.start()` on, behind its checks. -/
def enterStart (t : Nat) : Lifecycle ε T :=
  if l.started then l.gotoStart t .returned
  else
    let l := { l with remote := { l.remote with
      accessory := l.remote.accessory.or (some ⟨0, 0⟩) } }
    if l.listening then l.gotoStart t .startingDriver else l.gotoStart t .startingServer

/-- The `except` block of `start`, in or behind `hds.stop()`. -/
def undo (t : Nat) (e : PyErr) : Option ServerPhase × Lifecycle ε T → Lifecycle ε T
  | (some phase, l) => l.gotoStart t (.undoing phase e)
  | (none, l) => l.gotoStart t (.raised e)

/-- What `start` awaits is over. -/
def resumeStart (t : Nat) : StartPc → Option (Lifecycle ε T)
  | .startingServer => some (gotoStart { l with listening := true } t .startingDriver)
  | .startingDriver => some (gotoStart { l with started := true } t .returned)
  | .undoing phase e => some (undo t e (l.resumeServer phase))
  | _ => none

/-- `start` raises in its checks, or what it awaits raises. -/
def failStart (t : Nat) (e : PyErr) : StartPc → Option (Lifecycle ε T)
  | .called => if l.started then none else some (l.gotoStart t (.raised e))
  | .startingServer => some (l.gotoStart t (.raised e))
  | .startingDriver => some (undo t e l.stopServer)
  | .undoing _ _ => some (l.gotoStart t (.raised e))
  | _ => none

/-! ## `stop` -/

/-- `stop` behind the wait for the watcher. -/
def clear (t : Nat) : Lifecycle ε T :=
  gotoStop { l with remote := { l.remote with
    siriWatchTask := none
    activeSiriSession := none
    siriSessions := .empty
    hdsConnections := .empty
    activeClient := none } } t .returned

/-- `stop` behind `driver.async_stop()`. -/
def driverStopped (t : Nat) : Lifecycle ε T :=
  let l := { l with started := false }
  match l.remote.siriWatchTask with
  | some sid => if l.remote.watches sid then l.gotoStop t (.watching sid) else l.clear t
  | none => l.clear t

/-- `stop` in or behind `hds.stop()`. -/
def serverStopped (t : Nat) : Option ServerPhase × Lifecycle ε T → Lifecycle ε T
  | (some phase, l) => l.gotoStop t (.stoppingServer phase)
  | (none, l) =>
      if l.remote.accessory.isSome && l.started then l.gotoStop t .stoppingDriver
      else l.driverStopped t

/-- The task of a session has ended. -/
def taskDone (sid task : Nat) : Bool :=
  ((l.remote.sessions[sid]?.bind fun u ↦ u.session.pc? task).map Pc.done).getD true

/-- `stop` behind `session.cancel()`, whose exceptions it drops. -/
def cancelled (t sid task : Nat) : Lifecycle ε T :=
  if l.taskDone sid task then serverStopped t l.stopServer else l.gotoStop t (.cancelling sid task)

/-- `session.cancel()` is called and runs its first step. -/
def beginCancel (opus : OpusEncoder ε) (sid : Nat) (u : Utterance ε) : Lifecycle ε T :=
  let call := Call.cancel .cancelled
  let connectionClosed := l.remote.isClosed u.connection
  { l with remote := l.remote.onSession sid fun s ↦
      (s.spawn call).begin opus connectionClosed u.session.tasks.length call }

/-- `stop` -/
def enterStop (opus : OpusEncoder ε) (t : Nat) : Lifecycle ε T :=
  if !l.started && !l.listening then l.gotoStop t .returned
  else match l.remote.activeSiriSession.bind fun sid ↦
      l.remote.sessions[sid]?.map fun u ↦ (sid, u) with
    | some (sid, u) =>
        if u.session.closed then serverStopped t l.stopServer
        else (l.beginCancel opus sid u).cancelled t sid u.session.tasks.length
    | none => serverStopped t l.stopServer

/-- What `stop` awaits is over. -/
def resumeStop (t : Nat) : StopPc → Option (Lifecycle ε T)
  | .cancelling sid task =>
      if l.taskDone sid task then some (serverStopped t l.stopServer) else none
  | .stoppingServer phase => some (serverStopped t (l.resumeServer phase))
  | .stoppingDriver => some (l.driverStopped t)
  | .watching sid => if l.remote.watches sid then none else some (l.clear t)
  | _ => none

/-- What `stop` awaits raises.  It goes on where the wait for the watcher times out or is
cancelled, and cancels the watcher. -/
def failStop (t : Nat) (e : PyErr) : StopPc → Option (Lifecycle ε T)
  | .stoppingServer _ => some (l.gotoStop t (.raised e))
  | .stoppingDriver => some (gotoStop { l with started := false } t (.raised e))
  | .watching sid =>
      if e.isTimeoutError || e = .cancelledError then
        some (clear { l with cancelledWatchers :=
          if l.remote.watches sid then sid :: l.cancelledWatchers else l.cancelledWatchers } t)
      else none
  | _ => none

end

/-! ## Steps -/

/-- What the event loop and the environment do. -/
inductive Label where
  /-- `start` is called. -/
  | start
  /-- `stop` is called. -/
  | stop
  /-- A call runs up to its first `await`. -/
  | enterStart (t : Nat)
  | enterStop (t : Nat)
  /-- What a call awaits is over. -/
  | resumeStart (t : Nat)
  | resumeStop (t : Nat)
  /-- What a call awaits raises, or the call is cancelled there. -/
  | failStart (t : Nat) (e : PyErr)
  | failStop (t : Nat) (e : PyErr)
  /-- A step of the controller next to these calls. -/
  | remote (a : AppleTVHomeKitRemote.Label)
  /-- A watcher that was cancelled runs. -/
  | watchCancelled (sid : Nat)
deriving Repr

section

variable {ε : Type} (json : JsonText) (opus : OpusEncoder ε)

/-- One step. -/
def step (l : Lifecycle ε json.Text) : Label → Option (Lifecycle ε json.Text)
  | .start => some { l with starts := l.starts ++ [.called] }
  | .stop => some { l with stops := l.stops ++ [.called] }
  | .enterStart t => if l.starts[t]? = some .called then some (l.enterStart t) else none
  | .enterStop t => if l.stops[t]? = some .called then some (l.enterStop opus t) else none
  | .resumeStart t => l.starts[t]?.bind (l.resumeStart t)
  | .resumeStop t => l.stops[t]?.bind (l.resumeStop t)
  | .failStart t e => l.starts[t]?.bind (l.failStart t e)
  | .failStop t e => l.stops[t]?.bind (l.failStop t e)
  | .remote a => match a with
      | .start => none
      | a => (l.remote.step json opus a).map fun remote ↦ { l with remote }
  | .watchCancelled sid => match l.remote.sessions[sid]? with
      | some u =>
          if u.watched && l.cancelledWatchers.contains sid then
            some { l with remote := l.remote.siriSessionEnded json sid u }
          else none
      | none => none

/-- `AppleTVHomeKitRemote(...)` on what is in its state directory. -/
def new (file : Option json.Text) : Lifecycle ε json.Text where
  remote := .new json file
  started := false
  listening := false
  starts := []
  stops := []
  cancelledWatchers := []

/-- A watcher that has something to do runs. -/
def runWatcher (l : Lifecycle ε json.Text) (sid : Nat) : Lifecycle ε json.Text :=
  match l.remote.sessions[sid]? with
  | some u =>
      if u.watched && (u.session.closed || l.cancelledWatchers.contains sid) then
        { l with remote := l.remote.siriSessionEnded json sid u }
      else l
  | none => l

/-- The remaining watchers run. -/
def runWatchers (l : Lifecycle ε json.Text) : Lifecycle ε json.Text :=
  (List.range l.remote.sessions.length).foldl (runWatcher json) l

end

end Lifecycle

/-- A controller from its construction on, with its calls of `start` and `stop`. -/
def lifecycles {ε : Type} (json : JsonText) (opus : OpusEncoder ε) (file : Option json.Text) :
    System (Lifecycle ε json.Text) Lifecycle.Label where
  init l := l = .new json file
  step l a := l.step json opus a

end AtvRemote.Remote
