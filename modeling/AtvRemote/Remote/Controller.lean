import AtvRemote.Audio.Session
import AtvRemote.Hds.Server
import AtvRemote.Lib.System
import AtvRemote.Remote.Store

/-!
# The controller

`AppleTVHomeKitRemote` and the parts of `HDSServer` and `HDSConnection` that call back into
it.  Objects that are compared by identity (connections, Siri sessions) are places in the
lists of all of them.  A method that may raise returns what it raises beside the state, since
what it changed before stays changed.

`close()` of a connection runs the callbacks of the server and of the controller before it
returns, as in the source, so that a target that is removed, replaced or rejected finds its
registration and its Siri session cleaned up behind it.
-/

namespace AtvRemote.Remote

open Lib Audio

/-- What the controller and the server see of an `HDSConnection`. -/
structure Connection where
  /-- `prepared.client_addr` -/
  clientAddr : ClientAddr
  /-- `target_identifier` -/
  targetIdentifier : Option Int
  /-- `closed` -/
  closed : Bool
deriving DecidableEq, Repr

/-- A `SiriSession` that `start_siri` made, and its watcher. -/
structure Utterance (ε : Type) where
  session : Session ε
  /-- `connection`, as a place in the list of connections. -/
  connection : Nat
  /-- `target_identifier` -/
  targetIdentifier : Int
  /-- `_watch_siri_session` is not done. -/
  watched : Bool

/-- Where a call of `start_siri` is. -/
inductive SiriPc where
  | start
  /-- In `_siri_lock.acquire()`. -/
  | waiting
  /-- The lock is acquired. -/
  | acquired
  | returned (session : Nat)
  | raised (e : PyErr)
deriving DecidableEq, Repr

/-- A call of `start_siri`. -/
structure SiriCall where
  /-- `target` -/
  target : Option Int
  /-- `wait_timeout > 0` -/
  waitTimeoutPositive : Bool
  pc : SiriPc
deriving DecidableEq, Repr

/-- The values of the characteristics that the controller sets. -/
structure Accessory where
  /-- `active_identifier_char` -/
  activeIdentifierChar : Int
  /-- `active_char` -/
  activeChar : Int
deriving DecidableEq, Repr

/-- A file operation of `_save_targets` that raises: one up to `os.replace`, or the last
`chmod`. -/
inductive SaveFault where
  | replace | chmod
deriving DecidableEq, Repr

/-- `AppleTVHomeKitRemote` -/
structure AppleTVHomeKitRemote (ε T : Type) where
  /-- `targets` -/
  targets : Dict Int TargetConfiguration
  /-- `active_identifier` -/
  activeIdentifier : Int
  /-- `active_client` -/
  activeClient : Option ClientAddr
  /-- `_siri_advertised` -/
  siriAdvertised : Bool
  /-- `hds_connections` -/
  hdsConnections : Dict Int Nat
  /-- `siri_sessions` -/
  siriSessions : Dict Int Nat
  /-- `_active_siri_session` -/
  activeSiriSession : Option Nat
  /-- `_siri_watch_task`, as the session that it watches. -/
  siriWatchTask : Option Nat
  /-- `_siri_lock.locked()` -/
  siriLocked : Bool
  /-- `accessory`, with its driver, once `start` was called. -/
  accessory : Option Accessory
  /-- Every connection that the server accepted. -/
  connections : List Connection
  /-- `hds.connections` -/
  serverConnections : List Nat
  /-- Every Siri session. -/
  sessions : List (Utterance ε)
  /-- Every call of `start_siri`. -/
  siriCalls : List SiriCall
  /-- `targets.json` -/
  targetsFile : Option T
  /-- How the next calls of `_save_targets` end; without an entry they succeed. -/
  saveFaults : List (Option SaveFault)

/-- Go on where a call returned; an exception passes, and what was changed stays. -/
def thenDo {σ α β : Type} (x : Except PyErr α × σ) (f : α → σ → Except PyErr β × σ) :
    Except PyErr β × σ :=
  match x with
  | (.ok a, s) => f a s
  | (.error e, s) => (.error e, s)

namespace AppleTVHomeKitRemote

section

variable {ε T : Type} (r : AppleTVHomeKitRemote ε T)

/-! ## Connections -/

/-- `closed` of a connection. -/
def isClosed (c : Nat) : Bool := (r.connections[c]?.map Connection.closed).getD true

/-- Run something on a Siri session. -/
def onSession (sid : Nat) (f : Session ε → Session ε) : AppleTVHomeKitRemote ε T :=
  { r with sessions := r.sessions.modify sid fun u ↦ { u with session := f u.session } }

/-- `session.handle_close(UNEXPECTED_FAILURE)` for a session that is not closed and uses the
connection. -/
def failSession (c sid : Nat) : AppleTVHomeKitRemote ε T :=
  match r.sessions[sid]? with
  | some u =>
      if u.connection = c && !u.session.closed then
        r.onSession sid (·.handleClose HDSCloseReason.unexpectedFailure.toInt)
      else r
  | none => r

/-- One round of the last loop of `_hds_connection_closed`. -/
def dropSiriSession (c : Nat) (streamId : Int) (sid : Nat) : AppleTVHomeKitRemote ε T :=
  if (r.sessions[sid]?.map Utterance.connection) = some c then
    let r := r.failSession c sid
    { r with siriSessions := r.siriSessions.erase streamId }
  else r

/-- `_hds_connection_closed` on the registration of the connection. -/
def dropRegistration (c : Nat) : AppleTVHomeKitRemote ε T :=
  match r.connections[c]?.bind Connection.targetIdentifier with
  | some identifier =>
      if r.hdsConnections.get identifier = some c then
        { r with hdsConnections := r.hdsConnections.erase identifier }
      else r
  | none => r

/-- `_hds_connection_closed` on the active session. -/
def failActiveSession (c : Nat) : AppleTVHomeKitRemote ε T :=
  match r.activeSiriSession with
  | some sid => r.failSession c sid
  | none => r

/-- `_hds_connection_closed` -/
def hdsConnectionClosed (c : Nat) : AppleTVHomeKitRemote ε T :=
  let r := (r.dropRegistration c).failActiveSession c
  r.siriSessions.items.foldl (fun r p ↦ r.dropSiriSession c p.1 p.2) r

/-- `HDSConnection.close`, with `HDSServer._connection_closed`. -/
def closeConnection (c : Nat) : AppleTVHomeKitRemote ε T :=
  if r.isClosed c then r
  else
    hdsConnectionClosed { r with
      connections := r.connections.modify c fun conn ↦ { conn with closed := true }
      serverConnections := r.serverConnections.filter (· ≠ c) } c

/-- `HDSServer.close_all` -/
def closeAll : AppleTVHomeKitRemote ε T :=
  r.serverConnections.foldl closeConnection r

/-- `HDSServer.close_for_client` -/
def closeForClient (client : ClientAddr) : AppleTVHomeKitRemote ε T :=
  (r.serverConnections.filter fun c ↦
    (r.connections[c]?.map Connection.clientAddr) = some client).foldl closeConnection r

/-! ## Targets -/

/-- `_schedule_session_cancel` -/
def scheduleSessionCancel (session : Option Nat) : AppleTVHomeKitRemote ε T :=
  match session with
  | none => r
  | some sid =>
      if (r.sessions[sid]?.map fun u ↦ u.session.closed) = some false then
        r.onSession sid (·.spawn (.cancel .cancelled))
      else r

/-- Target Control is deactivated: no client is active, and the active session is cancelled. -/
def deactivate : AppleTVHomeKitRemote ε T :=
  scheduleSessionCancel { r with activeClient := none } r.activeSiriSession

/-- `REMOVE` deletes a target, its registration and its connection. -/
def deleteTarget (identifier : Int) : AppleTVHomeKitRemote ε T :=
  let connection := r.hdsConnections.get identifier
  let r := { r with
    targets := r.targets.erase identifier
    hdsConnections := r.hdsConnections.erase identifier }
  match connection with
  | some c => r.closeConnection c
  | none => r

/-- Set both characteristics, if there is an accessory. -/
def setChars (activeIdentifier active : Int) : AppleTVHomeKitRemote ε T :=
  { r with accessory := r.accessory.map fun _ ↦ ⟨activeIdentifier, active⟩ }

end

section

variable {ε : Type} (json : JsonText) (opus : OpusEncoder ε)
variable (r : AppleTVHomeKitRemote ε json.Text)

/-- `_save_targets` -/
def saveTargets : Except PyErr Unit × AppleTVHomeKitRemote ε json.Text :=
  let written := some (targetsText json r.targets r.activeIdentifier)
  match r.saveFaults with
  | [] => (.ok (), { r with targetsFile := written })
  | none :: faults => (.ok (), { r with targetsFile := written, saveFaults := faults })
  | some .replace :: faults => (.error .osError, { r with saveFaults := faults })
  | some .chmod :: faults =>
      (.error .osError, { r with targetsFile := written, saveFaults := faults })

/-- `set_active_identifier` -/
def setActiveIdentifier (targetIdentifier : Int) :
    Except PyErr Unit × AppleTVHomeKitRemote ε json.Text :=
  if ¬(0 ≤ targetIdentifier ∧ targetIdentifier ≤ 0xFFFFFFFF) then
    (.error (.valueError "target identifier must fit uint32"), r)
  else if targetIdentifier ≠ 0 ∧ r.targets.contains targetIdentifier = false then
    (.error (.valueError s!"unknown target identifier {targetIdentifier}"), r)
  else if targetIdentifier = r.activeIdentifier then (.ok (), r)
  else
    let oldIdentifier := r.activeIdentifier
    let r := { r with activeIdentifier := targetIdentifier, activeClient := none }
    thenDo ((r.setChars targetIdentifier 0).saveTargets json) fun _ r ↦
      match r.activeSiriSession with
      | some sid =>
          if (r.sessions[sid]?.map Utterance.targetIdentifier) = some oldIdentifier then
            (.ok (), r.scheduleSessionCancel (some sid))
          else (.ok (), r)
      | none => (.ok (), r)

/-- What `hap_target_list_write` reads of its argument. -/
def parseTargetWrite (value : PyStr) :
    Except PyErr (TargetOperation × Option TargetConfiguration) := do
  let data ← Tlv8.decode (← decodeB64 value "TargetControlList")
  match ← required data tcListOperation "TargetControlList operation" with
  | [raw] => match TargetOperation.ofNat? raw.toNat with
      | some operation => do
          let config ← parseTarget (data.get tcListTargetConfiguration)
          return (operation, config)
      | none => throw (.valueError s!"unsupported target operation {raw.toNat}")
  | _ => throw (.valueError "TargetControlList operation must be one byte")

/-- The `ADD` of `hap_target_list_write`. -/
def addTarget : Option TargetConfiguration →
    Except PyErr Unit × AppleTVHomeKitRemote ε json.Text
  | none => (.error (.valueError "ADD requires target configuration"), r)
  | some config =>
      let identifier := config.targetIdentifier
      if r.targets.contains identifier = false ∧ maxTargets ≤ r.targets.size then
        (.error (.valueError s!"maximum of {maxTargets} Apple TV targets reached"), r)
      else
        let r := { r with targets := r.targets.set identifier config }
        if r.activeIdentifier = 0 then
          (.ok (), { r with
            activeIdentifier := identifier
            accessory := r.accessory.map fun a ↦ { a with activeIdentifierChar := identifier } })
        else (.ok (), r)

/-- What `UPDATE` makes of a target. -/
def updated (current config : TargetConfiguration) : TargetConfiguration where
  targetIdentifier := current.targetIdentifier
  targetName := match config.targetName with
    | .none => current.targetName
    | name => name
  targetCategory := config.targetCategory.or current.targetCategory
  buttons := current.buttons.update config.buttons.items

/-- The `UPDATE` of `hap_target_list_write`. -/
def updateTarget (config : Option TargetConfiguration) :
    Except PyErr Unit × AppleTVHomeKitRemote ε json.Text :=
  match config, config.bind fun c ↦ r.targets.get c.targetIdentifier with
  | some config, some current =>
      (.ok (), { r with
        targets := r.targets.set config.targetIdentifier (updated current config) })
  | _, _ => (.error (.valueError "UPDATE references unknown target"), r)

/-- The `REMOVE` of `hap_target_list_write`. -/
def removeTarget (config : Option TargetConfiguration) :
    Except PyErr Unit × AppleTVHomeKitRemote ε json.Text :=
  match config, config.bind fun c ↦ r.targets.get c.targetIdentifier with
  | some config, some current =>
      let identifier := config.targetIdentifier
      if config.buttons.items.isEmpty then
        let r := r.deleteTarget identifier
        if r.activeIdentifier = identifier then
          r.setActiveIdentifier json (firstIdentifier r.targets)
        else (.ok (), r)
      else
        let buttons := config.buttons.keys.foldl Dict.erase current.buttons
        (.ok (), { r with targets := r.targets.set identifier { current with buttons } })
  | _, _ => (.error (.valueError "REMOVE references unknown target"), r)

/-- The `RESET` of `hap_target_list_write`. -/
def resetTargets : Option TargetConfiguration →
    Except PyErr Unit × AppleTVHomeKitRemote ε json.Text
  | some _ => (.error (.valueError "RESET must not include target configuration"), r)
  | none =>
      let r := closeAll { r with targets := .empty }
      let r := { r with hdsConnections := .empty, activeIdentifier := 0, activeClient := none }
      let r := r.setChars 0 0
      (.ok (), r.scheduleSessionCancel r.activeSiriSession)

/-- The operations of `hap_target_list_write`. -/
def targetOperation (operation : TargetOperation) (config : Option TargetConfiguration) :
    Except PyErr Unit × AppleTVHomeKitRemote ε json.Text :=
  match operation with
  | .add => r.addTarget json config
  | .update => r.updateTarget json config
  | .remove => r.removeTarget json config
  | .reset => r.resetTargets json config
  | .list =>
      if config.isSome then
        (.error (.valueError "LIST must not include target configuration"), r)
      else (.ok (), r)
  | .undefined => (.error (.valueError "unsupported target operation 0"), r)

/-- `hap_target_list_write`; `admin` is what the driver answers for the client. -/
def hapTargetListWrite (value : PyStr) (client : Option ClientAddr) (admin : Bool) :
    Except PyErr PyStr × AppleTVHomeKitRemote ε json.Text :=
  if r.accessory.isNone then
    (.error (.runtimeError "remote is not started; call await remote.start() first"), r)
  else if client.isNone || !admin then
    (.error (.permissionError
      "TargetControlList writes require an authenticated HomeKit administrator"), r)
  else match parseTargetWrite value with
    | .error e => (.error e, r)
    | .ok (operation, config) =>
        thenDo (r.targetOperation json operation config) fun _ r ↦
          thenDo (r.saveTargets json) fun _ r ↦ (targetListValue r.targets, r)

/-- `hap_active_identifier_write` -/
def hapActiveIdentifierWrite (value : Obj) (client : Option ClientAddr) :
    Except PyErr Unit × AppleTVHomeKitRemote ε json.Text :=
  if client.isNone then
    (.error (.valueError "ActiveIdentifier write is missing HAP connection context"), r)
  else match value.toInt with
    | .error e => (.error e, r)
    | .ok identifier => r.setActiveIdentifier json identifier

/-- `hap_active_write` -/
def hapActiveWrite (value : Obj) (client : Option ClientAddr) :
    Except PyErr Unit × AppleTVHomeKitRemote ε json.Text :=
  if r.activeIdentifier = 0 then (.error (.valueError "no target selected"), r)
  else match client with
    | none => (.error (.valueError "Active write is missing HAP connection context"), r)
    | some client =>
        if value.truthy then (.ok (), { r with activeClient := some client })
        else if r.activeClient.isSome ∧ r.activeClient ≠ some client then
          (.error (.permissionError
            "only the active HomeKit session can deactivate Target Control"), r)
        else
          (.ok (), r.deactivate)

/-- `_hap_connection_lost` -/
def hapConnectionLost (client : ClientAddr) : AppleTVHomeKitRemote ε json.Text :=
  let r := r.closeForClient client
  if r.activeClient = some client then
    let r := r.deactivate
    { r with accessory := r.accessory.map fun a ↦ { a with activeChar := 0 } }
  else r

/-! ## Data stream messages -/

/-- `_hds_whoami` closes the connection that it replaces. -/
def closeReplaced (identifier : Int) (c : Nat) : AppleTVHomeKitRemote ε json.Text :=
  match r.hdsConnections.get identifier with
  | some old => if old ≠ c then r.closeConnection old else r
  | none => r

/-- `_hds_whoami` -/
def hdsWhoami (identifier : Int) (c : Nat) : AppleTVHomeKitRemote ε json.Text :=
  if identifier ≤ 0 ∨ r.targets.contains identifier = false then r.closeConnection c
  else
    let r := r.closeReplaced json identifier c
    { r with hdsConnections := r.hdsConnections.set identifier c }

/-- `_hds_event` on a message of the protocol and topic that it looks at. -/
def hdsDataSend (c : Nat) (ack : Bool) (message : List (Obj × Obj)) :
    Except PyErr Unit × AppleTVHomeKitRemote ε json.Text :=
  match (Obj.lookup message (.text "streamId")).map Obj.toInt with
  | some (.ok streamId) => match r.siriSessions.get streamId with
      | some sid => match r.sessions[sid]? with
          | some u =>
              if u.connection ≠ c then (.ok (), r)
              else if ack then
                let call := Call.handleAck (getD message "endOfStream" (.bool false)).truthy
                (.ok (), r.onSession sid fun s ↦
                  (s.spawn call).begin opus (r.isClosed c) s.tasks.length call)
              else match (getD message "reason"
                  (.int HDSCloseReason.unexpectedFailure.toInt)).toInt with
                | .ok reason => (.ok (), r.onSession sid (·.handleClose reason))
                | .error e => (.error e, r)
          | none => (.ok (), r)
      | none => (.ok (), r)
  | some (.error e) =>
      -- `except (KeyError, TypeError, ValueError)`
      match e with
      | .overflowError _ => (.error e, r)
      | _ => (.ok (), r)
  | none => (.ok (), r)

/-- `_hds_event` -/
def hdsEvent (c : Nat) (protocol topic : PyStr) (message : List (Obj × Obj)) :
    Except PyErr Unit × AppleTVHomeKitRemote ε json.Text :=
  if protocol ≠ PyStr.ofString hdsProtocolDataSend then (.ok (), r)
  else if topic = PyStr.ofString hdsTopicAck then r.hdsDataSend json opus c true message
  else if topic = PyStr.ofString hdsTopicClose then r.hdsDataSend json opus c false message
  else (.ok (), r)

/-- `HDSServer._handle_message` -/
def handleMessage (c : Nat) (protocol topic : PyStr) (message : List (Obj × Obj)) :
    Except PyErr Unit × AppleTVHomeKitRemote ε json.Text :=
  if protocol = PyStr.ofString hdsProtocolTargetControl ∧ topic = PyStr.ofString hdsTopicWhoami then
    match (Obj.lookup message (.text "identifier")).map Obj.toInt with
    | none => (.error (.valueError "targetControl/whoami missing identifier"), r)
    | some (.error e) => (.error e, r)
    | some (.ok identifier) =>
        let connections := r.connections.modify c fun conn ↦
          { conn with targetIdentifier := some identifier }
        (.ok (), hdsWhoami json { r with connections } identifier c)
  else r.hdsEvent json opus c protocol topic message

/-- A message is dispatched by `_run`; an exception ends the connection. -/
def dispatch (c : Nat) (protocol topic : PyStr) (message : List (Obj × Obj)) :
    AppleTVHomeKitRemote ε json.Text :=
  match r.handleMessage json opus c protocol topic message with
  | (.ok _, r) => r
  | (.error _, r) => r.closeConnection c

/-! ## Siri sessions -/

/-- `_siri_session_opened` -/
def siriSessionOpened (sid : Nat) (streamId : Int) :
    Option PyErr × AppleTVHomeKitRemote ε json.Text :=
  if r.siriSessions.get streamId = none ∨ r.siriSessions.get streamId = some sid then
    (none, { r with siriSessions := r.siriSessions.set streamId sid })
  else (some (.runtimeError s!"Apple TV reused active Siri streamId {streamId}"), r)

/-- A step of a session. -/
def stepSession (sid : Nat) (a : Session.Label) : Option (AppleTVHomeKitRemote ε json.Text) :=
  r.sessions[sid]?.bind fun u ↦
    (u.session.step opus (r.isClosed u.connection) a).map fun s ↦ r.onSession sid fun _ ↦ s

/-- `_open` calls `_siri_session_opened` on a stream that it opens. -/
def registerStream (sid : Nat) (status : Int) (message : List (Obj × Obj)) :
    Option PyErr × AppleTVHomeKitRemote ε json.Text :=
  match Session.openedStream status message with
  | (some streamId, none) => r.siriSessionOpened json sid streamId
  | _ => (none, r)

/-- The response to the open request of a session. -/
def siriResponse (sid t : Nat) (status : Int) (message : List (Obj × Obj)) :
    Option (AppleTVHomeKitRemote ε json.Text) :=
  (r.registerStream json sid status message).2.stepSession json opus sid
    (.response t status message (r.registerStream json sid status message).1)

/-- The `finally` block of `_watch_siri_session`. -/
def siriSessionEnded (sid : Nat) (u : Utterance ε) : AppleTVHomeKitRemote ε json.Text :=
  { r with
    siriSessions := match u.session.streamId with
      | some streamId =>
          if r.siriSessions.get streamId = some sid then r.siriSessions.erase streamId
          else r.siriSessions
      | none => r.siriSessions
    activeSiriSession := if r.activeSiriSession = some sid then none else r.activeSiriSession
    siriLocked := if r.activeSiriSession = some sid then false else r.siriLocked
    siriWatchTask := if r.siriWatchTask = some sid then none else r.siriWatchTask
    sessions := r.sessions.modify sid fun u ↦ { u with watched := false } }

/-- `start_siri` from its checks on; `created` is what `SiriSession(...)` raises. -/
def createSiri (created : Option PyErr) : Except PyErr Nat × AppleTVHomeKitRemote ε json.Text :=
  let identifier := r.activeIdentifier
  if identifier = 0 then (.error (.runtimeError "no Apple TV target is selected"), r)
  else if r.activeClient.isNone then
    (.error (.runtimeError "selected Apple TV has not marked the Target Control service active"), r)
  else match r.hdsConnections.get identifier with
    | none => (.error
        (.runtimeError "selected Apple TV has no active HomeKit Data Stream connection"), r)
    | some c =>
        if r.isClosed c then (.error
          (.runtimeError "selected Apple TV has no active HomeKit Data Stream connection"), r)
        else if r.siriAdvertised = false then
          (.error (.runtimeError "Siri capability is temporarily disabled"), r)
        else match created with
          | some e => (.error e, r)
          | none =>
              let sid := r.sessions.length
              let u := ⟨(Session.new opus.init).start, c, identifier, true⟩
              (.ok sid, { r with
                sessions := r.sessions ++ [u]
                activeSiriSession := some sid
                siriWatchTask := some sid })

/-- `start_siri` selects its target. -/
def selectSiri (target : Option Int) : Except PyErr Unit × AppleTVHomeKitRemote ε json.Text :=
  match target with
  | some identifier =>
      if identifier ≠ r.activeIdentifier then r.setActiveIdentifier json identifier
      else (.ok (), r)
  | none => (.ok (), r)

/-- `start_siri` behind the lock.  On an exception no session was made, so that its `except`
block leaves `_active_siri_session` alone. -/
def startSiriLocked (target : Option Int) (created : Option PyErr) :
    Except PyErr Nat × AppleTVHomeKitRemote ε json.Text :=
  match thenDo (r.selectSiri json target) fun _ r ↦ r.createSiri json opus created with
  | (.ok sid, r) => (.ok sid, r)
  | (.error e, r) => (.error e, { r with siriLocked := false })

/-- Move a call of `start_siri`. -/
def gotoSiri (t : Nat) (pc : SiriPc) : AppleTVHomeKitRemote ε json.Text :=
  { r with siriCalls := r.siriCalls.modify t fun k ↦ { k with pc } }

/-! ## Steps -/

/-- What the event loop and the environment do to the controller. -/
inductive Label where
  /-- `start()` -/
  | start
  /-- The next calls of `_save_targets` end so. -/
  | saveFaults (faults : List (Option SaveFault))
  /-- The server accepts a connection prepared for a client. -/
  | accept (client : ClientAddr)
  /-- A connection is closed. -/
  | close (c : Nat)
  /-- A connection dispatches a message; it may have been closed since it was received. -/
  | message (c : Nat) (protocol topic : PyStr) (content : List (Obj × Obj))
  | targetListWrite (value : PyStr) (client : Option ClientAddr) (admin : Bool)
  | setActiveIdentifier (identifier : Int)
  | activeIdentifierWrite (value : Obj) (client : Option ClientAddr)
  | activeWrite (value : Obj) (client : Option ClientAddr)
  | hapConnectionLost (client : ClientAddr)
  /-- `start_siri` is called. -/
  | startSiri (target : Option Int) (waitTimeoutPositive : Bool)
  /-- A call of `start_siri` runs up to the acquisition of the lock. -/
  | enterSiri (t : Nat)
  /-- A call that waits for the lock acquires it. -/
  | acquireSiri (t : Nat)
  /-- A call that waits for the lock times out, or is cancelled. -/
  | giveUpSiri (t : Nat) (e : PyErr)
  /-- A call that has acquired the lock goes on. -/
  | runSiri (t : Nat) (created : Option PyErr)
  /-- A step of a session. -/
  | session (sid : Nat) (a : Session.Label)
  /-- The response to the open request of a session. -/
  | response (sid t : Nat) (status : Int) (message : List (Obj × Obj))
  /-- The watcher of a session that is closed runs. -/
  | watch (sid : Nat)
deriving Repr

/-- A connection dispatches `targetControl/whoami`. -/
def Label.whoami (c : Nat) (identifier : Int) : Label :=
  .message c (.ofString hdsProtocolTargetControl) (.ofString hdsTopicWhoami)
    [(.text "identifier", .int identifier)]

/-- One step of a call of `start_siri`. -/
def stepSiri (t : Nat) : Option (AppleTVHomeKitRemote ε json.Text) :=
  match r.siriCalls[t]? with
  | some ⟨_, positive, .start⟩ =>
      if positive = false then
        some (r.gotoSiri json t (.raised (.valueError "wait_timeout must be > 0")))
      else if r.siriLocked || r.siriCalls.any (·.pc = .waiting) then
        some (r.gotoSiri json t .waiting)
      else some (gotoSiri json { r with siriLocked := true } t .acquired)
  | _ => none

/-- One step. -/
def step (r : AppleTVHomeKitRemote ε json.Text) :
    Label → Option (AppleTVHomeKitRemote ε json.Text)
  | .start => some { r with accessory := r.accessory.or (some ⟨0, 0⟩) }
  | .saveFaults faults => some { r with saveFaults := faults }
  | .accept client => some { r with
      connections := r.connections ++ [⟨client, none, false⟩]
      serverConnections := r.serverConnections ++ [r.connections.length] }
  | .close c => some (r.closeConnection c)
  | .message c protocol topic content =>
      if c < r.connections.length then some (r.dispatch json opus c protocol topic content)
      else none
  | .targetListWrite value client admin => some (r.hapTargetListWrite json value client admin).2
  | .setActiveIdentifier identifier => some (r.setActiveIdentifier json identifier).2
  | .activeIdentifierWrite value client => some (r.hapActiveIdentifierWrite json value client).2
  | .activeWrite value client => some (r.hapActiveWrite json value client).2
  | .hapConnectionLost client => some (r.hapConnectionLost json client)
  | .startSiri target positive =>
      some { r with siriCalls := r.siriCalls ++ [⟨target, positive, .start⟩] }
  | .enterSiri t => r.stepSiri json t
  | .acquireSiri t =>
      if (r.siriCalls[t]?.map SiriCall.pc) = some .waiting ∧ r.siriLocked = false then
        some (gotoSiri json { r with siriLocked := true } t .acquired)
      else none
  | .giveUpSiri t e =>
      if (r.siriCalls[t]?.map SiriCall.pc) = some .waiting then
        some (r.gotoSiri json t (.raised e))
      else none
  | .runSiri t created => match r.siriCalls[t]? with
      | some ⟨target, _, .acquired⟩ => match r.startSiriLocked json opus target created with
          | (.ok sid, r) => some (r.gotoSiri json t (.returned sid))
          | (.error e, r) => some (r.gotoSiri json t (.raised e))
      | _ => none
  | .session sid a => match a with
      | .response _ _ _ _ => none
      | a => r.stepSession json opus sid a
  | .response sid t status message => r.siriResponse json opus sid t status message
  | .watch sid => match r.sessions[sid]? with
      | some u =>
          if u.watched && u.session.closed then some (r.siriSessionEnded json sid u) else none
      | none => none

end

/-- `AppleTVHomeKitRemote(...)` on what is in its state directory. -/
def new {ε : Type} (json : JsonText) (file : Option json.Text) :
    AppleTVHomeKitRemote ε json.Text where
  targets := (loadTargets json file).targets
  activeIdentifier := (loadTargets json file).activeIdentifier
  activeClient := none
  siriAdvertised := true
  hdsConnections := .empty
  siriSessions := .empty
  activeSiriSession := none
  siriWatchTask := none
  siriLocked := false
  accessory := none
  connections := []
  serverConnections := []
  sessions := []
  siriCalls := []
  targetsFile := if (loadTargets json file).quarantined then none else file
  saveFaults := []

end AppleTVHomeKitRemote

/-- A controller from its construction on. -/
def remotes {ε : Type} (json : JsonText) (opus : OpusEncoder ε) (file : Option json.Text) :
    System (AppleTVHomeKitRemote ε json.Text) AppleTVHomeKitRemote.Label where
  init r := r = .new json file
  step r a := r.step json opus a

end AtvRemote.Remote
