import AtvRemote.Hds.Revocation
import AtvRemote.Remote.Active
import AtvRemote.Remote.Siri

/-!
# The controller and its data stream server

The controller with its `HDSServer`.  A place in the list of the server's connections is the
place of the same connection in the controller's.  A step of one side is carried to the
other as the source does: an accepted connection and a message for `on_message` go from the
server to the controller, and whatever one side closes the other side sees closed
(`Network.settle`).

`hap_setup_hds_write` and `_hap_connection_lost` act on both sides.  `stop` is not part of
this system: it takes the connections off the server's list whether they are closed or not.
-/

namespace AtvRemote.Remote

open Lib Audio Hds

/-- `AppleTVHomeKitRemote` with its `HDSServer`. -/
structure Network (ε T : Type) where
  remote : AppleTVHomeKitRemote ε T
  /-- `hds` -/
  server : HDSServer
  /-- `_last_hds_setup` -/
  lastHdsSetup : PyStr

namespace Network

/-! ## Carrying over what is closed -/

section

variable {ε T : Type}

/-- The places of the connections that the controller sees closed. -/
def closedPlaces (remote : AppleTVHomeKitRemote ε T) (server : HDSServer) : List Nat :=
  (List.range server.opened.length).filter remote.isClosed

/-- The server closes what the controller has closed. -/
def closeInServer (remote : AppleTVHomeKitRemote ε T) (server : HDSServer) : HDSServer :=
  (closedPlaces remote server).foldl HDSServer.closeConnection server

/-- The callbacks of the controller run for what the server has closed. -/
def closeInRemote (server : HDSServer) (remote : AppleTVHomeKitRemote ε T) :
    AppleTVHomeKitRemote ε T :=
  ((List.range server.opened.length).filter fun i ↦
    (server.opened[i]?.map HDSConnection.closed) = some true).foldl
      AppleTVHomeKitRemote.closeConnection remote

/-- What is closed on one side is closed on the other. -/
def settle (n : Network ε T) : Network ε T :=
  { n with
    remote := closeInRemote n.server n.remote
    server := closeInServer (closeInRemote n.server n.remote) n.server }

end

/-! ## `hap_setup_hds_write` -/

/-- What `hap_setup_hds_write` reads of its argument: the controller's salt. -/
def parseSetup (value : PyStr) : Except PyErr Bytes := do
  let data ← Tlv8.decode (← decodeB64 value "SetupDataStreamTransport")
  let command ← oneByte data hdsSessionCommandType "HDS session command"
  let transport ← oneByte data hdsSessionTransportType "HDS transport type"
  if command ≠ hdsStartSession then throw (.valueError "unsupported HDS session command")
  else if transport ≠ hdsHomekitDataStream then throw (.valueError "unsupported HDS transport")
  else
    let controllerSalt ← required data hdsControllerKeySalt "controller HDS salt"
    if controllerSalt.length ≠ 32 then throw (.valueError "invalid controller HDS salt")
    else return controllerSalt

/-- What `hap_setup_hds_write` stores and what it returns, behind `prepare_session`. -/
def setupResponse (accessorySalt : Bytes) (prepared : Except PyErr Nat) (port : Option Nat) :
    Except PyErr (PyStr × PyStr) := do
  let _ ← prepared
  match port with
  | none => throw (.runtimeError "HDS server is not listening")
  | some port =>
      let sessionParams ← Tlv8.encode [(hdsTcpListeningPort, .bytes .bytes (← Tlv8.u16 port))]
      let status ← Tlv8.encode [(hdsSetupStatus, .int 0)]
      let parameters ← Tlv8.encode [(hdsSetupSessionParameters, .bytes .bytes sessionParams)]
      let salt ← Tlv8.encode [(hdsAccessoryKeySalt, .bytes .bytes accessorySalt)]
      return ((Base64.encode (status ++ parameters)).map .char,
        (Base64.encode (status ++ parameters ++ salt)).map .char)

section

variable {ε : Type} (json : JsonText) (opus : OpusEncoder ε) (C : Crypto) (reprOf : Obj → String)
variable (n : Network ε json.Text)

/-- `hap_setup_hds_write` behind `prepare_session`. -/
def finishSetup (accessorySalt : Bytes) (prepared : Except PyErr Nat × HDSServer) :
    Except PyErr PyStr × Network ε json.Text :=
  let response := setupResponse accessorySalt prepared.1 prepared.2.port
  (response.map Prod.snd, { n with
    server := prepared.2
    lastHdsSetup := match response with
      | .ok (stripped, _) => stripped
      | .error _ => n.lastHdsSetup })

/-- `hap_setup_hds_write`; `sharedSecret` is what the driver has for the client, and
`accessorySalt` what `os.urandom(32)` draws. -/
def hapSetupHdsWrite (value : PyStr) (client : Option ClientAddr) (sharedSecret : Option Bytes)
    (accessorySalt : Bytes) : Except PyErr PyStr × Network ε json.Text :=
  match client with
  | none => (.error (.valueError "HDS setup needs HAP connection context"), n)
  | some client => match parseSetup value with
    | .error e => (.error e, n)
    | .ok controllerSalt =>
        if n.remote.accessory.isNone then
          (.error (.runtimeError "remote is not started; call await remote.start() first"), n)
        else if (sharedSecret.getD []).isEmpty then
          (.error (.runtimeError "Pair Verify shared secret unavailable for HDS setup"), n)
        else
          n.finishSetup json accessorySalt (n.server.prepareSession C.hkdf client
            (sharedSecret.getD []) controllerSalt accessorySalt)

/-! ## Steps -/

/-- What the event loop and the environment do. -/
inductive Label where
  /-- A step of the controller. -/
  | remote (a : AppleTVHomeKitRemote.Label)
  /-- A step of the server. -/
  | server (a : HDSServer.Label)
  | setupHds (value : PyStr) (client : Option ClientAddr) (sharedSecret : Option Bytes)
    (accessorySalt : Bytes)
  | hapConnectionLost (client : ClientAddr)
deriving Repr

/-- The steps of the controller that its server does not bring about. -/
def ofRemote : AppleTVHomeKitRemote.Label → Bool
  | .accept _ | .close _ | .message .. | .hapConnectionLost _ => false
  | _ => true

/-- The steps of the server that the controller does not bring about, `stop` apart. -/
def ofServer : HDSServer.Label → Bool
  | .prepareSession .. | .closeForClient _ | .closeAll | .stop | .resumeStop _ => false
  | _ => true

/-- The message of which `on_message` is called. -/
def newMessage (server : HDSServer) : HDSServer.Label → Option (Nat × Message)
  | .connection i .resume => match server.opened[i]?.map HDSConnection.run with
      | some (.handling m) => some (i, m)
      | _ => none
  | _ => none

/-- What the controller sees of a step of the server. -/
def remoteLabels (server server' : HDSServer) (a : HDSServer.Label) :
    List AppleTVHomeKitRemote.Label :=
  ((server'.opened.drop server.opened.length).filterMap fun c ↦
      (server'.clientAddr? c.session).map .accept) ++
    ((newMessage server' a).map fun p ↦ .message p.1 p.2.protocol p.2.topic p.2.message).toList

/-- The write deletes all targets, and calls `close_all`. -/
def resets (value : PyStr) (client : Option ClientAddr) (admin : Bool) : Bool :=
  n.remote.accessory.isSome && client.isSome && admin &&
    match AppleTVHomeKitRemote.parseTargetWrite value with
    | .ok (.reset, none) => true
    | _ => false

/-- What the server sees of a step of the controller, beside what it closes. -/
def serverAfter : AppleTVHomeKitRemote.Label → HDSServer
  | .targetListWrite value client admin =>
      if n.resets json value client admin then n.server.closeAll else n.server
  | _ => n.server

/-- One step. -/
def step : Label → Option (Network ε json.Text)
  | .remote a =>
      if ofRemote a then
        (n.remote.step json opus a).map fun remote ↦
          settle { n with remote, server := n.serverAfter json a }
      else none
  | .server a =>
      if ofServer a then
        (n.server.step C reprOf a).bind fun server ↦
          ((remotes json opus none).exec n.remote (remoteLabels n.server server a)).map
            fun remote ↦ settle { n with remote, server }
      else none
  | .setupHds value client sharedSecret accessorySalt =>
      if accessorySalt.length = 32 then
        some (n.hapSetupHdsWrite json C value client sharedSecret accessorySalt).2
      else none
  | .hapConnectionLost client =>
      some (settle { n with
        remote := n.remote.hapConnectionLost json client
        server := n.server.closeForClient client })

/-- `AppleTVHomeKitRemote(...)` on what is in its state directory. -/
def new (file : Option json.Text) : Network ε json.Text := ⟨.new json file, .new, []⟩

end

end Network

/-- A controller with its server from their construction on. -/
def networks {ε : Type} (json : JsonText) (opus : OpusEncoder ε) (C : Crypto)
    (reprOf : Obj → String) (file : Option json.Text) :
    System (Network ε json.Text) Network.Label where
  init n := n = .new json file
  step n a := n.step json opus C reprOf a

end AtvRemote.Remote
