import AtvRemote.Lib.System
import AtvRemote.Lib.Bytes
import AtvRemote.Lib.PyStr
import AtvRemote.Lib.Dict
import AtvRemote.Lib.Table
import AtvRemote.Lib.Except
import AtvRemote.Lib.Chunks
import AtvRemote.Lib.Base64
import AtvRemote.Python.Number
import AtvRemote.Python.Object
import AtvRemote.Python.Uuid
import AtvRemote.Constants
import AtvRemote.Hds.Encoder
import AtvRemote.Hds.Decoder
import AtvRemote.Hds.RoundTrip
import AtvRemote.Hds.Grammar
import AtvRemote.Hds.Terminators
import AtvRemote.Hds.Agreement
import AtvRemote.Hds.Received
import AtvRemote.Hds.Transparent
import AtvRemote.Lib.SealedChannel
import AtvRemote.Hds.Message
import AtvRemote.Hds.Connection
import AtvRemote.Hds.Server
import AtvRemote.Hds.Steps
import AtvRemote.Hds.AfterClose
import AtvRemote.Hds.Requests
import AtvRemote.Hds.Table
import AtvRemote.Hds.Revocation
import AtvRemote.Hds.Inbound
import AtvRemote.Hds.Outbound
import AtvRemote.Audio.Opus
import AtvRemote.Audio.Session
import AtvRemote.Audio.Steps
import AtvRemote.Audio.CloseOnce
import AtvRemote.Audio.NoDataAfterClose
import AtvRemote.Audio.Packets
import AtvRemote.Audio.Places
import AtvRemote.Audio.Blocks
import AtvRemote.Audio.Stream
import AtvRemote.Audio.Turns
import AtvRemote.Audio.Standing
import AtvRemote.Audio.Abandoned
import AtvRemote.Audio.Exits
import AtvRemote.Audio.Delivered
import AtvRemote.Tlv8
import AtvRemote.Tlv8.Lists
import AtvRemote.Remote.Targets
import AtvRemote.Remote.Store
import AtvRemote.Remote.Controller
import AtvRemote.Remote.Callbacks
import AtvRemote.Remote.Moves
import AtvRemote.Remote.Registry
import AtvRemote.Remote.Persist
import AtvRemote.Remote.Steps
import AtvRemote.Remote.Connections
import AtvRemote.Remote.Siri
import AtvRemote.Remote.Active
import AtvRemote.Remote.Network
import AtvRemote.Remote.Revocation
import AtvRemote.Remote.TargetList
import AtvRemote.Remote.Sessions
import AtvRemote.Remote.Streams
import AtvRemote.Remote.Buttons
import AtvRemote.Remote.Pairing
import AtvRemote.Hds.PrefixFree
import AtvRemote.Tlv8.RoundTrip
import AtvRemote.Remote.TargetRoundTrip
import AtvRemote.Remote.Loaded
import AtvRemote.Remote.Switch
import AtvRemote.Remote.AllOrNothing
import AtvRemote.Remote.Refusals
import AtvRemote.Lib.Courier
import AtvRemote.Audio.Carried
import AtvRemote.Audio.Unbroken
import AtvRemote.Remote.Lifecycle
import AtvRemote.Remote.Shutdown
import AtvRemote.Remote.Quiescence
import AtvRemote.Hds.Pending
import AtvRemote.Remote.Events
import AtvRemote.Remote.Mirror
import AtvRemote.Remote.Characteristics
import AtvRemote.Remote.Notified
import AtvRemote.Remote.Recovery
import AtvRemote.Remote.Restarts
import AtvRemote.Remote.State
import AtvRemote.Audio.Intake
import AtvRemote.Audio.Leaving
import AtvRemote.Lib.Simulation
import AtvRemote.Remote.Served
import AtvRemote.Remote.SendPcm
import AtvRemote.Remote.Follows
import AtvRemote.Remote.Utterances
import AtvRemote.Hds.Calls
import AtvRemote.Audio.Messages
import AtvRemote.Audio.Wire
import AtvRemote.Audio.Linked
import AtvRemote.Audio.Heard
import AtvRemote.Remote.Setup
import AtvRemote.Hds.Cost
