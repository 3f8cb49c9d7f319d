/-!
# Constants

The enumerations of `constants` that the program converts integers to, and the TLV types
that it writes and looks up.
-/

namespace AtvRemote

/-- `HDSCloseReason` -/
inductive HDSCloseReason where
  | normal | notAllowed | busy | cancelled | unsupported | unexpectedFailure | timeout
  | badData | protocolError | invalidConfiguration
deriving DecidableEq, Repr

namespace HDSCloseReason

/-- `int(reason)` -/
def toInt : HDSCloseReason → Int
  | normal => 0
  | notAllowed => 1
  | busy => 2
  | cancelled => 3
  | unsupported => 4
  | unexpectedFailure => 5
  | timeout => 6
  | badData => 7
  | protocolError => 8
  | invalidConfiguration => 9

/-- `HDSCloseReason(n)`, `none` when it raises `ValueError`. -/
def ofInt? : Int → Option HDSCloseReason
  | 0 => some normal
  | 1 => some notAllowed
  | 2 => some busy
  | 3 => some cancelled
  | 4 => some unsupported
  | 5 => some unexpectedFailure
  | 6 => some timeout
  | 7 => some badData
  | 8 => some protocolError
  | 9 => some invalidConfiguration
  | _ => none

end HDSCloseReason

/-- `TargetOperation` -/
inductive TargetOperation where
  | undefined | list | add | remove | reset | update
deriving DecidableEq, Repr

/-- `TargetOperation(n)`, `none` when it raises `ValueError`. -/
def TargetOperation.ofNat? : Nat → Option TargetOperation
  | 0 => some undefined
  | 1 => some list
  | 2 => some add
  | 3 => some remove
  | 4 => some reset
  | 5 => some update
  | _ => none

/-- `Button` -/
inductive Button where
  | undefined | menu | playPause | tvHome | select | arrowUp | arrowRight | arrowDown | arrowLeft
  | volumeUp | volumeDown | siri | power | generic
deriving DecidableEq, Repr

namespace Button

/-- `int(button)` -/
def toInt : Button → Int
  | undefined => 0
  | menu => 1
  | playPause => 2
  | tvHome => 3
  | select => 4
  | arrowUp => 5
  | arrowRight => 6
  | arrowDown => 7
  | arrowLeft => 8
  | volumeUp => 9
  | volumeDown => 10
  | siri => 11
  | power => 12
  | generic => 13

/-- `Button(n)`, `none` when it raises `ValueError`. -/
def ofInt? : Int → Option Button
  | 0 => some undefined
  | 1 => some menu
  | 2 => some playPause
  | 3 => some tvHome
  | 4 => some select
  | 5 => some arrowUp
  | 6 => some arrowRight
  | 7 => some arrowDown
  | 8 => some arrowLeft
  | 9 => some volumeUp
  | 10 => some volumeDown
  | 11 => some siri
  | 12 => some power
  | 13 => some generic
  | _ => none

/-- `Button[name]`, `none` when it raises `KeyError`. -/
def ofName? : String → Option Button
  | "UNDEFINED" => some undefined
  | "MENU" => some menu
  | "PLAY_PAUSE" => some playPause
  | "TV_HOME" => some tvHome
  | "SELECT" => some select
  | "ARROW_UP" => some arrowUp
  | "ARROW_RIGHT" => some arrowRight
  | "ARROW_DOWN" => some arrowDown
  | "ARROW_LEFT" => some arrowLeft
  | "VOLUME_UP" => some volumeUp
  | "VOLUME_DOWN" => some volumeDown
  | "SIRI" => some siri
  | "POWER" => some power
  | "GENERIC" => some generic
  | _ => none

end Button

/-- `ButtonState` -/
inductive ButtonState where
  | up | down
deriving DecidableEq, Repr

/-- `int(state)` -/
def ButtonState.toInt : ButtonState → Int
  | up => 0
  | down => 1

/-! ## Target control -/

def buttonEventId : UInt8 := 0x01
def buttonEventState : UInt8 := 0x02
def buttonEventTimestamp : UInt8 := 0x03
def buttonEventActiveIdentifier : UInt8 := 0x04

def tcMaximumTargets : UInt8 := 0x01
def tcTicksPerSecond : UInt8 := 0x02
def tcSupportedButtonConfiguration : UInt8 := 0x03
def tcType : UInt8 := 0x04

def supportedButtonId : UInt8 := 0x01
def supportedButtonType : UInt8 := 0x02

def tcListOperation : UInt8 := 0x01
def tcListTargetConfiguration : UInt8 := 0x02

def targetIdentifierTag : UInt8 := 0x01
def targetNameTag : UInt8 := 0x02
def targetCategoryTag : UInt8 := 0x03
def targetButtonConfigurationTag : UInt8 := 0x04

def buttonConfigurationIdTag : UInt8 := 0x01
def buttonConfigurationTypeTag : UInt8 := 0x02
def buttonConfigurationNameTag : UInt8 := 0x03

/-! ## Data stream setup -/

def hdsHomekitDataStream : UInt8 := 0x00
def hdsSessionCommandType : UInt8 := 0x01
def hdsSessionTransportType : UInt8 := 0x02
def hdsControllerKeySalt : UInt8 := 0x03
def hdsStartSession : UInt8 := 0x00
def hdsSetupStatus : UInt8 := 0x01
def hdsSetupSessionParameters : UInt8 := 0x02
def hdsAccessoryKeySalt : UInt8 := 0x03
def hdsTcpListeningPort : UInt8 := 0x01

/-! ## Data stream protocols -/

def hdsProtocolControl : String := "control"
def hdsProtocolTargetControl : String := "targetControl"
def hdsProtocolDataSend : String := "dataSend"
def hdsTopicHello : String := "hello"
def hdsTopicWhoami : String := "whoami"
def hdsTopicOpen : String := "open"
def hdsTopicData : String := "data"
def hdsTopicAck : String := "ack"
def hdsTopicClose : String := "close"

end AtvRemote
