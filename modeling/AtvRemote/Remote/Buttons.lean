import AtvRemote.Lib.Base64
import AtvRemote.Remote.Controller
import AtvRemote.Tlv8

/-!
# Button presses

`press` and `_send_button` beside the controller.  A call of `press` sends a `DOWN` event and
sleeps; whatever happens to the controller meanwhile, it then sends an `UP` event.  Both events
are made from what the controller has selected when they are sent.
-/

namespace AtvRemote.Remote

open Lib Audio

/-- What `_send_button` puts into an event. -/
structure ButtonEvent where
  button : Button
  state : ButtonState
  /-- Milliseconds since the epoch. -/
  timestamp : UInt64
  /-- `active_identifier` -/
  activeIdentifier : Int
deriving DecidableEq, Repr

/-- The value of `button_event_char` for an event. -/
def ButtonEvent.value (e : ButtonEvent) : Except PyErr String := do
  let id ← Tlv8.encode [(buttonEventId, .int (100 + e.button.toInt))]
  let state ← Tlv8.encode [(buttonEventState, .int e.state.toInt)]
  let timestamp ← Tlv8.encode
    [(buttonEventTimestamp, .bytes .bytes (toLE 8 e.timestamp.toNat))]
  let identifier ← Tlv8.u32 e.activeIdentifier
  let identifier ← Tlv8.encode [(buttonEventActiveIdentifier, .bytes .bytes identifier)]
  return String.ofList (Base64.encode (id ++ state ++ timestamp ++ identifier))

/-- The `button` of a call of `press`: a name, with its `repr`, or a number. -/
inductive ButtonArg where
  | name (name : PyStr) (repr : String)
  | number (n : Int)
deriving DecidableEq, Repr

/-- `str.upper` on a character that can become part of the name of a button.  No other
character does. -/
def upperChar (c : Char) : List Char :=
  match c.toNat with
  | 0xDF => ['S', 'S']
  | 0x131 => ['I']
  | 0x17F => ['S']
  | 0xFB00 => ['F', 'F']
  | 0xFB01 => ['F', 'I']
  | 0xFB02 => ['F', 'L']
  | 0xFB03 => ['F', 'F', 'I']
  | 0xFB04 => ['F', 'F', 'L']
  | 0xFB05 | 0xFB06 => ['S', 'T']
  | _ => [c.toUpper]

/-- The button that `press` reads from its argument. -/
def parsedButton : ButtonArg → Except PyErr Button
  | .name name repr =>
      match (name.mapM CodePoint.char?).bind fun cs ↦
          Button.ofName? (String.ofList (cs.flatMap upperChar)) with
      | some button => .ok button
      | none => .error (.valueError s!"unknown button {repr}")
  | .number n => match Button.ofInt? n with
      | some button => .ok button
      | none => .error (.valueError s!"unknown button {n}")

/-- The checks of `press` on its arguments. -/
def pressedButton (button : ButtonArg) (holdMs : Int) : Except PyErr Button := do
  let button ← parsedButton button
  if button = .undefined ∨ button = .siri then
    throw (.valueError "SIRI carries audio; use start_siri()/send_pcm()")
  else if ¬(0 ≤ holdMs ∧ holdMs ≤ 60000) then
    throw (.valueError "hold_ms must be in range 0..60000")
  else return button

/-- Where a call of `press` is. -/
inductive PressPc where
  | start
  /-- In `asyncio.sleep`. -/
  | holding (button : Button)
  | returned
  | raised (e : PyErr)
deriving DecidableEq, Repr

/-- A call of `press`. -/
structure Press where
  /-- `button` -/
  button : ButtonArg
  /-- `hold_ms` -/
  holdMs : Int
  /-- `target` -/
  target : Option Int
  pc : PressPc
deriving DecidableEq, Repr

/-- A controller and its buttons. -/
structure Keypad (ε T : Type) where
  remote : AppleTVHomeKitRemote ε T
  /-- `last_button_event` -/
  lastButtonEvent : String
  /-- Every call of `press`. -/
  presses : List Press
  /-- What `button_event_char` was set to, and by which call. -/
  events : List (Nat × ButtonEvent)

namespace Keypad

variable {ε : Type} (json : JsonText) (opus : OpusEncoder ε)

/-- The event that `_send_button` makes. -/
def event {T : Type} (b : Keypad ε T) (button : Button) (state : ButtonState) (now : UInt64) :
    ButtonEvent := ⟨button, state, now, b.remote.activeIdentifier⟩

/-- `_send_button` in the call `t`; `now` is the time. -/
def sendButton {T : Type} (b : Keypad ε T) (t : Nat) (button : Button) (state : ButtonState)
    (now : UInt64) : Except PyErr Unit × Keypad ε T :=
  if b.remote.activeIdentifier = 0 then (.error (.runtimeError "no target selected"), b)
  else if b.remote.activeClient.isNone then
    (.error (.runtimeError "selected target is not active"), b)
  else match (b.event button state now).value with
    | .error e => (.error e, b)
    | .ok value =>
        let b := { b with lastButtonEvent := value }
        if b.remote.accessory.isNone then
          (.error (.runtimeError "remote is not started; call await remote.start() first"), b)
        else (.ok (), { b with events := b.events ++ [(t, b.event button state now)] })

/-- Move a call of `press`. -/
def gotoPress {T : Type} (b : Keypad ε T) (t : Nat) (pc : PressPc) : Keypad ε T :=
  { b with presses := b.presses.modify t fun p ↦ { p with pc } }

/-- Send an event in a call, and go on to `pc`. -/
def sendThen {T : Type} (b : Keypad ε T) (t : Nat) (button : Button) (state : ButtonState)
    (now : UInt64) (pc : PressPc) : Keypad ε T :=
  match b.sendButton t button state now with
  | (.ok _, b) => b.gotoPress t pc
  | (.error e, b) => b.gotoPress t (.raised e)

/-- `press` up to its sleep. -/
def startPress (b : Keypad ε json.Text) (t : Nat) (p : Press) (now : UInt64) :
    Keypad ε json.Text :=
  match pressedButton p.button p.holdMs with
  | .error e => b.gotoPress t (.raised e)
  | .ok button => match b.remote.selectSiri json p.target with
      | (.error e, remote) => gotoPress { b with remote } t (.raised e)
      | (.ok _, remote) => sendThen { b with remote } t button .down now (.holding button)

/-- What happens to the controller and its buttons. -/
inductive Label where
  /-- A step of the controller. -/
  | remote (a : AppleTVHomeKitRemote.Label)
  /-- `press` is called. -/
  | press (button : ButtonArg) (holdMs : Int) (target : Option Int)
  /-- A call of `press` starts. -/
  | start (t : Nat) (now : UInt64)
  /-- The sleep of a call is over. -/
  | wake (t : Nat) (now : UInt64)
  /-- A call is cancelled. -/
  | cancel (t : Nat)
deriving Repr

/-- One step. -/
def step (b : Keypad ε json.Text) : Label → Option (Keypad ε json.Text)
  | .remote a => (b.remote.step json opus a).map fun remote ↦ { b with remote }
  | .press button holdMs target =>
      some { b with presses := b.presses ++ [⟨button, holdMs, target, .start⟩] }
  | .start t now => match b.presses[t]? with
      | some ⟨button, holdMs, target, .start⟩ =>
          some (b.startPress json t ⟨button, holdMs, target, .start⟩ now)
      | _ => none
  | .wake t now => match b.presses[t]? with
      | some ⟨_, _, _, .holding button⟩ => some (b.sendThen t button .up now .returned)
      | _ => none
  | .cancel t => match b.presses[t]? with
      | some ⟨_, _, _, .start⟩ | some ⟨_, _, _, .holding _⟩ =>
          some (b.gotoPress t (.raised .cancelledError))
      | _ => none

end Keypad

/-- A controller and its buttons from the construction on. -/
def keypads {ε : Type} (json : JsonText) (opus : OpusEncoder ε) (file : Option json.Text) :
    System (Keypad ε json.Text) Keypad.Label where
  init b := b = ⟨.new json file, "", [], []⟩
  step b a := b.step json opus a

end AtvRemote.Remote
