import AtvRemote.Lib.Base64
import AtvRemote.Remote.Notified
import AtvRemote.Tlv8

/-!
# Recovery

Calls of `recover_hds` next to the lifecycle of the controller.  A call has two phases: in the
first it closes the data stream and stops advertising Siri, in the second, behind a sleep, it
advertises Siri again.  What ends a call in between leaves Siri off, and the next call that
comes to its second phase turns it on again (`recovered_iff`).
-/

namespace AtvRemote.Remote

open Lib Audio

/-! ## The supported configuration -/

/-- The buttons of `target_supported_value`. -/
def supportedButtons (siriAdvertised : Bool) : List Button :=
  [.menu, .playPause, .tvHome, .select, .arrowUp, .arrowRight, .arrowDown, .arrowLeft, .volumeUp,
    .volumeDown, .power, .generic] ++ if siriAdvertised then [.siri] else []

/-- A button of `target_supported_value`. -/
def supportedButton (button : Button) : Except PyErr Bytes := do
  let type ← Tlv8.u16 button.toInt
  Tlv8.encode
    [(supportedButtonId, .int (100 + button.toInt)), (supportedButtonType, .bytes .bytes type)]

/-- `target_supported_value` -/
def targetSupportedValue (siriAdvertised : Bool) : Except PyErr String := do
  let buttonData ← (supportedButtons siriAdvertised).mapM supportedButton
  let maximum ← Tlv8.encode [(tcMaximumTargets, .int maxTargets)]
  let ticks ← Tlv8.encode [(tcTicksPerSecond, .bytes .bytes (Tlv8.uintLe 1000))]
  let buttons ← Tlv8.encode
    [(tcSupportedButtonConfiguration, .bytes .bytes buttonData.flatten)]
  let type ← Tlv8.encode [(tcType, .int (if siriAdvertised then 1 else 0))]
  return String.ofList (Base64.encode (maximum ++ ticks ++ buttons ++ type))

/-- The supported configuration can be computed, and says whether Siri is advertised. -/
theorem targetSupportedValue_cases : ∃ on off, targetSupportedValue true = .ok on ∧
    targetSupportedValue false = .ok off ∧ on ≠ off :=
  ⟨_, _, rfl, rfl, by decide +kernel⟩

/-! ## Calls -/

/-- Where a call of `recover_hds` is. -/
inductive RecoverPc where
  | called
  /-- In `session.cancel()`, a task of the session. -/
  | cancelling (sid task : Nat)
  /-- In `asyncio.sleep`. -/
  | sleeping
  | returned
  | raised (e : PyErr)
deriving DecidableEq, Repr

/-- The call has ended. -/
def RecoverPc.ended : RecoverPc → Bool
  | .returned | .raised _ => true
  | _ => false

/-- A call of `recover_hds`. -/
structure RecoverCall where
  phaseDelay : Float64
  pc : RecoverPc
deriving DecidableEq, Repr

/-- How a call goes on from its checks, or from `session.cancel()`. -/
inductive Onward where
  | raises (e : PyErr)
  | awaits (sid task : Nat)
  /-- It comes to its first phase. -/
  | goesOn
deriving DecidableEq, Repr

/-- `x < 0` -/
def belowZero (x : Float64) : Bool := x.negative && !x.isZero && !x.isNaN

/-- A controller with its calls of `recover_hds`. -/
structure Recovery (ε T : Type) where
  lifecycle : Lifecycle ε T
  /-- The value last set on `supported_target_char`. -/
  supportedTargetChar : Option String
  /-- Every call of `recover_hds`. -/
  calls : List RecoverCall

namespace Lifecycle

variable {ε T : Type}

/-- How a call goes on in `session.cancel()`. -/
def afterCancel (l : Lifecycle ε T) (sid task : Nat) : Onward :=
  match l.remote.sessions[sid]?.bind fun u ↦ u.session.pc? task with
  | some .returned | none => .goesOn
  | some (.raised e) => .raises e
  | some _ => .awaits sid task

/-- `recover_hds` up to its first phase. -/
def beginRecover (opus : OpusEncoder ε) (l : Lifecycle ε T) (phaseDelay : Float64) :
    Lifecycle ε T × Onward :=
  if belowZero phaseDelay then (l, .raises (.valueError "phase_delay must be >= 0"))
  else if l.remote.accessory.isNone then
    (l, .raises (.runtimeError "remote is not started; call await remote.start() first"))
  else match l.remote.activeSiriSession.bind fun sid ↦
      l.remote.sessions[sid]?.map fun u ↦ (sid, u) with
    | some (sid, u) =>
        if u.session.closed then (l, .goesOn)
        else
          let l := l.beginCancel opus sid u
          (l, l.afterCancel sid u.session.tasks.length)
    | none => (l, .goesOn)

end Lifecycle

namespace Recovery

section

variable {ε T : Type} (s : Recovery ε T)

/-- Move a call. -/
def goto (t : Nat) (pc : RecoverPc) : Recovery ε T :=
  { s with calls := s.calls.modify t fun k ↦ { k with pc } }

/-- The data stream is closed. -/
def closeHds : Recovery ε T :=
  let remote := s.lifecycle.remote.closeAll
  { s with lifecycle := { s.lifecycle with remote := { remote with hdsConnections := .empty } } }

/-- Set `_siri_advertised`, and publish what is supported. -/
def advertise (siri : Bool) : Recovery ε T := { s with
  lifecycle := { s.lifecycle with remote := { s.lifecycle.remote with siriAdvertised := siri } }
  supportedTargetChar := (targetSupportedValue siri).toOption }

/-- The second phase of a call; `fault` is what `config_changed()` raises. -/
def secondPhase (t : Nat) (fault : Option PyErr) : Recovery ε T :=
  match fault with
  | some e => (s.advertise true).goto t (.raised e)
  | none => (s.advertise true).goto t .returned

/-- The first phase of a call, and the second one if there is no delay. -/
def firstPhase (t : Nat) (phaseDelay : Float64) (fault fault' : Option PyErr) : Recovery ε T :=
  let s := s.closeHds.advertise false
  match fault with
  | some e => s.goto t (.raised e)
  | none => if phaseDelay.isZero then s.secondPhase t fault' else s.goto t .sleeping

/-- A call goes on. -/
def proceed (t : Nat) (phaseDelay : Float64) (fault fault' : Option PyErr) :
    Onward → Recovery ε T
  | .raises e => s.goto t (.raised e)
  | .awaits sid task => s.goto t (.cancelling sid task)
  | .goesOn => s.firstPhase t phaseDelay fault fault'

end

/-- What happens to a controller and its calls of `recover_hds`; `fault` and `fault'` are what
`config_changed()` raises in the first and the second time that the step calls it. -/
inductive Label where
  | lifecycle (a : Lifecycle.Label)
  /-- `recover_hds` is called. -/
  | recover (phaseDelay : Float64)
  /-- A call runs up to its first `await`. -/
  | enter (t : Nat) (fault fault' : Option PyErr)
  /-- What a call awaits is over. -/
  | resume (t : Nat) (fault fault' : Option PyErr)
  /-- A call is cancelled before it runs, or its sleep raises or is cancelled.  Where a call
  awaits `session.cancel()`, that is a step of the session. -/
  | fail (t : Nat) (e : PyErr)
deriving Repr

section

variable {ε : Type} (json : JsonText) (opus : OpusEncoder ε)

/-- One step. -/
def step (s : Recovery ε json.Text) : Label → Option (Recovery ε json.Text)
  | .lifecycle a => (s.lifecycle.step json opus a).map fun lifecycle ↦ { s with lifecycle }
  | .recover phaseDelay => some { s with calls := s.calls ++ [⟨phaseDelay, .called⟩] }
  | .enter t fault fault' => match s.calls[t]? with
      | some ⟨phaseDelay, .called⟩ =>
          let (lifecycle, onward) := s.lifecycle.beginRecover opus phaseDelay
          some (proceed { s with lifecycle } t phaseDelay fault fault' onward)
      | _ => none
  | .resume t fault fault' => match s.calls[t]? with
      | some ⟨phaseDelay, .cancelling sid task⟩ => match s.lifecycle.afterCancel sid task with
          | .awaits _ _ => none
          | onward => some (s.proceed t phaseDelay fault fault' onward)
      | some ⟨_, .sleeping⟩ => some (s.secondPhase t fault)
      | _ => none
  | .fail t e => match s.calls[t]? with
      | some ⟨_, .called⟩ | some ⟨_, .sleeping⟩ => some (s.goto t (.raised e))
      | _ => none

end

/-! ## Phases -/

/-- A phase of a call. -/
inductive Phase where
  | first
  | second
deriving DecidableEq, Repr

section

variable {ε T : Type} (opus : OpusEncoder ε) (s : Recovery ε T)

/-- The last phase that a call comes to that goes on. -/
def phaseOf (phaseDelay : Float64) (fault : Option PyErr) : Onward → Option Phase
  | .goesOn => some (if fault.isNone && phaseDelay.isZero then .second else .first)
  | _ => none

/-- The last phase that a step takes a call to, if it takes one any further. -/
def comesTo : Label → Option Phase
  | .enter t fault _ => s.calls[t]?.bind fun k ↦
      phaseOf k.phaseDelay fault (s.lifecycle.beginRecover opus k.phaseDelay).2
  | .resume t fault _ => s.calls[t]?.bind fun k ↦ match k.pc with
      | .cancelling sid task => phaseOf k.phaseDelay fault (s.lifecycle.afterCancel sid task)
      | .sleeping => some .second
      | _ => none
  | _ => none

/-- The step ends a call between its phases: its sleep is cut short, or `config_changed()` raises
in the first phase. -/
def CutsShort : Label → Prop
  | .enter t (some e) fault' => s.comesTo opus (.enter t (some e) fault') = some .first
  | .resume t (some e) fault' => s.comesTo opus (.resume t (some e) fault') = some .first
  | .fail t _ => s.calls[t]?.map RecoverCall.pc = some .sleeping
  | _ => False

/-- No call is in progress. -/
def Idle : Prop := ∀ k ∈ s.calls, k.pc.ended = true

/-- Siri is advertised, and so is the capability that was last published. -/
structure Advertised : Prop where
  siriAdvertised : s.lifecycle.remote.siriAdvertised = true
  published : ∀ value, s.supportedTargetChar = some value → targetSupportedValue true = .ok value

end

end Recovery

/-! ## What leaves Siri as it is -/

section

variable {ε : Type} {json : JsonText} {opus : OpusEncoder ε}

/-- No step of the controller touches `_siri_advertised`. -/
theorem AppleTVHomeKitRemote.siriAdvertised_step {r r' : AppleTVHomeKitRemote ε json.Text}
    {a : AppleTVHomeKitRemote.Label} (h : r.step json opus a = some r') :
    r'.siriAdvertised = r.siriAdvertised := by
  by_cases ha : a.touchesMirror = true
  · cases a with
    | start =>
        cases h
        rfl
    | activeIdentifierWrite value client =>
        cases h
        rw [hapActiveIdentifierWrite]
        split
        · rfl
        · split
          · rfl
          · exact (r.moves_setActiveIdentifier _).mirrors.siriAdvertised
    | activeWrite value client =>
        cases h
        rcases r.hapActiveWrite_cases value client with ⟨e, heq⟩ | ⟨client', -, heq⟩ | ⟨-, heq⟩
        · rw [heq]
        · rw [heq]
        · rw [heq]
          have hfront := (sessionsOnly_scheduleSessionCancel { r with activeClient := none }
            r.activeSiriSession).apart.front
          exact congrArg (fun x ↦ x.2.2.2) hfront
    | _ => cases ha
  · exact (mirrors_step (Bool.eq_false_iff.mpr ha) h).siriAdvertised

namespace Lifecycle

/-- Neither do `start` and `stop`. -/
theorem siriAdvertised_step {l l' : Lifecycle ε json.Text} {a : Label}
    (h : l.step json opus a = some l') : l'.remote.siriAdvertised = l.remote.siriAdvertised := by
  have hfront : ∀ {b : Lifecycle ε json.Text}, b.remote.front = l.remote.front →
      b.remote.siriAdvertised = l.remote.siriAdvertised := fun h ↦ congrArg (fun x ↦ x.2.2.2) h
  cases a with
  | start | stop =>
      cases h
      rfl
  | enterStart t =>
      simp only [Lifecycle.step] at h
      split at h
      · cases h
        simp only [enterStart]
        split
        · rfl
        · split <;> rfl
      · cases h
  | enterStop t =>
      simp only [Lifecycle.step] at h
      split at h
      · next hcalled =>
        cases h
        exact (mirrors_enterStop opus (lt_length_of_getElem? hcalled)).siriAdvertised
      · cases h
  | resumeStart t =>
      obtain ⟨pc, -, hresume⟩ := Option.bind_eq_some_iff.mp h
      exact hfront (front_resumeStart hresume)
  | failStart t e =>
      obtain ⟨pc, -, hfail⟩ := Option.bind_eq_some_iff.mp h
      exact hfront (front_failStart hfail)
  | resumeStop t =>
      obtain ⟨pc, hpc, hresume⟩ := Option.bind_eq_some_iff.mp h
      exact (leaves_resumeStop hpc hresume).siriAdvertised
  | failStop t e =>
      obtain ⟨pc, hpc, hfail⟩ := Option.bind_eq_some_iff.mp h
      exact (leaves_failStop hpc hfail).siriAdvertised
  | remote a =>
      obtain ⟨remote, hremote, rfl⟩ := step_remote h
      exact AppleTVHomeKitRemote.siriAdvertised_step hremote
  | watchCancelled sid =>
      simp only [Lifecycle.step] at h
      split at h
      · split at h
        · cases h
          rfl
        · cases h
      · cases h

theorem siriAdvertised_beginRecover (l : Lifecycle ε json.Text) (opus : OpusEncoder ε)
    (phaseDelay : Float64) :
    (l.beginRecover opus phaseDelay).1.remote.siriAdvertised = l.remote.siriAdvertised := by
  rw [beginRecover]
  split
  · rfl
  · split
    · rfl
    · split
      · split <;> rfl
      · rfl

end Lifecycle

namespace Recovery

variable {s s' : Recovery ε json.Text} {t : Nat} {a : Label}

/-! ## Phases and Siri -/

/-- What a step leaves that comes to a phase, or to none. -/
def Comes (s s' : Recovery ε json.Text) : Option Phase → Prop
  | none => s'.lifecycle.remote.siriAdvertised = s.lifecycle.remote.siriAdvertised ∧
      s'.supportedTargetChar = s.supportedTargetChar
  | some phase => s'.lifecycle.remote.siriAdvertised = decide (phase = .second) ∧
      s'.supportedTargetChar = (targetSupportedValue (decide (phase = .second))).toOption

theorem comes_secondPhase (b : Recovery ε json.Text) (t : Nat) (fault : Option PyErr) :
    s.Comes (b.secondPhase t fault) (some .second) := by
  cases fault with
  | none => exact ⟨rfl, rfl⟩
  | some e => exact ⟨rfl, rfl⟩

/-- Two phases are behind a call that goes on with no delay. -/
theorem comes_proceed (hsiri : s'.lifecycle.remote.siriAdvertised =
      s.lifecycle.remote.siriAdvertised) (hchar : s'.supportedTargetChar = s.supportedTargetChar)
    (t : Nat) (phaseDelay : Float64) (fault fault' : Option PyErr) (onward : Onward) :
    s.Comes (s'.proceed t phaseDelay fault fault' onward) (phaseOf phaseDelay fault onward) := by
  cases onward with
  | raises e => exact ⟨hsiri, hchar⟩
  | awaits sid task => exact ⟨hsiri, hchar⟩
  | goesOn =>
      rw [proceed, firstPhase.eq_def, phaseOf]
      cases fault with
      | some e => exact ⟨rfl, rfl⟩
      | none =>
          simp only [Option.isNone_none, Bool.true_and]
          split
          · exact comes_secondPhase _ t fault'
          · exact ⟨rfl, rfl⟩

/-- **Siri is turned off by the first phase of a call and turned on by the second, and by
nothing else.** -/
theorem step_comes (h : s.step json opus a = some s') : s.Comes s' (s.comesTo opus a) := by
  cases a with
  | lifecycle a =>
      obtain ⟨lifecycle, hlifecycle, rfl⟩ := Option.map_eq_some_iff.mp h
      exact ⟨Lifecycle.siriAdvertised_step hlifecycle, rfl⟩
  | recover phaseDelay =>
      cases h
      exact ⟨rfl, rfl⟩
  | enter t fault fault' =>
      simp only [step] at h
      split at h
      · next phaseDelay hcall =>
        have hsiri := s.lifecycle.siriAdvertised_beginRecover opus phaseDelay
        rw [comesTo, hcall, Option.bind_some]
        dsimp only
        generalize s.lifecycle.beginRecover opus phaseDelay = x at h hsiri ⊢
        obtain ⟨lifecycle, onward⟩ := x
        cases h
        apply comes_proceed
        · exact hsiri
        · rfl
      · cases h
  | resume t fault fault' =>
      simp only [step] at h
      split at h
      · next phaseDelay sid task hcall =>
        rw [comesTo, hcall, Option.bind_some]
        split at h
        · cases h
        · cases h
          exact comes_proceed rfl rfl _ _ _ _ _
      · next hcall =>
        cases h
        rw [comesTo, hcall]
        exact comes_secondPhase s t fault
      · cases h
  | fail t e =>
      simp only [step] at h
      split at h
      · cases h
        exact ⟨rfl, rfl⟩
      · cases h
        exact ⟨rfl, rfl⟩
      · cases h

/-! ## Sleeping calls -/

/-- A call is asleep. -/
def Asleep (s : Recovery ε json.Text) : Prop :=
  ∃ t : Nat, s.calls[t]?.map RecoverCall.pc = some .sleeping

/-- The calls that sleep go on sleeping when another call moves. -/
theorem Asleep.goto (h : s.Asleep) (hcalls : s'.calls = s.calls)
    (ht : s.calls[t]?.map RecoverCall.pc ≠ some .sleeping) (pc : RecoverPc) :
    (s'.goto t pc).Asleep := by
  obtain ⟨t', ht'⟩ := h
  have hne : t ≠ t' := by
    rintro rfl
    exact ht ht'
  refine ⟨t', ?_⟩
  rw [Recovery.goto, hcalls, List.getElem?_modify_ne _ _ hne]
  exact ht'

/-- While Siri is not advertised, some call is asleep. -/
def Awaited (s : Recovery ε json.Text) : Prop :=
  s.lifecycle.remote.siriAdvertised = false → s.Asleep

theorem Awaited.proceed (hs : s.Awaited) (b : Recovery ε json.Text)
    (hsiri : b.lifecycle.remote.siriAdvertised = s.lifecycle.remote.siriAdvertised)
    (hcalls : b.calls = s.calls) {k : RecoverCall} (hk : s.calls[t]? = some k)
    (hpc : k.pc ≠ .sleeping) {fault : Option PyErr} (fault' : Option PyErr) (onward : Onward)
    (hfault : onward = .goesOn → fault = none) :
    (b.proceed t k.phaseDelay fault fault' onward).Awaited := by
  have ht : s.calls[t]?.map RecoverCall.pc ≠ some .sleeping := by
    rw [hk]
    exact fun h ↦ hpc (Option.some.inj h)
  cases onward with
  | raises e => exact fun hoff ↦ (hs (hsiri ▸ hoff)).goto hcalls ht _
  | awaits sid task => exact fun hoff ↦ (hs (hsiri ▸ hoff)).goto hcalls ht _
  | goesOn =>
      rw [Recovery.proceed, firstPhase.eq_def, hfault rfl]
      dsimp only
      split
      · intro hoff
        cases fault' with
        | none => cases hoff
        | some e => cases hoff
      · refine fun _ ↦ ⟨t, ?_⟩
        show ((b.calls.modify t _)[t]?).map RecoverCall.pc = _
        rw [hcalls, List.getElem?_modify_eq, hk]
        rfl

/-- **Unless a step cuts a call short, Siri is off only while a call sleeps.** -/
theorem Awaited.step (hs : s.Awaited) (hcuts : ¬ s.CutsShort opus a)
    (h : s.step json opus a = some s') : s'.Awaited := by
  cases a with
  | lifecycle a =>
      obtain ⟨lifecycle, hlifecycle, rfl⟩ := Option.map_eq_some_iff.mp h
      exact fun hoff ↦ hs ((Lifecycle.siriAdvertised_step hlifecycle).symm.trans hoff)
  | recover phaseDelay =>
      cases h
      intro hoff
      obtain ⟨t, ht⟩ := hs hoff
      obtain ⟨k, hk, hpc⟩ := Option.map_eq_some_iff.mp ht
      exact ⟨t, by rw [getElem?_concat_of_eq_some hk, Option.map_some, hpc]⟩
  | enter t fault fault' =>
      simp only [Recovery.step] at h
      split at h
      · next phaseDelay hcall =>
        have hsiri := s.lifecycle.siriAdvertised_beginRecover opus phaseDelay
        have hfault : (s.lifecycle.beginRecover opus phaseDelay).2 = .goesOn → fault = none := by
          intro hgoes
          cases fault with
          | none => rfl
          | some e =>
              refine (hcuts ?_).elim
              rw [CutsShort, comesTo, hcall, Option.bind_some, hgoes]
              rfl
        generalize s.lifecycle.beginRecover opus phaseDelay = x at h hsiri hfault
        obtain ⟨lifecycle, onward⟩ := x
        cases h
        exact hs.proceed { s with lifecycle } hsiri rfl hcall nofun fault' onward hfault
      · cases h
  | resume t fault fault' =>
      simp only [Recovery.step] at h
      split at h
      · next phaseDelay sid task hcall =>
        have hfault : s.lifecycle.afterCancel sid task = .goesOn → fault = none := by
          intro hgoes
          cases fault with
          | none => rfl
          | some e =>
              refine (hcuts ?_).elim
              rw [CutsShort, comesTo, hcall, Option.bind_some]
              dsimp only
              rw [hgoes]
              rfl
        split at h
        · cases h
        · cases h
          exact hs.proceed s rfl rfl hcall nofun fault' _ hfault
      · next hcall =>
        cases h
        intro hoff
        cases fault with
        | none => cases hoff
        | some e => cases hoff
      · cases h
  | fail t e =>
      simp only [Recovery.step] at h
      split at h
      · next hcall =>
        cases h
        refine fun hoff ↦ (hs hoff).goto rfl ?_ _
        rw [hcall]
        exact nofun
      · next hcall =>
        refine (hcuts ?_).elim
        rw [CutsShort, hcall]
        rfl
      · cases h

/-- A call that sleeps is in progress. -/
theorem Asleep.not_idle (h : s.Asleep) : ¬ s.Idle := by
  obtain ⟨t, ht⟩ := h
  obtain ⟨k, hk, hpc⟩ := Option.map_eq_some_iff.mp ht
  intro hidle
  have hended := hidle k (List.mem_of_getElem? hk)
  rw [hpc] at hended
  cases hended

/-- A controller with no call yet. -/
def new (json : JsonText) (file : Option json.Text) : Recovery ε json.Text :=
  ⟨.new json file, none, []⟩

/-- What was last published is what is advertised. -/
def Published (s : Recovery ε json.Text) : Prop := ∀ value, s.supportedTargetChar = some value →
  targetSupportedValue s.lifecycle.remote.siriAdvertised = .ok value

/-- The phases that calls come to in a run, in order. -/
def phases (opus : OpusEncoder ε) (h : List (Recovery ε json.Text × Label)) : List Phase :=
  h.filterMap fun p ↦ p.1.comesTo opus p.2

end Recovery

end

/-- A controller from its construction on, with its calls of `start`, `stop` and `recover_hds`. -/
def recoveries {ε : Type} (json : JsonText) (opus : OpusEncoder ε) (file : Option json.Text) :
    System (Recovery ε json.Text) Recovery.Label where
  init s := s = .new json file
  step s a := s.step json opus a

open Recovery in
/-- **When no call of `recover_hds` is in progress, Siri is advertised exactly when the last phase
that a call has come to is not a first one; it is so when no call is cut short between its
phases.** -/
theorem recovered_iff {ε : Type} (json : JsonText) (opus : OpusEncoder ε)
    (file : Option json.Text) (h : List (Recovery ε json.Text × Recovery.Label))
    (s : Recovery ε json.Text) (hrun : (recoveries json opus file).Run h s) :
    ((s.Idle → s.Advertised) ↔ (s.Idle → (phases opus h).getLast? ≠ some .first)) ∧
      ((∀ p ∈ h, ¬ p.1.CutsShort opus p.2) → s.Idle → s.Advertised) := by
  suffices hmain : (s.lifecycle.remote.siriAdvertised = true ↔
      (phases opus h).getLast? ≠ some .first) ∧ s.Published ∧
      ((∀ p ∈ h, ¬ p.1.CutsShort opus p.2) → s.Awaited) by
    obtain ⟨hsiri, hpublished, hawaited⟩ := hmain
    have hiff : s.Advertised ↔ s.lifecycle.remote.siriAdvertised = true :=
      ⟨fun h ↦ h.siriAdvertised, fun h ↦ ⟨h, fun value hvalue ↦ h ▸ hpublished value hvalue⟩⟩
    refine ⟨imp_congr_right fun _ ↦ hiff.trans hsiri, fun hcuts hidle ↦ hiff.mpr ?_⟩
    exact Bool.of_not_eq_false fun hoff ↦ (hawaited hcuts hoff).not_idle hidle
  induction hrun with
  | @init s hinit =>
      have hinit : s = .new json file := hinit
      subst hinit
      refine ⟨iff_of_true rfl nofun, ?_, ?_⟩
      · intro value hvalue
        cases hvalue
      · intro _ hoff
        cases hoff
  | @step h s s' a hrun hstep ih =>
      have hstep : s.step json opus a = some s' := hstep
      obtain ⟨hsiri, hpublished, hawaited⟩ := ih
      have hcomes := step_comes hstep
      have hphases : phases opus (h ++ [(s, a)]) = phases opus h ++ (s.comesTo opus a).toList := by
        rw [phases, List.filterMap_append, phases]
        cases hphase : s.comesTo opus a <;> simp [hphase]
      simp only [List.mem_append, List.mem_singleton, or_imp, forall_and, forall_eq]
      rw [hphases]
      refine ⟨?_, ?_, fun ⟨hbefore, ha⟩ ↦ (hawaited hbefore).step ha hstep⟩
      · cases hphase : s.comesTo opus a with
        | none =>
            rw [hphase] at hcomes
            rw [hcomes.1, Option.toList_none, List.append_nil]
            exact hsiri
        | some phase =>
            rw [hphase] at hcomes
            rw [hcomes.1, Option.toList_some, List.getLast?_concat]
            cases phase with
            | first => exact iff_of_false nofun fun h ↦ h rfl
            | second => exact iff_of_true rfl nofun
      · intro value hvalue
        cases hphase : s.comesTo opus a with
        | none =>
            rw [hphase] at hcomes
            rw [hcomes.1]
            exact hpublished value (hcomes.2 ▸ hvalue)
        | some phase =>
            rw [hphase] at hcomes
            rw [hcomes.1]
            rw [hcomes.2] at hvalue
            exact toOption_eq_some.mp hvalue

/-- A recovery with a delay of two minutes. -/
def twoMinutes : Float64 := ⟨0x405E000000000000⟩

/-- A controller is started, and `recover_hds` comes to its sleep. -/
def recovering : List Recovery.Label :=
  [.lifecycle .start, .lifecycle (.enterStart 0), .lifecycle (.resumeStart 0),
    .lifecycle (.resumeStart 0), .recover twoMinutes, .enter 0 none none]

/-- Of two calls that overlap, the first one is cancelled and the second one comes through. -/
def overlapping : List Recovery.Label :=
  recovering ++ [.recover twoMinutes, .enter 1 none none, .fail 0 .cancelledError,
    .resume 1 none none]

theorem recovered_iff_overlapping :
    ∃ s, (recoveries .documents .verbatim none).exec (.new .documents none) overlapping = some s ∧
      s.calls.map RecoverCall.pc = [.raised .cancelledError, .returned] ∧
      ((s.Idle → s.Advertised) ↔ (s.Idle → (Recovery.phases .verbatim ((recoveries .documents
        .verbatim none).trace (.new .documents none) overlapping)).getLast? ≠ some .first)) ∧
      ((∀ p ∈ (recoveries .documents .verbatim none).trace (.new .documents none) overlapping,
        ¬ p.1.CutsShort .verbatim p.2) → s.Idle → s.Advertised) := by
  have hpcs : ((recoveries .documents .verbatim none).exec (.new .documents none) overlapping).map
      (fun s ↦ s.calls.map RecoverCall.pc) = some [.raised .cancelledError, .returned] := by
    decide +kernel
  obtain ⟨s, hs, hpcs⟩ := Option.map_eq_some_iff.mp hpcs
  have hinit : (recoveries .documents .verbatim none).Run [] (.new .documents none) := .init rfl
  exact ⟨s, hs, hpcs, recovered_iff .documents .verbatim none _ s (hinit.exec hs)⟩

/-- The call is cancelled in its sleep: no call is in progress, and Siri is off. -/
theorem not_recovered_of_cancelled :
    ∃ s, (recoveries .documents .verbatim none).Reachable s ∧ s.Idle ∧
      s.lifecycle.remote.siriAdvertised = false ∧
      ¬ ∀ value, s.supportedTargetChar = some value → targetSupportedValue true = .ok value := by
  have hrun : ((recoveries .documents .verbatim none).exec (.new .documents none)
      (recovering ++ [.fail 0 .cancelledError])).map (fun s ↦ (s.calls.map RecoverCall.pc,
        s.lifecycle.remote.siriAdvertised, s.supportedTargetChar)) =
      some ([.raised .cancelledError], false, (targetSupportedValue false).toOption) := by
    decide +kernel
  obtain ⟨s, hs, hfound⟩ := Option.map_eq_some_iff.mp hrun
  simp only [Prod.mk.injEq] at hfound
  obtain ⟨hpcs, hsiri, hchar⟩ := hfound
  have hinit : (recoveries .documents .verbatim none).Reachable (.new .documents none) := .init rfl
  refine ⟨s, hinit.exec hs, ?_, hsiri, fun hpublished ↦ ?_⟩
  · intro k hk
    have hpc := List.mem_map_of_mem (f := RecoverCall.pc) hk
    rw [hpcs, List.mem_singleton] at hpc
    rw [hpc]
    rfl
  · obtain ⟨on, off, hon, hoff, hne⟩ := targetSupportedValue_cases
    have hsame := hpublished off (by rw [hchar, hoff]; rfl)
    rw [hon] at hsame
    exact hne (Except.ok.inj hsame)

end AtvRemote.Remote
