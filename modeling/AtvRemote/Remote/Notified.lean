import AtvRemote.Remote.Characteristics
import AtvRemote.Remote.Quiescence

/-!
# Notified changes

A change of the selected target or of the active flag is notified as long as the characteristics
mirror the controller.  Three things break the mirror: the characteristics are made without the
selection that was loaded, the end of `stop` clears `active_client` alone, and a write of
`ActiveIdentifier` whose save raises is undone in the characteristic alone.  `mirrored_iff` says
that nothing else does.
-/

namespace AtvRemote.Remote

open Lib Audio

/-- What happens to a controller with its characteristics. -/
inductive HapLabel where
  /-- A step of the controller, its calls of `start` and `stop` included. -/
  | lifecycle (a : Lifecycle.Label)
  /-- A HAP client writes `ActiveIdentifier`. -/
  | writeActiveIdentifier (value : Obj) (client : Option ClientAddr)
  /-- A HAP client writes `Active`. -/
  | writeActive (value : Obj) (client : Option ClientAddr)
  /-- A HAP client reads a characteristic. -/
  | read (name : CharName)
deriving Repr

namespace Lifecycle

/-! ## Steps -/

section

variable {ε : Type} (json : JsonText) (opus : OpusEncoder ε) (formats : CharFormats)

/-- One step. -/
def hapStep (l : Lifecycle ε json.Text) : HapLabel → Option (Lifecycle ε json.Text)
  | .lifecycle a => match a with
      | .remote (.activeIdentifierWrite _ _) | .remote (.activeWrite _ _) => none
      | a => l.step json opus a
  | .writeActiveIdentifier value client => l.remote.accessory.map fun a ↦
      { l with remote := (l.remote.clientUpdateValue .activeIdentifier formats.activeIdentifier
        (fun v r ↦ r.hapActiveIdentifierWrite json v client) value a).2 }
  | .writeActive value client => l.remote.accessory.map fun a ↦
      { l with remote := (l.remote.clientUpdateValue .active formats.active
        (fun v r ↦ r.hapActiveWrite json v client) value a).2 }
  | .read name => l.remote.accessory.map fun a ↦ { l with remote := l.remote.getValue name a }

/-- The step does nothing that breaks the mirror. -/
def SparesMirror (l : Lifecycle ε json.Text) : HapLabel → Prop
  | .lifecycle (.enterStart _) => l.started = false → l.remote.accessory = none →
      l.remote.activeIdentifier = 0 ∧ l.remote.activeClient = none
  | .lifecycle (.resumeStop t) => ∀ l', l.step json opus (.resumeStop t) = some l' →
      l'.stops[t]? = some .returned → l.remote.accessory = none ∨ l.remote.activeClient = none
  | .lifecycle (.failStop t e) => ∀ l', l.step json opus (.failStop t e) = some l' →
      l'.stops[t]? = some .returned → l.remote.accessory = none ∨ l.remote.activeClient = none
  | .writeActiveIdentifier value client => ¬ l.remote.UndoesSwitch formats value client
  | _ => True

end

/-! ## What `start` and `stop` do to the mirror -/

section

variable {ε T : Type} {l l' : Lifecycle ε T} {t : Nat}

theorem front_drainServer (l : Lifecycle ε T) (connections : List Nat) :
    (l.drainServer connections).2.remote.front = l.remote.front := by
  rw [drainServer]
  split <;> rfl

theorem front_stopServer (l : Lifecycle ε T) : l.stopServer.2.remote.front = l.remote.front := by
  have hclosed : l.remote.closeAll.front = l.remote.front :=
    (l.remote.apart_closings _).front
  simp only [stopServer]
  split
  · exact hclosed
  · exact (front_drainServer _ _).trans hclosed

theorem front_resumeServer (l : Lifecycle ε T) (phase : ServerPhase) :
    (l.resumeServer phase).2.remote.front = l.remote.front := by
  cases phase with
  | draining => rfl
  | closing connections => exact front_drainServer _ _

theorem front_undo (t : Nat) (e : PyErr) (x : Option ServerPhase × Lifecycle ε T) :
    (undo t e x).remote.front = x.2.remote.front := by
  obtain ⟨_ | phase, l⟩ := x <;> rfl

theorem front_resumeStart {pc : StartPc} (h : l.resumeStart t pc = some l') :
    l'.remote.front = l.remote.front := by
  cases pc with
  | startingServer | startingDriver =>
      cases h
      rfl
  | undoing phase e =>
      cases h
      exact (front_undo t e _).trans (l.front_resumeServer phase)
  | called | returned | raised => cases h

theorem front_failStart {pc : StartPc} {e : PyErr} (h : l.failStart t e pc = some l') :
    l'.remote.front = l.remote.front := by
  cases pc with
  | called =>
      simp only [failStart] at h
      split at h
      · cases h
      · cases h
        rfl
  | startingServer | undoing =>
      cases h
      rfl
  | startingDriver =>
      cases h
      exact (front_undo t e _).trans l.front_stopServer
  | returned | raised => cases h

/-- A call of `stop` goes on and leaves the front as it is, or it returns and has cleared the
active client. -/
def Leaves (t : Nat) (l l' : Lifecycle ε T) : Prop :=
  (l'.stops[t]? ≠ some .returned ∧ l'.remote.front = l.remote.front) ∨
    (l'.stops[t]? = some .returned ∧ l'.remote.front =
      (l.remote.accessory, l.remote.activeIdentifier, none, l.remote.siriAdvertised))

theorem eq_returned_of_gotoStop {pc : StopPc}
    (h : (l.gotoStop t pc).stops[t]? = some .returned) : pc = .returned := by
  rw [gotoStop, List.getElem?_set_self'] at h
  obtain ⟨_, _, rfl⟩ := Option.map_eq_some_iff.mp h
  rfl

/-- A call of `stop` that does not return goes on. -/
theorem Leaves.goto {pc : StopPc} (hpc : pc ≠ .returned)
    (hfront : l'.remote.front = l.remote.front) : Leaves t l (l'.gotoStop t pc) :=
  .inl ⟨fun h ↦ hpc (eq_returned_of_gotoStop h), hfront⟩

theorem leaves_clear (ht : t < l'.stops.length) (hfront : l'.remote.front = l.remote.front) :
    Leaves t l (l'.clear t) := by
  simp only [AppleTVHomeKitRemote.front, Prod.mk.injEq] at hfront
  obtain ⟨haccessory, hidentifier, -, hsiri⟩ := hfront
  refine .inr ⟨List.getElem?_set_self ht, ?_⟩
  show (l'.remote.accessory, l'.remote.activeIdentifier, none, l'.remote.siriAdvertised) = _
  rw [haccessory, hidentifier, hsiri]

theorem leaves_driverStopped (ht : t < l'.stops.length)
    (hfront : l'.remote.front = l.remote.front) : Leaves t l (l'.driverStopped t) := by
  have hclear : Leaves t l (clear { l' with started := false } t) := leaves_clear ht hfront
  simp only [driverStopped]
  split
  · split
    · exact .goto (by rintro ⟨⟩) hfront
    · exact hclear
  · exact hclear

theorem leaves_serverStopped {x : Option ServerPhase × Lifecycle ε T}
    (ht : t < x.2.stops.length) (hfront : x.2.remote.front = l.remote.front) :
    Leaves t l (serverStopped t x) := by
  obtain ⟨_ | phase, b⟩ := x
  · simp only [serverStopped]
    split
    · exact .goto (by rintro ⟨⟩) hfront
    · exact leaves_driverStopped ht hfront
  · exact .goto (by rintro ⟨⟩) hfront

theorem stops_drainServer (l : Lifecycle ε T) (connections : List Nat) :
    (l.drainServer connections).2.stops = l.stops := by
  rw [drainServer]
  split <;> rfl

theorem stops_stopServer (l : Lifecycle ε T) : l.stopServer.2.stops = l.stops := by
  simp only [stopServer]
  split
  · rfl
  · exact stops_drainServer _ _

theorem stops_resumeServer (l : Lifecycle ε T) (phase : ServerPhase) :
    (l.resumeServer phase).2.stops = l.stops := by
  cases phase with
  | draining => rfl
  | closing connections => exact stops_drainServer _ _

theorem leaves_resumeStop {pc : StopPc} (hpc : l.stops[t]? = some pc)
    (h : l.resumeStop t pc = some l') : Leaves t l l' := by
  have ht := lt_length_of_getElem? hpc
  cases pc with
  | cancelling sid task =>
      simp only [resumeStop] at h
      split at h
      · cases h
        exact leaves_serverStopped (l.stops_stopServer ▸ ht) l.front_stopServer
      · cases h
  | stoppingServer phase =>
      cases h
      exact leaves_serverStopped (l.stops_resumeServer phase ▸ ht) (l.front_resumeServer phase)
  | stoppingDriver =>
      cases h
      exact leaves_driverStopped ht rfl
  | watching sid =>
      simp only [resumeStop] at h
      split at h
      · cases h
      · cases h
        exact leaves_clear ht rfl
  | called | returned | raised => cases h

theorem leaves_failStop {pc : StopPc} {e : PyErr} (hpc : l.stops[t]? = some pc)
    (h : l.failStop t e pc = some l') : Leaves t l l' := by
  have ht := lt_length_of_getElem? hpc
  cases pc with
  | stoppingServer | stoppingDriver =>
      cases h
      exact .goto nofun rfl
  | watching sid =>
      simp only [failStop] at h
      split at h
      · cases h
        exact leaves_clear ht rfl
      · cases h
  | called | cancelling | returned | raised => cases h

/-- **A call of `stop` keeps the mirror unless it returns and there was an active client.** -/
theorem Leaves.mirrored (h : Leaves t l l') (hl : l.remote.Mirrored) :
    l'.remote.accessory.isSome = l.remote.accessory.isSome ∧
      (l'.remote.Mirrored ↔ (l'.stops[t]? = some .returned →
        l.remote.accessory = none ∨ l.remote.activeClient = none)) := by
  rcases h with ⟨hgoes, hfront⟩ | ⟨hreturns, hfront⟩
  · have hsame := AppleTVHomeKitRemote.Mirrors.same hfront
    exact ⟨hsame.accessory, iff_of_true (hsame.mirrored hl) fun h ↦ absurd h hgoes⟩
  · simp only [AppleTVHomeKitRemote.front, Prod.mk.injEq] at hfront
    obtain ⟨haccessory, hidentifier, hclient, -⟩ := hfront
    refine ⟨by rw [haccessory], ?_⟩
    rw [forall_prop_of_true hreturns]
    have hmirror : l'.remote.mirror = ⟨l.remote.activeIdentifier, 0⟩ := by
      rw [AppleTVHomeKitRemote.mirror, hidentifier, hclient]
      rfl
    constructor
    · intro hl'
      cases ha : l.remote.accessory with
      | none => exact .inl rfl
      | some a =>
          have hcleared := hl' a (haccessory.trans ha)
          rw [hmirror, hl a ha] at hcleared
          exact .inr (AppleTVHomeKitRemote.activeChar_mirror_eq_zero.mp
            (congrArg Accessory.activeChar hcleared))
    · intro hcases a ha
      rw [haccessory] at ha
      rcases hcases with hnone | hnone
      · rw [hnone] at ha
        cases ha
      · rw [hmirror, hl a ha, AppleTVHomeKitRemote.mirror, hnone]
        rfl

theorem Leaves.siriAdvertised (h : Leaves t l l') :
    l'.remote.siriAdvertised = l.remote.siriAdvertised := by
  rcases h with ⟨-, hfront⟩ | ⟨-, hfront⟩
  · exact (AppleTVHomeKitRemote.Mirrors.same hfront).siriAdvertised
  · simp only [AppleTVHomeKitRemote.front, Prod.mk.injEq] at hfront
    exact hfront.2.2.2

/-- A call of `stop` that clears in its first step finds no accessory: otherwise it waits for
the server or the driver, of which one is running. -/
theorem accessory_of_returned (hbusy : ¬(l.started = false ∧ l.listening = false))
    (h : (serverStopped t l.stopServer).stops[t]? = some .returned) :
    l.remote.accessory = none := by
  have hclosed : l.remote.closeAll.accessory = l.remote.accessory :=
    congrArg Prod.fst (l.remote.apart_closings l.remote.serverConnections).front
  simp only [stopServer, drainServer] at h
  split at h
  · cases eq_returned_of_gotoStop h
  · next hlistening =>
    have hstarted : l.started = true :=
      Bool.of_not_eq_false fun hs ↦ hbusy ⟨hs, Bool.eq_false_iff.mpr hlistening⟩
    split at h
    · simp only [serverStopped, clearServer, hstarted, Bool.and_true] at h
      split at h
      · cases eq_returned_of_gotoStop h
      · next hnone =>
        rw [← hclosed]
        exact Option.not_isSome_iff_eq_none.mp hnone
    · cases eq_returned_of_gotoStop h

/-- The first step of `stop` keeps the mirror. -/
theorem mirrors_enterStop (opus : OpusEncoder ε) (ht : t < l.stops.length) :
    l.remote.Mirrors (l.enterStop opus t).remote := by
  have hserver : ∀ b : Lifecycle ε T, t < b.stops.length → b.remote.front = l.remote.front →
      ¬(b.started = false ∧ b.listening = false) →
      l.remote.Mirrors (serverStopped t b.stopServer).remote := by
    intro b hb hfront hbusy
    have hleaves : Leaves t l (serverStopped t b.stopServer) :=
      leaves_serverStopped (b.stops_stopServer ▸ hb) (b.front_stopServer.trans hfront)
    refine ⟨hleaves.siriAdvertised, ?_, fun hl ↦ (hleaves.mirrored hl).2.mpr fun hret ↦ ?_⟩
    · rcases hleaves with ⟨-, hsame⟩ | ⟨-, hsame⟩ <;>
        exact congrArg Option.isSome (congrArg Prod.fst hsame)
    · exact .inl ((congrArg Prod.fst hfront).symm.trans (accessory_of_returned hbusy hret))
  rcases l.enterStop_cases opus t with ⟨-, -, heq⟩ | ⟨hbusy, heq | ⟨sid, u, -, heq⟩⟩
  · rw [heq]
    exact .refl _
  · rw [heq]
    exact hserver l ht rfl hbusy
  · rw [heq, cancelled]
    split
    · exact hserver _ ht rfl hbusy
    · exact .same rfl

end

/-! ## One step -/

section

variable {ε : Type} {json : JsonText} {opus : OpusEncoder ε} {formats : CharFormats}
variable {l l' : Lifecycle ε json.Text} {a : HapLabel}

/-- `start` makes the characteristics, which hold zero. -/
theorem mirrored_enterStart (t : Nat) (hl : l.remote.Mirrored) :
    (l.remote.accessory.isSome = true → (l.enterStart t).remote.accessory.isSome = true) ∧
      ((l.enterStart t).remote.Mirrored ↔ (l.started = false → l.remote.accessory = none →
        l.remote.activeIdentifier = 0 ∧ l.remote.activeClient = none)) := by
  simp only [enterStart]
  split
  · next hstarted =>
    exact ⟨id, iff_of_true hl fun h ↦ absurd hstarted (Bool.eq_false_iff.mp h)⟩
  · next hstarted =>
    rw [forall_prop_of_true (Bool.eq_false_iff.mpr hstarted)]
    have hmade : ∀ b : Lifecycle ε json.Text, b.remote = { l.remote with
        accessory := l.remote.accessory.or (some ⟨0, 0⟩) } →
        (l.remote.accessory.isSome = true → b.remote.accessory.isSome = true) ∧
          (b.remote.Mirrored ↔ (l.remote.accessory = none →
            l.remote.activeIdentifier = 0 ∧ l.remote.activeClient = none)) := by
      intro b hb
      rw [hb]
      cases ha : l.remote.accessory with
      | some a =>
          refine ⟨fun _ ↦ rfl, iff_of_true ?_ (by rintro ⟨⟩)⟩
          rintro _ ⟨⟩
          exact hl a ha
      | none =>
          refine ⟨(by rintro ⟨⟩), ?_⟩
          rw [forall_prop_of_true rfl]
          constructor
          · intro hmirrored
            obtain ⟨hidentifier, hactive⟩ := Accessory.mk.inj (hmirrored _ rfl)
            exact ⟨hidentifier.symm, AppleTVHomeKitRemote.activeChar_mirror_eq_zero.mp hactive.symm⟩
          · rintro ⟨hidentifier, hclient⟩ _ ⟨⟩
            rw [AppleTVHomeKitRemote.mirror, hidentifier, hclient]
            rfl
    split
    · exact hmade _ rfl
    · exact hmade _ rfl

/-- **A step keeps the mirror exactly when it spares it.** -/
theorem mirrored_hapStep (hl : l.remote.Mirrored) (h : l.hapStep json opus formats a = some l') :
    (l.remote.accessory.isSome = true → l'.remote.accessory.isSome = true) ∧
      (l'.remote.Mirrored ↔ l.SparesMirror json opus formats a) := by
  have hkeeps : l.remote.Mirrors l'.remote → l.SparesMirror json opus formats a →
      (l.remote.accessory.isSome = true → l'.remote.accessory.isSome = true) ∧
        (l'.remote.Mirrored ↔ l.SparesMirror json opus formats a) := fun hmirrors hspares ↦
    ⟨fun hsome ↦ hmirrors.accessory.trans hsome, iff_of_true (hmirrors.mirrored hl) hspares⟩
  cases a with
  | writeActiveIdentifier value client =>
      obtain ⟨a, ha, rfl⟩ := Option.map_eq_some_iff.mp h
      obtain ⟨hsome, hiff⟩ :=
        AppleTVHomeKitRemote.mirrored_writeActiveIdentifier formats value client ha
      exact ⟨fun _ ↦ hsome, hiff hl⟩
  | writeActive value client =>
      obtain ⟨a, ha, rfl⟩ := Option.map_eq_some_iff.mp h
      exact hkeeps (AppleTVHomeKitRemote.mirrors_writeActive formats value client ha) trivial
  | read name =>
      obtain ⟨a, ha, rfl⟩ := Option.map_eq_some_iff.mp h
      exact hkeeps (AppleTVHomeKitRemote.mirrors_getValue ha name) trivial
  | lifecycle a =>
      cases a with
      | start | stop =>
          cases h
          exact hkeeps (.refl _) trivial
      | enterStart t =>
          simp only [hapStep, Lifecycle.step] at h
          split at h
          · cases h
            exact mirrored_enterStart t hl
          · cases h
      | enterStop t =>
          simp only [hapStep, Lifecycle.step] at h
          split at h
          · next hcalled =>
            cases h
            exact hkeeps (mirrors_enterStop opus (lt_length_of_getElem? hcalled)) trivial
          · cases h
      | resumeStart t =>
          obtain ⟨pc, -, hresume⟩ := Option.bind_eq_some_iff.mp h
          exact hkeeps (.same (front_resumeStart hresume)) trivial
      | failStart t e =>
          obtain ⟨pc, -, hfail⟩ := Option.bind_eq_some_iff.mp h
          exact hkeeps (.same (front_failStart hfail)) trivial
      | resumeStop t =>
          obtain ⟨pc, hpc, hresume⟩ := Option.bind_eq_some_iff.mp h
          obtain ⟨hsome, hiff⟩ := (leaves_resumeStop hpc hresume).mirrored hl
          refine ⟨fun h ↦ hsome.trans h, hiff.trans ⟨fun hl' l₁ hl₁ ↦ ?_, fun hall ↦ hall l' h⟩⟩
          cases Option.some.inj (hl₁.symm.trans h)
          exact hl'
      | failStop t e =>
          obtain ⟨pc, hpc, hfail⟩ := Option.bind_eq_some_iff.mp h
          obtain ⟨hsome, hiff⟩ := (leaves_failStop hpc hfail).mirrored hl
          refine ⟨fun h ↦ hsome.trans h, hiff.trans ⟨fun hl' l₁ hl₁ ↦ ?_, fun hall ↦ hall l' h⟩⟩
          cases Option.some.inj (hl₁.symm.trans h)
          exact hl'
      | remote a =>
          have htouches : a.touchesMirror = false := by
            cases a <;> first | rfl | cases h
          have hstep : l.step json opus (.remote a) = some l' := by
            cases a <;> first | exact h | cases htouches
          obtain ⟨remote, hremote, rfl⟩ := step_remote hstep
          exact hkeeps (AppleTVHomeKitRemote.mirrors_step htouches hremote) trivial
      | watchCancelled sid =>
          simp only [hapStep, Lifecycle.step] at h
          split at h
          · split at h
            · cases h
              exact hkeeps (.same rfl) trivial
            · cases h
          · cases h

end

end Lifecycle

/-- A controller from its construction on, with its calls of `start` and `stop` and the HAP
operations on its characteristics. -/
def characteristics {ε : Type} (json : JsonText) (opus : OpusEncoder ε) (formats : CharFormats)
    (file : Option json.Text) : System (Lifecycle ε json.Text) HapLabel where
  init l := l = .new json file
  step l a := l.hapStep json opus formats a

/-! ## Runs -/

/-- **The characteristics mirror the controller in every state of a run, and every change is
notified, exactly when every step spares the mirror.** -/
theorem mirrored_iff {ε : Type} (json : JsonText) (opus : OpusEncoder ε) (formats : CharFormats)
    (file : Option json.Text) (h : List (Lifecycle ε json.Text × HapLabel))
    (l : Lifecycle ε json.Text) (hrun : (characteristics json opus formats file).Run h l) :
    (l.remote.Mirrored ∧ ∀ p ∈ h, p.1.remote.Mirrored ∧
        ∀ l', p.1.hapStep json opus formats p.2 = some l' → p.1.remote.Notifies l'.remote) ↔
      ∀ p ∈ h, p.1.SparesMirror json opus formats p.2 := by
  induction hrun with
  | @init l hinit =>
      have hinit : l = .new json file := hinit
      subst hinit
      refine ⟨fun _ ↦ List.forall_mem_nil _, fun _ ↦ ⟨?_, List.forall_mem_nil _⟩⟩
      rintro a ⟨⟩
  | @step h l l' a hrun hstep ih =>
      have hstep : l.hapStep json opus formats a = some l' := hstep
      simp only [List.mem_append, List.mem_singleton, or_imp, forall_and, forall_eq] at ih ⊢
      constructor
      · rintro ⟨hl', ⟨hmirrored, hl⟩, hnotified, -⟩
        exact ⟨ih.mp ⟨hl, hmirrored, hnotified⟩, (Lifecycle.mirrored_hapStep hl hstep).2.mp hl'⟩
      · rintro ⟨hbefore, ha⟩
        obtain ⟨hl, hmirrored, hnotified⟩ := ih.mpr hbefore
        obtain ⟨hsome, hiff⟩ := Lifecycle.mirrored_hapStep hl hstep
        have hl' := hiff.mpr ha
        refine ⟨hl', ⟨hmirrored, hl⟩, hnotified, fun l₁ hl₁ ↦ ?_⟩
        cases Option.some.inj (hl₁.symm.trans hstep)
        exact hl.notifies hl' hsome

/-- A number that a client writes. -/
def numberOf : Obj → Except PyErr Int
  | .int n => .ok n
  | .bool b => .ok (if b then 1 else 0)
  | _ => .error (.valueError "value must be a number")

/-- `uint32` without bounds, and `uint8` in the range of 0 to 1. -/
def numberFormats : CharFormats where
  activeIdentifier := numberOf
  active value := (numberOf value).map fun n ↦ max 0 (min n 1)
  active_mem value n h := by
    cases hnumber : numberOf value with
    | error e =>
        rw [hnumber] at h
        cases h
    | ok m =>
        rw [hnumber] at h
        obtain rfl : max 0 (min m 1) = n := Except.ok.inj h
        omega

/-- A controller is started and paired, and a client activates its target and deactivates it. -/
def deactivated : List HapLabel :=
  [.lifecycle .start, .lifecycle (.enterStart 0), .lifecycle (.resumeStart 0),
    .lifecycle (.resumeStart 0),
    .lifecycle (.remote (.targetListWrite (.ofString "AQECAgYBBAEAAAA=") (some ⟨"hub", 1⟩) true)),
    .writeActive (.int 1) (some ⟨"hub", 1⟩), .read .active,
    .writeActive (.int 0) (some ⟨"hub", 1⟩)]

theorem mirrored_iff_deactivated :
    ∃ l, (characteristics .documents .verbatim numberFormats none).exec (.new .documents none)
        deactivated = some l ∧
      l.remote.accessory = some ⟨1, 0⟩ ∧
      ((l.remote.Mirrored ∧ ∀ p ∈ (characteristics .documents .verbatim numberFormats none).trace
          (.new .documents none) deactivated,
          p.1.remote.Mirrored ∧ ∀ l', p.1.hapStep .documents .verbatim numberFormats p.2 = some l' →
            p.1.remote.Notifies l'.remote) ↔
        ∀ p ∈ (characteristics .documents .verbatim numberFormats none).trace
          (.new .documents none) deactivated,
          p.1.SparesMirror .documents .verbatim numberFormats p.2) := by
  have hrun : ((characteristics .documents .verbatim numberFormats none).exec
      (.new .documents none) deactivated).map (fun l ↦ l.remote.accessory) =
        some (some ⟨1, 0⟩) := by
    decide +kernel
  obtain ⟨l, hl, haccessory⟩ := Option.map_eq_some_iff.mp hrun
  have hinit : (characteristics .documents .verbatim numberFormats none).Run []
      (.new .documents none) := .init rfl
  exact ⟨l, hl, haccessory,
    mirrored_iff .documents .verbatim numberFormats none _ l (hinit.exec hl)⟩

/-- The targets file of a controller with target 1, which is selected. -/
def selectedFile : Obj :=
  .dict [(.text "version", .int 1), (.text "active_identifier", .int 1),
    (.text "targets", .dict [(.text "1", .dict [(.text "target_identifier", .int 1)])])]

/-- The selection that was loaded is not in the characteristic after `start`, so that its
clearing is not notified. -/
theorem not_mirrored_of_loaded :
    ∃ l, (characteristics .documents .verbatim numberFormats (some selectedFile)).Reachable l ∧
      l.started = true ∧ ¬ l.remote.Mirrored ∧
      ∃ l', l.hapStep .documents .verbatim numberFormats
        (.lifecycle (.remote (.setActiveIdentifier 0))) = some l' ∧
        ¬ l.remote.Notifies l'.remote := by
  have hrun : ((characteristics .documents .verbatim numberFormats (some selectedFile)).exec
      (.new .documents (some selectedFile)) [.lifecycle .start, .lifecycle (.enterStart 0),
        .lifecycle (.resumeStart 0), .lifecycle (.resumeStart 0)]).map (fun l ↦
          (l.started, l.remote.accessory, l.remote.activeIdentifier,
            (l.hapStep .documents .verbatim numberFormats
              (.lifecycle (.remote (.setActiveIdentifier 0)))).map fun l' ↦
                (l'.remote.accessory, l'.remote.activeIdentifier))) =
      some (true, some ⟨0, 0⟩, 1, some (some ⟨0, 0⟩, 0)) := by
    decide +kernel
  obtain ⟨l, hl, hfound⟩ := Option.map_eq_some_iff.mp hrun
  simp only [Prod.mk.injEq, Option.map_eq_some_iff] at hfound
  obtain ⟨hstarted, haccessory, hidentifier, l', hl', haccessory', hidentifier'⟩ := hfound
  have hinit : (characteristics .documents .verbatim numberFormats (some selectedFile)).Reachable
      (.new .documents (some selectedFile)) := .init rfl
  refine ⟨l, hinit.exec hl, hstarted, fun hmirrored ↦ ?_, l', hl', fun hnotifies ↦ ?_⟩
  · have hzero := congrArg Accessory.activeIdentifierChar (hmirrored _ haccessory)
    rw [AppleTVHomeKitRemote.mirror, hidentifier] at hzero
    cases hzero
  · have hchanged : l'.remote.activeIdentifier ≠ l.remote.activeIdentifier := by
      rw [hidentifier, hidentifier']
      decide
    obtain ⟨a', ha', hne⟩ := hnotifies.activeIdentifier _ haccessory hchanged
    rw [haccessory'] at ha'
    cases ha'
    exact hne rfl

end AtvRemote.Remote
