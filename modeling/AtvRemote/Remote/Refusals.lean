import AtvRemote.Remote.Pairing
import AtvRemote.Remote.Switch

/-!
# Targeted commands that are refused

`press` and `start_siri` switch to their target before they check whether it is active, and
switching leaves no target active.  A command that switches is therefore refused with the
selection changed; one that does not switch changes nothing (`refused_iff`).
-/

namespace AtvRemote.Remote

open Lib Audio

namespace AppleTVHomeKitRemote

/-- The selection and the active client are the same, in memory and on file, and no session
was touched. -/
structure Spares {ε T : Type} (r r' : AppleTVHomeKitRemote ε T) : Prop where
  activeIdentifier : r'.activeIdentifier = r.activeIdentifier
  activeClient : r'.activeClient = r.activeClient
  targetsFile : r'.targetsFile = r.targetsFile
  sessions : ∀ (sid : Nat) (u : Utterance ε), r.sessions[sid]? = some u → r'.sessions[sid]? = some u

theorem Spares.refl {ε T : Type} (r : AppleTVHomeKitRemote ε T) : r.Spares r :=
  ⟨rfl, rfl, rfl, fun _ _ hu ↦ hu⟩

/-- A switch is a change. -/
theorem Switched.not_spares {ε T : Type} {r r' r'' : AppleTVHomeKitRemote ε T} {identifier : Int}
    (h : r.Switched identifier r') (hne : identifier ≠ r.activeIdentifier)
    (hsame : r''.activeIdentifier = r'.activeIdentifier) : ¬ r.Spares r'' := by
  intro hspares
  rw [← hspares.activeIdentifier, hsame] at hne
  exact hne h.activeIdentifier.symm

/-- The step is one of a call of `start_siri`. -/
def Label.ofSiri (t : Nat) : Label → Prop
  | .enterSiri t' | .acquireSiri t' | .giveUpSiri t' _ | .runSiri t' _ => t' = t
  | _ => False

section

variable {ε : Type} {json : JsonText} {opus : OpusEncoder ε}
variable {r r' : AppleTVHomeKitRemote ε json.Text} {identifier : Int}

/-- A target that is not switched to is found selected, or refused. -/
theorem selectSiri_of_not_switches (h : ¬ r.Switches identifier) :
    (r.selectSiri json (some identifier)).2 = r := by
  simp only [selectSiri]
  split
  · exact (setActiveIdentifier_of_not_switches h).1
  · rfl

theorem selectSiri_of_switches (h : r.Switches identifier) :
    r.Switched identifier (r.selectSiri json (some identifier)).2 := by
  simp only [selectSiri]
  rw [if_pos h.2.2]
  exact (setActiveIdentifier_of_switches h).1

variable (opus)

/-- Without an active client there is no Siri session. -/
theorem createSiri_of_inactive (hinactive : r.activeClient = none) (created : Option PyErr) :
    ∃ e, r.createSiri json opus created = (.error e, r) := by
  simp only [createSiri, hinactive, Option.isNone_none, if_true]
  split
  · exact ⟨_, rfl⟩
  · exact ⟨_, rfl⟩

variable {opus}

variable (json) (opus)

/-- `start_siri` behind the lock raises when it switches, and has switched. -/
theorem startSiriLocked_of_switches (h : r.Switches identifier) (created : Option PyErr) :
    ∃ e b, r.Switched identifier b ∧ r.startSiriLocked json opus (some identifier) created =
      (.error e, { b with siriLocked := false }) := by
  have hswitched := selectSiri_of_switches h
  rw [startSiriLocked]
  generalize r.selectSiri json (some identifier) = x at hswitched ⊢
  obtain ⟨_ | _, b⟩ := x
  · exact ⟨_, b, hswitched, rfl⟩
  · obtain ⟨e, heq⟩ := createSiri_of_inactive opus hswitched.activeClient created
    dsimp only [thenDo] at heq ⊢
    rw [heq]
    exact ⟨e, b, hswitched, rfl⟩

variable {json} {opus}

variable (json) (opus)

/-- `start_siri` behind the lock changes nothing when it raises without a switch. -/
theorem startSiriLocked_of_not_switches (h : ¬ r.Switches identifier) (created : Option PyErr) :
    (∃ e, r.startSiriLocked json opus (some identifier) created =
      (.error e, { r with siriLocked := false })) ∨
    ∃ sid b, b.siriCalls = r.siriCalls ∧
      r.startSiriLocked json opus (some identifier) created = (.ok sid, b) := by
  have hsame := selectSiri_of_not_switches h
  rw [startSiriLocked]
  generalize r.selectSiri json (some identifier) = x at hsame ⊢
  obtain ⟨_ | _, b⟩ := x
  · obtain rfl : b = r := hsame
    exact .inl ⟨_, rfl⟩
  · obtain rfl : b = r := hsame
    dsimp only [thenDo]
    rcases b.createSiri_cases opus created with ⟨e, heq⟩ | ⟨c, -, -, heq⟩
    · rw [heq]
      exact .inl ⟨e, rfl⟩
    · rw [heq]
      refine .inr ⟨_, _, ?_, rfl⟩
      rfl

variable {json} {opus}

/-- Where a call is that moves. -/
theorem pc_gotoSiri {t : Nat} {k : SiriCall} (hk : r.siriCalls[t]? = some k)
    (hcalls : r'.siriCalls = r.siriCalls) (pc : SiriPc) :
    (r'.gotoSiri json t pc).siriCalls[t]?.map SiriCall.pc = some pc := by
  rw [gotoSiri, List.getElem?_modify_eq, hcalls, hk]
  rfl

/-- **A step of a call of `start_siri` that does not return changes nothing exactly when it does
not switch.** -/
theorem siriRefused_iff {t : Nat} {k : SiriCall} {a : Label} (hk : r.siriCalls[t]? = some k)
    (htarget : k.target = some identifier) (ha : a.ofSiri t) :
    (∀ r', r.step json opus a = some r' →
        (∀ sid, r'.siriCalls[t]?.map SiriCall.pc ≠ some (.returned sid)) → r.Spares r') ↔
      ¬((∃ created, a = .runSiri t created) ∧ k.pc = .acquired ∧ r.Switches identifier) := by
  cases a with
  | enterSiri t' =>
      obtain rfl : t' = t := ha
      refine iff_of_true (fun r' hstep _ ↦ ?_) (by rintro ⟨⟨_, ⟨⟩⟩, -⟩)
      simp only [step, stepSiri] at hstep
      split at hstep
      · split at hstep
        · cases hstep
          exact ⟨rfl, rfl, rfl, fun _ _ hu ↦ hu⟩
        · split at hstep
          · cases hstep
            exact ⟨rfl, rfl, rfl, fun _ _ hu ↦ hu⟩
          · cases hstep
            exact ⟨rfl, rfl, rfl, fun _ _ hu ↦ hu⟩
      · cases hstep
  | acquireSiri t' | giveUpSiri t' e =>
      refine iff_of_true (fun r' hstep _ ↦ ?_) (by rintro ⟨⟨_, ⟨⟩⟩, -⟩)
      simp only [step] at hstep
      split at hstep
      · cases hstep
        exact ⟨rfl, rfl, rfl, fun _ _ hu ↦ hu⟩
      · cases hstep
  | runSiri t' created =>
      obtain rfl : t' = t := ha
      obtain ⟨target, positive, pc⟩ := k
      cases htarget
      have hcond : ((∃ created', Label.runSiri t' created = .runSiri t' created') ∧
          pc = .acquired ∧ r.Switches identifier) ↔ pc = .acquired ∧ r.Switches identifier :=
        and_iff_right ⟨created, rfl⟩
      rw [hcond]
      by_cases hpc : pc = .acquired
      · subst hpc
        have hraises : ∀ e b,
            r.startSiriLocked json opus (some identifier) created = (.error e, b) →
            r.step json opus (.runSiri t' created) = some (b.gotoSiri json t' (.raised e)) := by
          intro e b heq
          simp only [step, hk, heq]
        have hreturns : ∀ sid b,
            r.startSiriLocked json opus (some identifier) created = (.ok sid, b) →
            r.step json opus (.runSiri t' created) = some (b.gotoSiri json t' (.returned sid)) := by
          intro sid b heq
          simp only [step, hk, heq]
        by_cases hswitches : r.Switches identifier
        · obtain ⟨e, b, hswitched, heq⟩ :=
            startSiriLocked_of_switches json opus hswitches created
          rw [hraises e _ heq]
          refine iff_of_false (fun hall ↦ ?_) (not_not.mpr ⟨rfl, hswitches⟩)
          have hnot : ¬ r.Spares (gotoSiri json { b with siriLocked := false } t' (.raised e)) :=
            hswitched.not_spares hswitches.2.2 rfl
          refine hnot (hall _ rfl fun sid hsid ↦ ?_)
          have hpc : (gotoSiri json { b with siriLocked := false } t'
              (.raised e)).siriCalls[t']?.map SiriCall.pc = some (.raised e) :=
            pc_gotoSiri hk hswitched.siriCalls (.raised e)
          rw [hpc] at hsid
          cases hsid
        · refine iff_of_true (fun r' hr' hnot ↦ ?_) fun h ↦ hswitches h.2
          rcases startSiriLocked_of_not_switches json opus hswitches created with
            ⟨e, heq⟩ | ⟨sid, b, hcalls, heq⟩
          · rw [hraises e _ heq] at hr'
            cases hr'
            exact ⟨rfl, rfl, rfl, fun _ _ hu ↦ hu⟩
          · rw [hreturns sid _ heq] at hr'
            cases hr'
            exact absurd (pc_gotoSiri hk hcalls _) (hnot sid)
      · refine iff_of_true (fun r' hr' ↦ ?_) fun h ↦ hpc h.1
        simp only [step, hk] at hr'
        split at hr'
        · next heq =>
          cases heq
          exact absurd rfl hpc
        · cases hr'
  | _ => exact ha.elim

end

end AppleTVHomeKitRemote

namespace Keypad

/-- The step is one of a call of `press`. -/
def Label.ofPress (t : Nat) : Label → Prop
  | .start t' _ | .wake t' _ | .cancel t' => t' = t
  | _ => False

section

variable {ε : Type} {json : JsonText} {opus : OpusEncoder ε}
variable {b : Keypad ε json.Text} {identifier : Int}

/-- Sending an event does not touch the controller. -/
theorem remote_sendThen (b : Keypad ε json.Text) (t : Nat) (button : Button) (state : ButtonState)
    (now : UInt64) (pc : PressPc) : (b.sendThen t button state now pc).remote = b.remote := by
  rcases b.sendThen_cases t button state now pc with ⟨-, last, e, heq⟩ | ⟨-, last, heq⟩
  · rw [heq]
    rfl
  · rw [heq]
    rfl

variable (json)

/-- A press that switches raises without an event, and has switched. -/
theorem startPress_of_switches {t : Nat} {p : Press} {button : Button}
    (hbutton : pressedButton p.button p.holdMs = .ok button) (htarget : p.target = some identifier)
    (h : b.remote.Switches identifier) (now : UInt64) :
    ∃ remote last e, b.remote.Switched identifier remote ∧
      b.startPress json t p now =
        gotoPress { b with remote, lastButtonEvent := last } t (.raised e) := by
  have hswitched := AppleTVHomeKitRemote.selectSiri_of_switches h
  simp only [startPress, hbutton, htarget]
  generalize b.remote.selectSiri json (some identifier) = x at hswitched ⊢
  obtain ⟨_ | _, remote⟩ := x
  · exact ⟨remote, b.lastButtonEvent, _, hswitched, rfl⟩
  · rcases sendThen_cases { b with remote } t button .down now (.holding button) with
      ⟨-, last, e, heq⟩ | ⟨hsend, -⟩
    · exact ⟨remote, last, e, hswitched, heq⟩
    · have hactive := hsend.active
      rw [show ({ b with remote } : Keypad ε json.Text).remote.activeClient = none
        from hswitched.activeClient] at hactive
      cases hactive

variable {json}

/-- A press that does not switch does not touch the controller. -/
theorem startPress_of_not_switches {t : Nat} {p : Press} (htarget : p.target = some identifier)
    (h : ¬((∃ button, pressedButton p.button p.holdMs = .ok button) ∧
      b.remote.Switches identifier)) (now : UInt64) :
    (b.startPress json t p now).remote = b.remote := by
  rw [startPress]
  split
  · rfl
  · next button hbutton =>
    have hsame : (b.remote.selectSiri json (some identifier)).2 = b.remote :=
      AppleTVHomeKitRemote.selectSiri_of_not_switches fun hswitches ↦
        h ⟨⟨button, hbutton⟩, hswitches⟩
    rw [htarget]
    split
    · next heq =>
      rw [heq] at hsame
      exact hsame
    · next heq =>
      rw [heq] at hsame
      exact (remote_sendThen _ t button .down now _).trans hsame

/-- **A press that raises before it has sent an event changes nothing exactly when it does not
switch.** -/
theorem pressRefused_iff (hb : b.Staged) {t : Nat} {p : Press} {a : Label}
    (hp : b.presses[t]? = some p) (htarget : p.target = some identifier) (ha : a.ofPress t) :
    (∀ b' e, b.step json opus a = some b' → b'.presses[t]?.map Press.pc = some (.raised e) →
        b'.eventsOf t = [] → b.remote.Spares b'.remote) ↔
      ¬((∃ now, a = .start t now) ∧ p.pc = .start ∧
        (∃ button, pressedButton p.button p.holdMs = .ok button) ∧
        b.remote.Switches identifier) := by
  cases a with
  | start t' now =>
      obtain rfl : t' = t := ha
      have hcond : ((∃ now', Label.start t' now = .start t' now') ∧ p.pc = .start ∧
          (∃ button, pressedButton p.button p.holdMs = .ok button) ∧
            b.remote.Switches identifier) ↔ p.pc = .start ∧
          (∃ button, pressedButton p.button p.holdMs = .ok button) ∧
            b.remote.Switches identifier :=
        and_iff_right ⟨now, rfl⟩
      rw [hcond]
      by_cases hpc : p.pc = .start
      · have hstep : b.step json opus (.start t' now) = some (b.startPress json t' p now) := by
          obtain ⟨button, holdMs, target, pc⟩ := p
          cases hpc
          simp only [step, hp]
        rw [hstep]
        by_cases hswitches : (∃ button, pressedButton p.button p.holdMs = .ok button) ∧
            b.remote.Switches identifier
        · refine iff_of_false (fun hall ↦ ?_) (not_not.mpr ⟨hpc, hswitches⟩)
          obtain ⟨⟨button, hbutton⟩, hswitch⟩ := hswitches
          obtain ⟨remote, last, e, hswitched, heq⟩ :=
            startPress_of_switches json (t := t') hbutton htarget hswitch now
          have hsent := hb.sent t' p hp
          rw [hpc] at hsent
          rw [heq] at hall
          refine hswitched.not_spares hswitch.2.2 rfl (hall _ e rfl ?_ hsent)
          have hmoved : (gotoPress { b with remote, lastButtonEvent := last } t'
              (.raised e)).presses[t']? = some { p with pc := .raised e } :=
            getElem?_gotoPress_self rfl hp
          rw [hmoved]
          rfl
        · refine iff_of_true (fun b' e hb' _ _ ↦ ?_) fun h ↦ hswitches h.2
          cases hb'
          rw [startPress_of_not_switches htarget hswitches]
          exact .refl _
      · refine iff_of_true (fun b' e hb' ↦ ?_) fun h ↦ hpc h.1
        obtain ⟨button, holdMs, target, pc⟩ := p
        simp only [step, hp] at hb'
        split at hb'
        · next heq =>
          cases heq
          exact absurd rfl hpc
        · cases hb'
  | wake t' now =>
      refine iff_of_true (fun b' e hb' _ _ ↦ ?_) (by rintro ⟨⟨_, ⟨⟩⟩, -⟩)
      simp only [step] at hb'
      split at hb'
      · cases hb'
        rw [remote_sendThen]
        exact .refl _
      · cases hb'
  | cancel t' =>
      refine iff_of_true (fun b' e hb' _ _ ↦ ?_) (by rintro ⟨⟨_, ⟨⟩⟩, -⟩)
      simp only [step] at hb'
      split at hb'
      · cases hb'
        exact .refl _
      · cases hb'
        exact .refl _
      · cases hb'
  | _ => exact ha.elim

end

end Keypad

/-! ## Runs -/

/-- Every call has sent what belongs to its place, in every state that is reached. -/
theorem staged_of_reachable {ε : Type} {json : JsonText} {opus : OpusEncoder ε}
    {file : Option json.Text} {b : Keypad ε json.Text}
    (h : (keypads json opus file).Reachable b) : b.Staged := by
  refine h.invariant ?_ ?_
  · rintro b rfl
    exact Keypad.staged_new rfl rfl
  · exact fun b b' a hb hstep ↦ (Keypad.effect_step hstep).staged hb

/-- **A targeted command that is refused changes nothing exactly when it does not switch**: in
every state that is reached, and for every step of a call of `press` or of `start_siri`. -/
theorem refused_iff {ε : Type} (json : JsonText) (opus : OpusEncoder ε) (file : Option json.Text)
    (b : Keypad ε json.Text) (h : (keypads json opus file).Reachable b) (identifier : Int) :
    (∀ t p a, b.presses[t]? = some p → p.target = some identifier → a.ofPress t →
      ((∀ b' e, b.step json opus a = some b' → b'.presses[t]?.map Press.pc = some (.raised e) →
          b'.eventsOf t = [] → b.remote.Spares b'.remote) ↔
        ¬((∃ now, a = .start t now) ∧ p.pc = .start ∧
          (∃ button, pressedButton p.button p.holdMs = .ok button) ∧
          b.remote.Switches identifier))) ∧
    ∀ t k a, b.remote.siriCalls[t]? = some k → k.target = some identifier → a.ofSiri t →
      ((∀ r', b.remote.step json opus a = some r' →
          (∀ sid, r'.siriCalls[t]?.map SiriCall.pc ≠ some (.returned sid)) →
          b.remote.Spares r') ↔
        ¬((∃ created, a = .runSiri t created) ∧ k.pc = .acquired ∧
          b.remote.Switches identifier)) :=
  ⟨fun _ _ _ hp htarget ha ↦ Keypad.pressRefused_iff (staged_of_reachable h) hp htarget ha,
    fun _ _ _ hk htarget ha ↦ AppleTVHomeKitRemote.siriRefused_iff hk htarget ha⟩

/-- Targets 1 and 2 are added, and a client is active for the first. -/
def firstActive : List Keypad.Label :=
  [.remote .start, .remote (.targetListWrite (.ofString "AQECAgYBBAEAAAA=") (some ⟨"hub", 1⟩) true),
    .remote (.targetListWrite (.ofString "AQECAgYBBAIAAAA=") (some ⟨"hub", 1⟩) true),
    .remote (.activeWrite (.int 1) (some ⟨"hub", 1⟩))]

/-- A press and a `start_siri` for a target that is not known change nothing. -/
theorem refused_iff_unknown :
    ∃ b, (keypads .documents .verbatim none).exec ⟨.new .documents none, "", [], []⟩
        (firstActive ++ [.press (.number 1) 200 (some 3), .remote (.startSiri (some 3) true),
          .remote (.enterSiri 0)]) = some b ∧
      (∀ b' e, b.step .documents .verbatim (.start 0 1000) = some b' →
        b'.presses[0]?.map Press.pc = some (.raised e) → b'.eventsOf 0 = [] →
        b.remote.Spares b'.remote) ∧
      ∀ r', b.remote.step .documents .verbatim (.runSiri 0 none) = some r' →
        (∀ sid, r'.siriCalls[0]?.map SiriCall.pc ≠ some (.returned sid)) → b.remote.Spares r' := by
  have hend : ((keypads .documents .verbatim none).exec ⟨.new .documents none, "", [], []⟩
      (firstActive ++ [.press (.number 1) 200 (some 3), .remote (.startSiri (some 3) true),
        .remote (.enterSiri 0)])).map (fun b ↦ (b.presses[0]?, b.remote.siriCalls[0]?,
          decide (b.remote.Switches 3))) =
        some (some ⟨.number 1, 200, some 3, .start⟩, some ⟨some 3, true, .acquired⟩, false) := by
    decide +kernel
  obtain ⟨b, hb, hfound⟩ := Option.map_eq_some_iff.mp hend
  simp only [Prod.mk.injEq] at hfound
  obtain ⟨hp, hk, hswitches⟩ := hfound
  have hstays := of_decide_eq_false hswitches
  have hinit : (keypads .documents .verbatim none).Reachable ⟨.new .documents none, "", [], []⟩ :=
    .init rfl
  obtain ⟨hpress, hsiri⟩ := refused_iff .documents .verbatim none b (hinit.exec hb) 3
  refine ⟨b, hb, ?_, ?_⟩
  · exact (hpress 0 _ (.start 0 1000) hp rfl rfl).mpr fun h ↦ hstays h.2.2.2
  · exact (hsiri 0 _ (.runSiri 0 none) hk rfl rfl).mpr fun h ↦ hstays h.2.2

/-- A press for the second target is refused, and deselects the first. -/
theorem not_spares_press :
    ¬ ∀ b, (keypads .documents .verbatim none).Reachable b →
      ∀ (t : Nat) (now : UInt64) (p : Press) (b' : Keypad Unit JsonText.documents.Text) (e : PyErr),
        b.presses[t]? = some p → p.target ≠ none →
        b.step .documents .verbatim (.start t now) = some b' →
        b'.presses[t]?.map Press.pc = some (.raised e) → b'.eventsOf t = [] →
        b.remote.Spares b'.remote := by
  intro hall
  have hend : ((keypads .documents .verbatim none).exec ⟨.new .documents none, "", [], []⟩
      (firstActive ++ [.press (.number 1) 200 (some 2)])).bind
      (fun b ↦ (b.step .documents .verbatim (.start 0 1000)).map fun b' ↦
        (b.presses[0]?, b'.presses[0]?.map Press.pc, b'.eventsOf 0, b.remote.activeIdentifier,
          b'.remote.activeIdentifier)) =
        some (some ⟨.number 1, 200, some 2, .start⟩,
          some (.raised (.runtimeError "selected target is not active")), [], 1, 2) := by
    decide +kernel
  obtain ⟨b, hb, hstep⟩ := Option.bind_eq_some_iff.mp hend
  obtain ⟨b', hb', hfound⟩ := Option.map_eq_some_iff.mp hstep
  simp only [Prod.mk.injEq] at hfound
  obtain ⟨hp, hraised, hevents, hbefore, hafter⟩ := hfound
  have hinit : (keypads .documents .verbatim none).Reachable ⟨.new .documents none, "", [], []⟩ :=
    .init rfl
  have hspares := hall b (hinit.exec hb) 0 1000 _ b' _ hp nofun hb' hraised hevents
  rw [hspares.activeIdentifier, hbefore] at hafter
  cases hafter

end AtvRemote.Remote
