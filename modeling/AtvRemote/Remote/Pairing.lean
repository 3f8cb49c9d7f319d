import AtvRemote.Lib.Table
import AtvRemote.Remote.Active
import AtvRemote.Remote.Buttons

/-!
# Pairs of button events

A call of `press` that returns has sent two events (`Staged`), each for the target that was
selected when it was sent.  Nothing ties the second one to the target of the first:
`paired_iff` says that the events of every call are for one target exactly when no call wakes
up to another one that is active, and that this is so when no client makes a target active
while a call holds its button down on another.
-/

namespace AtvRemote.Remote

open Lib Audio

/-- `_send_button` gets through. -/
structure AppleTVHomeKitRemote.CanSend {ε T : Type} (r : AppleTVHomeKitRemote ε T) : Prop where
  selected : r.activeIdentifier ≠ 0
  active : r.activeClient.isSome = true
  started : r.accessory.isSome = true
  fits : 0 ≤ r.activeIdentifier ∧ r.activeIdentifier < 2 ^ 32

/-- What a call has sent so far. -/
def PressPc.Sent : PressPc → List ButtonEvent → Prop
  | .start, events => events = []
  | .holding button, events =>
      ∃ d, events = [d] ∧ d.state = .down ∧ d.button = button ∧ d.activeIdentifier ≠ 0
  | .returned, events =>
      ∃ d u, events = [d, u] ∧ d.state = .down ∧ u.state = .up ∧ u.button = d.button
  | .raised _, events => events = [] ∨ ∃ d, events = [d] ∧ d.state = .down

namespace Keypad

variable {ε T : Type}

/-- The events of a call. -/
def eventsOf (b : Keypad ε T) (t : Nat) : List ButtonEvent :=
  b.events.filterMap fun q ↦ if q.1 = t then some q.2 else none

/-- A call that sends `DOWN` and returns has sent `UP` for the same button to the same target,
and `UP` goes to no target that did not get the `DOWN` of the call. -/
structure Paired (b : Keypad ε T) : Prop where
  pairs : ∀ (t : Nat) (p : Press) (e : ButtonEvent), b.presses[t]? = some p →
    p.pc = .returned → (t, e) ∈ b.events → e.state = .down →
      ∃ e', (t, e') ∈ b.events ∧ e'.state = .up ∧ e'.button = e.button ∧
      e'.activeIdentifier = e.activeIdentifier
  ups : ∀ t e, (t, e) ∈ b.events → e.state = .up → ∃ e', (t, e') ∈ b.events ∧
    e'.state = .down ∧ e'.activeIdentifier = e.activeIdentifier

/-- A call that wakes up finds its target selected, if it can send. -/
def WakesOnTarget (b : Keypad ε T) : Label → Prop
  | .wake t _ => ∀ (p : Press) (button : Button) (e : ButtonEvent), b.presses[t]? = some p →
      p.pc = .holding button → (t, e) ∈ b.events → b.remote.CanSend →
        b.remote.activeIdentifier = e.activeIdentifier
  | _ => True

/-- No client makes a target active while a call holds its button down on another. -/
def ActivatesHeld (b : Keypad ε T) : Label → Prop
  | .remote (.activeWrite value (some _)) => value.truthy = true → b.remote.activeIdentifier ≠ 0 →
      ∀ (t : Nat) (p : Press) (button : Button) (e : ButtonEvent), b.presses[t]? = some p →
        p.pc = .holding button → (t, e) ∈ b.events → b.remote.activeIdentifier = e.activeIdentifier
  | _ => True

/-- Every call has sent what belongs to its place. -/
structure Staged (b : Keypad ε T) : Prop where
  sent : ∀ (t : Nat) (p : Press), b.presses[t]? = some p → p.pc.Sent (b.eventsOf t)
  calls : ∀ q ∈ b.events, q.1 < b.presses.length

/-- An active client is active for the target that a button is held down on. -/
def Aimed (b : Keypad ε T) : Prop :=
  ∀ (t : Nat) (p : Press) (button : Button) (e : ButtonEvent), b.presses[t]? = some p →
    p.pc = .holding button → (t, e) ∈ b.events → b.remote.activeClient.isSome = true →
      b.remote.activeIdentifier = e.activeIdentifier

/-! ## Events -/

section Events

variable {b d : Keypad ε T} {t t' : Nat} {e : ButtonEvent}

theorem mem_eventsOf : e ∈ b.eventsOf t ↔ (t, e) ∈ b.events := by
  rw [eventsOf, List.mem_filterMap]
  constructor
  · rintro ⟨⟨t', e'⟩, hmem, heq⟩
    split at heq
    · next ht =>
      cases heq
      cases ht
      exact hmem
    · cases heq
  · exact fun hmem ↦ ⟨(t, e), hmem, if_pos rfl⟩

theorem eventsOf_append_self (h : d.events = b.events ++ [(t, e)]) :
    d.eventsOf t = b.eventsOf t ++ [e] := by
  rw [eventsOf, h, List.filterMap_append, ← eventsOf]
  simp

theorem eventsOf_append_of_ne (h : d.events = b.events ++ [(t, e)]) (hne : t' ≠ t) :
    d.eventsOf t' = b.eventsOf t' := by
  rw [eventsOf, h, List.filterMap_append, ← eventsOf]
  simp [Ne.symm hne]

theorem eventsOf_of_events (h : d.events = b.events) : d.eventsOf t = b.eventsOf t := by
  rw [eventsOf, eventsOf, h]

end Events

/-- **The events of a pair are for one target exactly when those of every call that returned
are.** -/
theorem Staged.paired_iff_forall {b : Keypad ε T} (hb : b.Staged) :
    b.Paired ↔ ∀ (t : Nat) (p : Press) (d u : ButtonEvent), b.presses[t]? = some p →
      p.pc = .returned → b.eventsOf t = [d, u] → u.activeIdentifier = d.activeIdentifier := by
  constructor
  · intro hpaired t p d u ht hreturned hevents
    have hsent := hb.sent t p ht
    rw [hreturned] at hsent
    obtain ⟨d', u', heq, hdown, hup, -⟩ := hsent
    rw [hevents] at heq
    cases heq
    have hmem : ∀ {e}, e ∈ [d, u] → (t, e) ∈ b.events := by
      intro e hmem
      rw [← hevents] at hmem
      exact mem_eventsOf.mp hmem
    obtain ⟨e, he, hstate, hsame⟩ := hpaired.ups t u (hmem (by simp)) hup
    have he : e ∈ [d, u] := hevents ▸ mem_eventsOf.mpr he
    rcases List.mem_pair.mp he with rfl | rfl
    · exact hsame.symm
    · rw [hup] at hstate
      cases hstate
  · intro hall
    constructor
    · intro t p e ht hreturned hmem hdown
      have hsent := hb.sent t p ht
      rw [hreturned] at hsent
      obtain ⟨d, u, hevents, -, hup, hbutton⟩ := hsent
      have he : e ∈ [d, u] := hevents ▸ mem_eventsOf.mpr hmem
      rcases List.mem_pair.mp he with rfl | rfl
      · refine ⟨u, mem_eventsOf.mp ?_, hup, hbutton, hall t p e u ht hreturned hevents⟩
        rw [hevents]
        simp
      · rw [hup] at hdown
        cases hdown
    · intro t e hmem hup
      have hlt := hb.calls _ hmem
      have ht : b.presses[t]? = some b.presses[t] := List.getElem?_eq_getElem hlt
      have hsent := hb.sent t _ ht
      have he : e ∈ b.eventsOf t := mem_eventsOf.mpr hmem
      cases hpc : b.presses[t].pc with
      | start =>
          rw [hpc] at hsent
          have hnil : b.eventsOf t = [] := hsent
          rw [hnil] at he
          cases he
      | holding button =>
          rw [hpc] at hsent
          obtain ⟨d, hevents, hdown, -⟩ := hsent
          rw [hevents] at he
          rw [List.mem_singleton.mp he, hdown] at hup
          cases hup
      | raised =>
          rw [hpc] at hsent
          rcases hsent with hnil | ⟨d, hevents, hdown⟩
          · rw [hnil] at he
            cases he
          · rw [hevents] at he
            rw [List.mem_singleton.mp he, hdown] at hup
            cases hup
      | returned =>
          rw [hpc] at hsent
          obtain ⟨d, u, hevents, hdown, -⟩ := hsent
          have hd : (t, d) ∈ b.events := mem_eventsOf.mp (by rw [hevents]; simp)
          have he : e ∈ [d, u] := hevents ▸ he
          rcases List.mem_pair.mp he with rfl | rfl
          · exact ⟨e, hd, hdown, rfl⟩
          · exact ⟨d, hd, hdown, (hall t _ d e ht hpc hevents).symm⟩

/-! ## What a step does -/

/-- An event has a value when its identifier fits. -/
theorem value_ok (e : ButtonEvent) :
    (∃ v, e.value = .ok v) ↔ 0 ≤ e.activeIdentifier ∧ e.activeIdentifier < 2 ^ 32 := by
  have hbytes : ∀ (tag : UInt8) (bytes : Bytes),
      ∃ part, Tlv8.encode [(tag, .bytes .bytes bytes)] = .ok part := fun _ _ ↦ ⟨_, rfl⟩
  obtain ⟨id, hid⟩ : ∃ part, Tlv8.encode [(buttonEventId, .int (100 + e.button.toInt))] =
      .ok part := by
    cases e.button <;> exact ⟨_, rfl⟩
  obtain ⟨state, hstate⟩ : ∃ part, Tlv8.encode [(buttonEventState, .int e.state.toInt)] =
      .ok part := by
    cases e.state <;> exact ⟨_, rfl⟩
  obtain ⟨timestamp, htimestamp⟩ := hbytes buttonEventTimestamp (toLE 8 e.timestamp.toNat)
  have hvalue : e.value = (do
      let identifier ← Tlv8.u32 e.activeIdentifier
      let identifier ← Tlv8.encode [(buttonEventActiveIdentifier, .bytes .bytes identifier)]
      return String.ofList (Base64.encode (id ++ state ++ timestamp ++ identifier))) := by
    rw [ButtonEvent.value, hid, hstate, htimestamp]
    rfl
  rw [hvalue, Tlv8.u32]
  split
  · next hneg =>
    constructor
    · rintro ⟨v, hv⟩
      cases hv
    · exact fun h ↦ absurd h.1 (by omega)
  · next hpos =>
    split
    · next hlt =>
      obtain ⟨part, hpart⟩ := hbytes buttonEventActiveIdentifier (toLE 4 e.activeIdentifier.toNat)
      refine ⟨fun _ ↦ ⟨Int.not_lt.mp hpos, hlt⟩, fun _ ↦ ?_⟩
      refine ⟨String.ofList (Base64.encode (id ++ state ++ timestamp ++ part)), ?_⟩
      rw [bind_ok, hpart]
      rfl
    · next hge =>
      constructor
      · rintro ⟨v, hv⟩
        cases hv
      · exact fun h ↦ absurd h.2 hge

/-- An event is sent, and the call goes on; or the call raises. -/
theorem sendThen_cases (b : Keypad ε T) (t : Nat) (button : Button) (state : ButtonState)
    (now : UInt64) (pc : PressPc) :
    (¬ b.remote.CanSend ∧ ∃ lastButtonEvent e, b.sendThen t button state now pc =
      gotoPress { b with lastButtonEvent } t (.raised e)) ∨
    (b.remote.CanSend ∧ ∃ lastButtonEvent, b.sendThen t button state now pc =
      gotoPress { b with
        lastButtonEvent, events := b.events ++ [(t, b.event button state now)] } t pc) := by
  rw [sendThen, sendButton]
  by_cases hselected : b.remote.activeIdentifier = 0
  · rw [if_pos hselected]
    exact .inl ⟨fun h ↦ h.selected hselected, _, _, rfl⟩
  · rw [if_neg hselected]
    cases hactive : b.remote.activeClient with
    | none =>
        refine .inl ⟨fun h ↦ ?_, _, _, rfl⟩
        have hsome := h.active
        rw [hactive] at hsome
        cases hsome
    | some client =>
        cases hvalue : (b.event button state now).value with
        | error e =>
            refine .inl ⟨fun h ↦ ?_, _, _, rfl⟩
            obtain ⟨v, hv⟩ := (value_ok (b.event button state now)).mpr h.fits
            rw [hvalue] at hv
            cases hv
        | ok v =>
            have hfits := (value_ok (b.event button state now)).mp ⟨v, hvalue⟩
            cases hstarted : b.remote.accessory with
            | none =>
                refine .inl ⟨fun h ↦ ?_, v,
                  .runtimeError "remote is not started; call await remote.start() first", ?_⟩
                · have hsome := h.started
                  rw [hstarted] at hsome
                  cases hsome
                · simp [hstarted]
            | some accessory =>
                refine .inr ⟨⟨hselected, ?_, ?_, hfits⟩, v, ?_⟩
                · rw [hactive]
                  rfl
                · rw [hstarted]
                  rfl
                · simp [hstarted, event]

/-- What a step can do to the calls and to their events. -/
inductive Effect (b : Keypad ε T) (a : Label) : Keypad ε T → Prop
  /-- The controller takes a step. -/
  | remote (label : AppleTVHomeKitRemote.Label) (remote : AppleTVHomeKitRemote ε T)
      (ha : a = .remote label)
      (h : AppleTVHomeKitRemote.Deactivates b.remote remote ∨
        ∃ value client, label = .activeWrite value (some client) ∧ value.truthy = true ∧
          b.remote.activeIdentifier ≠ 0 ∧ remote.activeClient = some client ∧
          remote.activeIdentifier = b.remote.activeIdentifier) :
      Effect b a { b with remote }
  | called (p : Press) (hp : p.pc = .start) (ha : ∀ t now, a ≠ .wake t now) :
      Effect b a { b with presses := b.presses ++ [p] }
  /-- A call raises. -/
  | raises (t : Nat) (p : Press) (remote : AppleTVHomeKitRemote ε T) (lastButtonEvent : String)
      (e : PyErr) (ht : b.presses[t]? = some p)
      (hp : p.pc = .start ∨ ∃ button, p.pc = .holding button)
      (hremote : AppleTVHomeKitRemote.Deactivates b.remote remote)
      (ha : ∀ t' now, a = .wake t' now → t' = t ∧ ¬ b.remote.CanSend) :
      Effect b a (gotoPress { b with remote, lastButtonEvent } t (.raised e))
  /-- A call holds its button down. -/
  | down (t : Nat) (p : Press) (remote : AppleTVHomeKitRemote ε T) (lastButtonEvent : String)
      (button : Button) (now : UInt64) (ht : b.presses[t]? = some p) (hp : p.pc = .start)
      (hremote : AppleTVHomeKitRemote.Deactivates b.remote remote) (hsend : remote.CanSend)
      (ha : ∀ t now, a ≠ .wake t now) :
      Effect b a (gotoPress { b with
        remote, lastButtonEvent
        events := b.events ++ [(t, ⟨button, .down, now, remote.activeIdentifier⟩)] } t
        (.holding button))
  /-- A call releases its button. -/
  | up (t : Nat) (p : Press) (lastButtonEvent : String) (button : Button) (now : UInt64)
      (ha : a = .wake t now) (ht : b.presses[t]? = some p) (hp : p.pc = .holding button)
      (hsend : b.remote.CanSend) :
      Effect b a (gotoPress { b with
        lastButtonEvent
        events := b.events ++ [(t, ⟨button, .up, now, b.remote.activeIdentifier⟩)] } t .returned)

section Steps

variable {json : JsonText} {opus : OpusEncoder ε} {b b' : Keypad ε json.Text} {a : Label}

theorem effect_startPress {t : Nat} {p : Press} (ht : b.presses[t]? = some p)
    (hp : p.pc = .start) (now : UInt64) : Effect b (.start t now) (b.startPress json t p now) := by
  have hselect : AppleTVHomeKitRemote.Deactivates b.remote (b.remote.selectSiri json p.target).2 :=
    (b.remote.moves_selectSiri p.target).deactivates
  rw [startPress]
  split
  · next e _ => exact .raises t p b.remote b.lastButtonEvent e ht (.inl hp) (.refl _) nofun
  · next button _ =>
    split
    · next e remote heq =>
      rw [heq] at hselect
      exact .raises t p remote b.lastButtonEvent e ht (.inl hp) hselect nofun
    · next remote heq =>
      rw [heq] at hselect
      rcases sendThen_cases { b with remote } t button .down now (.holding button) with
        ⟨-, last, e, hthen⟩ | ⟨hsend, last, hthen⟩
      · rw [hthen]
        exact .raises t p remote last e ht (.inl hp) hselect nofun
      · rw [hthen]
        exact .down t p remote last button now ht hp hselect hsend nofun

/-- **The steps.** -/
theorem effect_step (h : b.step json opus a = some b') : Effect b a b' := by
  cases a with
  | remote a =>
      obtain ⟨remote, hremote, rfl⟩ := Option.map_eq_some_iff.mp h
      exact .remote a remote rfl (AppleTVHomeKitRemote.activeClient_step hremote)
  | press button holdMs target =>
      cases h
      exact .called _ rfl nofun
  | start t now =>
      simp only [step] at h
      split at h
      · next ht =>
        cases h
        exact effect_startPress ht rfl now
      · cases h
  | wake t now =>
      simp only [step] at h
      split at h
      · next button ht =>
        cases h
        rcases sendThen_cases b t button .up now .returned with
          ⟨hno, last, e, hthen⟩ | ⟨hsend, last, hthen⟩
        · rw [hthen]
          refine .raises t _ b.remote last e ht (.inr ⟨button, rfl⟩) (.refl _) ?_
          rintro t' now' heq
          cases heq
          exact ⟨rfl, hno⟩
        · rw [hthen]
          exact .up t _ last button now rfl ht rfl hsend
      · cases h
  | cancel t =>
      simp only [step] at h
      split at h
      · next ht =>
        cases h
        exact .raises t _ b.remote b.lastButtonEvent _ ht (.inl rfl) (.refl _) nofun
      · next button ht =>
        cases h
        exact .raises t _ b.remote b.lastButtonEvent _ ht (.inr ⟨button, rfl⟩) (.refl _) nofun
      · cases h

end Steps

section Steps

variable {b b' d : Keypad ε T} {a : Label} {t : Nat} {p : Press} {pc : PressPc}

theorem getElem?_gotoPress {t' : Nat} {p' : Press} (hpresses : d.presses = b.presses)
    (ht : b.presses[t]? = some p) (h : (d.gotoPress t pc).presses[t']? = some p') :
    t' = t ∧ p' = { p with pc } ∨ t' ≠ t ∧ b.presses[t']? = some p' := by
  rw [gotoPress, hpresses] at h
  obtain ⟨q, hq, rfl⟩ := getElem?_modify_eq_some.mp h
  split
  · next heq =>
    subst heq
    rw [ht] at hq
    cases hq
    exact .inl ⟨rfl, rfl⟩
  · next hne => exact .inr ⟨hne, hq⟩

theorem getElem?_gotoPress_self (hpresses : d.presses = b.presses)
    (ht : b.presses[t]? = some p) : (d.gotoPress t pc).presses[t]? = some { p with pc } := by
  rw [gotoPress, hpresses]
  exact getElem?_modify_eq_some.mpr ⟨p, ht, by rw [if_pos rfl]⟩

/-- **A call moves.** -/
theorem Staged.goto (hb : b.Staged) (ht : b.presses[t]? = some p)
    (hpresses : d.presses = b.presses)
    (hevents : d.events = b.events ∨ ∃ e, d.events = b.events ++ [(t, e)])
    (hpc : pc.Sent (d.eventsOf t)) : (d.gotoPress t pc).Staged where
  sent t' p' ht' := by
    have hsame : (d.gotoPress t pc).eventsOf t' = d.eventsOf t' := rfl
    rw [hsame]
    rcases getElem?_gotoPress hpresses ht ht' with ⟨rfl, rfl⟩ | ⟨hne, hp'⟩
    · exact hpc
    · have hold := hb.sent t' p' hp'
      rcases hevents with heq | ⟨e, heq⟩
      · rw [eventsOf_of_events heq]
        exact hold
      · rw [eventsOf_append_of_ne heq hne]
        exact hold
  calls q hq := by
    have hlength : (d.gotoPress t pc).presses.length = b.presses.length := by
      rw [gotoPress, hpresses]
      exact List.length_modify _ _ _
    rw [hlength]
    have hq : q ∈ d.events := hq
    rcases hevents with heq | ⟨e, heq⟩
    · exact hb.calls q (heq ▸ hq)
    · rw [heq] at hq
      rcases List.mem_append.mp hq with hold | hnew
      · exact hb.calls q hold
      · rw [List.mem_singleton.mp hnew]
        exact lt_length_of_getElem? ht

/-- **Every step keeps the events of a call in their order.** -/
theorem Effect.staged (hb : b.Staged) (h : Effect b a b') : b'.Staged := by
  cases h with
  | remote => exact ⟨hb.sent, hb.calls⟩
  | called p hp =>
      refine ⟨fun t q ht ↦ ?_, fun q hq ↦ ?_⟩
      · rcases getElem?_concat_eq_some.mp ht with hold | ⟨rfl, rfl⟩
        · exact hb.sent t q hold
        · rw [hp]
          refine List.eq_nil_iff_forall_not_mem.mpr fun e he ↦ ?_
          exact Nat.lt_irrefl _ (hb.calls _ (mem_eventsOf.mp he))
      · have hlt := hb.calls q hq
        rw [List.length_append]
        exact Nat.lt_add_right _ hlt
  | raises t p remote last e ht hp =>
      refine hb.goto (d := { b with remote, lastButtonEvent := last }) ht rfl (.inl rfl) ?_
      have hsent : p.pc.Sent (b.eventsOf t) := hb.sent t p ht
      rcases hp with hp | ⟨button, hp⟩
      · rw [hp] at hsent
        exact .inl hsent
      · rw [hp] at hsent
        obtain ⟨d, hevents, hdown, -⟩ := hsent
        exact .inr ⟨d, hevents, hdown⟩
  | down t p remote last button now ht hp hremote hsend =>
      refine hb.goto ht rfl (.inr ⟨_, rfl⟩) ?_
      have hnil : b.eventsOf t = [] := by
        have hsent := hb.sent t p ht
        rw [hp] at hsent
        exact hsent
      refine ⟨⟨button, .down, now, remote.activeIdentifier⟩, ?_, rfl, rfl, hsend.selected⟩
      rw [eventsOf_append_self (b := b) rfl, hnil]
      rfl
  | up t p last button now ha ht hp =>
      refine hb.goto ht rfl (.inr ⟨_, rfl⟩) ?_
      have hsent := hb.sent t p ht
      rw [hp] at hsent
      obtain ⟨d, hevents, hdown, hbutton, -⟩ := hsent
      refine ⟨d, ⟨button, .up, now, b.remote.activeIdentifier⟩, ?_, hdown, rfl, hbutton.symm⟩
      rw [eventsOf_append_self (b := b) rfl, hevents]
      rfl

/-- **A step keeps the events in pairs exactly when a call that wakes up finds its target
selected.** -/
theorem Effect.paired_step (hb : b.Staged) (hold : b.Paired) (h : Effect b a b') :
    b'.Paired ↔ b.WakesOnTarget a := by
  have hb' := h.staged hb
  rw [hb'.paired_iff_forall]
  rw [hb.paired_iff_forall] at hold
  -- a call that does not return now
  have hother : ∀ {d : Keypad ε T} {t : Nat} {p : Press} {pc : PressPc},
      d.presses = b.presses → b.presses[t]? = some p → pc ≠ .returned →
      (d.events = b.events ∨ ∃ e, d.events = b.events ++ [(t, e)]) →
      ∀ (t' : Nat) (p' : Press) (down up : ButtonEvent),
        (d.gotoPress t pc).presses[t']? = some p' → p'.pc = .returned →
        (d.gotoPress t pc).eventsOf t' = [down, up] →
        up.activeIdentifier = down.activeIdentifier := by
    intro d t p pc hpresses ht hpc hevents t' p' down up ht' hreturned hpair
    rcases getElem?_gotoPress hpresses ht ht' with ⟨rfl, rfl⟩ | ⟨hne, hp'⟩
    · exact (hpc hreturned).elim
    · have hpair : d.eventsOf t' = [down, up] := hpair
      refine hold t' p' down up hp' hreturned ?_
      rcases hevents with heq | ⟨e, heq⟩
      · rw [← eventsOf_of_events heq]
        exact hpair
      · rw [← eventsOf_append_of_ne heq hne]
        exact hpair
  cases h with
  | remote label remote ha =>
      subst ha
      exact ⟨fun _ ↦ trivial, fun _ ↦ hold⟩
  | called p hp ha =>
      refine ⟨fun _ ↦ ?_, fun _ t q down up ht hreturned hpair ↦ ?_⟩
      · cases a with
        | wake t' now => exact (ha t' now rfl).elim
        | _ => trivial
      · rcases getElem?_concat_eq_some.mp ht with hq | ⟨-, rfl⟩
        · exact hold t q down up hq hreturned hpair
        · rw [hp] at hreturned
          cases hreturned
  | raises t p remote last e ht hp hremote ha =>
      refine ⟨fun _ ↦ ?_, fun _ ↦ hother rfl ht nofun (.inl rfl)⟩
      cases a with
      | wake t' now => exact fun _ _ _ _ _ _ hsend ↦ ((ha t' now rfl).2 hsend).elim
      | _ => trivial
  | down t p remote last button now ht hp hremote hsend ha =>
      refine ⟨fun _ ↦ ?_, fun _ ↦ hother rfl ht nofun (.inr ⟨_, rfl⟩)⟩
      cases a with
      | wake t' now => exact (ha t' now rfl).elim
      | _ => trivial
  | up t p last button now ha ht hp hsend =>
      subst ha
      have hsent := hb.sent t p ht
      rw [hp] at hsent
      obtain ⟨d, hevents, -, -, -⟩ := hsent
      have hd : ∀ {e}, (t, e) ∈ b.events ↔ e = d := by
        intro e
        rw [← mem_eventsOf, hevents, List.mem_singleton]
      have hpair : (gotoPress { b with
          lastButtonEvent := last
          events := b.events ++ [(t, ⟨button, .up, now, b.remote.activeIdentifier⟩)] } t
            .returned).eventsOf t = [d, ⟨button, .up, now, b.remote.activeIdentifier⟩] := by
        rw [eventsOf_append_self (b := b) rfl, hevents]
        rfl
      constructor
      · intro hall p' button' e _ _ hmem _
        rw [hd.mp hmem]
        exact hall t { p with pc := .returned } d _ (getElem?_gotoPress_self rfl ht) rfl hpair
      · intro hwakes t' p' down up ht' hreturned hevents'
        rcases getElem?_gotoPress (b := b) rfl ht ht' with ⟨rfl, rfl⟩ | ⟨hne, hp'⟩
        · rw [hpair] at hevents'
          cases hevents'
          exact hwakes p button d ht hp (hd.mpr rfl) hsend
        · refine hold t' p' down up hp' hreturned ?_
          rw [← hevents']
          exact (eventsOf_append_of_ne (b := b) rfl hne).symm

/-- What another target needs to become active while a button is held. -/
theorem Aimed.deactivates (ha : b.Aimed) (hb : b.Staged) {remote : AppleTVHomeKitRemote ε T}
    (h : AppleTVHomeKitRemote.Deactivates b.remote remote) {button : Button} {e : ButtonEvent}
    (ht : b.presses[t]? = some p) (hp : p.pc = .holding button) (hmem : (t, e) ∈ b.events)
    (hactive : remote.activeClient.isSome = true) :
    remote.activeIdentifier = e.activeIdentifier := by
  have hsent := hb.sent t p ht
  rw [hp] at hsent
  obtain ⟨d, hevents, -, -, hne⟩ := hsent
  have he : e ∈ b.eventsOf t := mem_eventsOf.mpr hmem
  rw [hevents] at he
  cases List.mem_singleton.mp he
  rcases h with ⟨hclient, hidentifier⟩ | hnone
  · rw [hclient] at hactive
    have haim := ha t p button e ht hp hmem hactive
    rcases hidentifier with hzero | hsame
    · exact (hne (haim.symm.trans hzero)).elim
    · exact hsame.trans haim
  · rw [hnone] at hactive
    cases hactive

/-- **A step that makes no other target active keeps the active client on the target of every
button that is held.** -/
theorem Effect.aimed (hb : b.Staged) (haim : b.Aimed) (hcond : b.ActivatesHeld a)
    (h : Effect b a b') : b'.Aimed := by
  intro t' p' button' e ht' hp' hmem hactive
  -- another call than the one that moves
  have hother : ∀ {d : Keypad ε T} {t : Nat} {p : Press} {pc : PressPc},
      (d.gotoPress t pc).presses[t']? = some p' → d.presses = b.presses →
      b.presses[t]? = some p → (∀ button, pc ≠ .holding button) →
      t' ≠ t ∧ b.presses[t']? = some p' := by
    intro d t p pc ht' hpresses ht hpc
    rcases getElem?_gotoPress hpresses ht ht' with ⟨-, rfl⟩ | hne
    · exact (hpc button' hp').elim
    · exact hne
  have hold : ∀ {t : Nat} {e' : ButtonEvent}, t' ≠ t → (t', e) ∈ b.events ++ [(t, e')] →
      (t', e) ∈ b.events := by
    intro t e' hne hmem
    rcases List.mem_append.mp hmem with hold | hnew
    · exact hold
    · cases List.mem_singleton.mp hnew
      exact (hne rfl).elim
  cases h with
  | remote label remote ha h =>
      subst ha
      rcases h with hdeactivates | ⟨value, client, rfl, htruthy, hne, -, hsame⟩
      · exact haim.deactivates hb hdeactivates ht' hp' hmem hactive
      · exact hsame.trans (hcond htruthy hne t' p' button' e ht' hp' hmem)
  | called p hp =>
      rcases getElem?_concat_eq_some.mp ht' with hq | ⟨-, rfl⟩
      · exact haim t' p' button' e hq hp' hmem hactive
      · rw [hp] at hp'
        cases hp'
  | raises t p remote last e' ht hp hremote =>
      obtain ⟨-, hq⟩ := hother ht' rfl ht nofun
      exact haim.deactivates hb hremote hq hp' hmem hactive
  | down t p remote last button now ht hp hremote hsend =>
      rcases getElem?_gotoPress (b := b) rfl ht ht' with ⟨rfl, rfl⟩ | ⟨hne, hq⟩
      · rcases List.mem_append.mp hmem with hold | hnew
        · have hsent := hb.sent t' p ht
          rw [hp] at hsent
          have hnil : b.eventsOf t' = [] := hsent
          have he := mem_eventsOf.mpr hold
          rw [hnil] at he
          cases he
        · cases List.mem_singleton.mp hnew
          rfl
      · exact haim.deactivates hb hremote hq hp' (hold hne hmem) hactive
  | up t p last button now ha ht hp hsend =>
      obtain ⟨hne, hq⟩ := hother ht' rfl ht nofun
      exact haim t' p' button' e hq hp' (hold hne hmem) hactive

/-- A call that wakes up while the active client is on its target finds it selected. -/
theorem Aimed.wakesOnTarget (haim : b.Aimed) (a : Label) : b.WakesOnTarget a := by
  cases a with
  | wake t now => exact fun p button e ht hp hmem hsend ↦ haim t p button e ht hp hmem hsend.active
  | _ => trivial

end Steps

section New

variable {b : Keypad ε T}

/-- Without a call nothing was sent. -/
theorem staged_new (hpresses : b.presses = []) (hevents : b.events = []) : b.Staged where
  sent t p ht := by
    rw [hpresses] at ht
    cases ht
  calls q hq := by
    rw [hevents] at hq
    cases hq

theorem paired_new (hpresses : b.presses = []) (hevents : b.events = []) : b.Paired where
  pairs t p e ht := by
    rw [hpresses] at ht
    cases ht
  ups t e hmem := by
    rw [hevents] at hmem
    cases hmem

theorem aimed_new (hpresses : b.presses = []) : b.Aimed := by
  intro t p button e ht
  rw [hpresses] at ht
  cases ht

end New

end Keypad

/-! ## Runs -/

/-- **The events of every call are for one target throughout a run exactly when each call that
wakes up finds its target selected, if it can send; and that is so when no client makes a
target active while a button is held down on another.** -/
theorem paired_iff {ε : Type} (json : JsonText) (opus : OpusEncoder ε) (file : Option json.Text)
    (h : List (Keypad ε json.Text × Keypad.Label)) (b : Keypad ε json.Text)
    (hrun : (keypads json opus file).Run h b) :
    (((∀ q ∈ h, q.1.Paired) ∧ b.Paired) ↔ ∀ q ∈ h, q.1.WakesOnTarget q.2) ∧
      ((∀ q ∈ h, q.1.ActivatesHeld q.2) → ∀ q ∈ h, q.1.WakesOnTarget q.2) := by
  suffices hmain : b.Staged ∧
      (((∀ q ∈ h, q.1.Paired) ∧ b.Paired) ↔ ∀ q ∈ h, q.1.WakesOnTarget q.2) ∧
      ((∀ q ∈ h, q.1.ActivatesHeld q.2) → b.Aimed ∧ ∀ q ∈ h, q.1.WakesOnTarget q.2) from
    ⟨hmain.2.1, fun hcond ↦ (hmain.2.2 hcond).2⟩
  induction hrun with
  | @init b hinit =>
      have hinit : b = ⟨.new json file, "", [], []⟩ := hinit
      subst hinit
      refine ⟨Keypad.staged_new rfl rfl, ⟨?_, ?_⟩, ?_⟩
      · exact fun _ ↦ List.forall_mem_nil _
      · exact fun _ ↦ ⟨List.forall_mem_nil _, Keypad.paired_new rfl rfl⟩
      · exact fun _ ↦ ⟨Keypad.aimed_new rfl, List.forall_mem_nil _⟩
  | @step h b b' a _ hstep ih =>
      obtain ⟨hb, hiff, haimed⟩ := ih
      have heffect := Keypad.effect_step hstep
      have hsplit : ∀ P : Keypad ε json.Text × Keypad.Label → Prop,
          (∀ q ∈ h ++ [(b, a)], P q) ↔ (∀ q ∈ h, P q) ∧ P (b, a) := by
        intro P
        simp [or_imp, forall_and]
      refine ⟨heffect.staged hb, ?_, ?_⟩
      · rw [hsplit, hsplit]
        constructor
        · rintro ⟨⟨hbefore, hhere⟩, hnext⟩
          exact ⟨hiff.mp ⟨hbefore, hhere⟩, (heffect.paired_step hb hhere).mp hnext⟩
        · rintro ⟨hbefore, hlast⟩
          obtain ⟨hpast, hhere⟩ := hiff.mpr hbefore
          exact ⟨⟨hpast, hhere⟩, (heffect.paired_step hb hhere).mpr hlast⟩
      · rw [hsplit, hsplit]
        rintro ⟨hbefore, hlast⟩
        obtain ⟨haim, hwakes⟩ := haimed hbefore
        exact ⟨heffect.aimed hb haim hlast, hwakes, haim.wakesOnTarget a⟩

/-- Targets 1 and 2 are added, the first is made active, and `MENU` is pressed on it. -/
def pressed : List Keypad.Label :=
  [.remote .start, .remote (.targetListWrite (.ofString "AQECAgYBBAEAAAA=") (some ⟨"hub", 1⟩) true),
    .remote (.targetListWrite (.ofString "AQECAgYBBAIAAAA=") (some ⟨"hub", 1⟩) true),
    .remote (.activeWrite (.int 1) (some ⟨"hub", 1⟩)), .press (.number 1) 200 none, .start 0 1000]

/-- The identifiers that the events of a call were sent to. -/
def identifiersOf {ε T : Type} (b : Keypad ε T) (t : Nat) : List Int :=
  (b.eventsOf t).map ButtonEvent.activeIdentifier

/-- A button that is pressed and released on one target. -/
theorem paired_iff_pressed :
    ∃ b, (keypads .documents .verbatim none).exec ⟨.new .documents none, "", [], []⟩
        (pressed ++ [.wake 0 1200]) = some b ∧ identifiersOf b 0 = [1, 1] ∧
      (((∀ q ∈ (keypads .documents .verbatim none).trace ⟨.new .documents none, "", [], []⟩
            (pressed ++ [.wake 0 1200]), q.1.Paired) ∧ b.Paired) ↔
        ∀ q ∈ (keypads .documents .verbatim none).trace ⟨.new .documents none, "", [], []⟩
          (pressed ++ [.wake 0 1200]), q.1.WakesOnTarget q.2) ∧
      ((∀ q ∈ (keypads .documents .verbatim none).trace ⟨.new .documents none, "", [], []⟩
          (pressed ++ [.wake 0 1200]), q.1.ActivatesHeld q.2) →
        ∀ q ∈ (keypads .documents .verbatim none).trace ⟨.new .documents none, "", [], []⟩
          (pressed ++ [.wake 0 1200]), q.1.WakesOnTarget q.2) := by
  have hend : ((keypads .documents .verbatim none).exec ⟨.new .documents none, "", [], []⟩
      (pressed ++ [.wake 0 1200])).map (fun b ↦ identifiersOf b 0) = some [1, 1] := by
    decide +kernel
  obtain ⟨b, hb, hsent⟩ := Option.map_eq_some_iff.mp hend
  have hinit : (keypads .documents .verbatim none).Run [] ⟨.new .documents none, "", [], []⟩ :=
    .init rfl
  exact ⟨b, hb, hsent, paired_iff .documents .verbatim none _ b (hinit.exec hb)⟩

/-- Target 2 is selected and made active while the button is held on target 1, which stays
pressed there. -/
theorem not_paired_of_activated :
    ∃ b, (keypads .documents .verbatim none).Reachable b ∧
      b.presses[0]?.map Press.pc = some .returned ∧
      (b.events.map fun q ↦ (q.1, q.2.state, q.2.activeIdentifier)) =
        [(0, .down, 1), (0, .up, 2)] ∧ ¬ b.Paired := by
  have hend : ((keypads .documents .verbatim none).exec ⟨.new .documents none, "", [], []⟩
      (pressed ++ [.remote (.setActiveIdentifier 2),
        .remote (.activeWrite (.int 1) (some ⟨"hub", 1⟩)), .wake 0 1200])).map
      (fun b ↦ (b.presses[0]?.map Press.pc,
        b.events.map fun q ↦ (q.1, q.2.state, q.2.activeIdentifier))) =
        some (some .returned, [(0, .down, 1), (0, .up, 2)]) := by
    decide +kernel
  obtain ⟨b, hb, hfound⟩ := Option.map_eq_some_iff.mp hend
  obtain ⟨hreturned, hevents⟩ := Prod.mk.inj hfound
  have hinit : (keypads .documents .verbatim none).Reachable ⟨.new .documents none, "", [], []⟩ :=
    .init rfl
  refine ⟨b, hinit.exec hb, hreturned, hevents, fun hpaired ↦ ?_⟩
  have hmem : ∀ {state : ButtonState} {e : ButtonEvent} {identifier : Int}, (0, e) ∈ b.events →
      e.state = state → e.activeIdentifier = identifier →
      (0, state, identifier) ∈ [(0, ButtonState.down, (1 : Int)), (0, .up, 2)] := by
    rintro state e identifier he rfl rfl
    rw [← hevents]
    exact List.mem_map.mpr ⟨(0, e), he, rfl⟩
  have hup : (0, ButtonState.up, (2 : Int)) ∈
      b.events.map fun q ↦ (q.1, q.2.state, q.2.activeIdentifier) := by
    rw [hevents]
    decide
  obtain ⟨⟨t, e⟩, he, heq⟩ := List.mem_map.mp hup
  simp only [Prod.mk.injEq] at heq
  obtain ⟨rfl, hstate, hidentifier⟩ := heq
  obtain ⟨e', he', hdown, hsame⟩ := hpaired.ups 0 e he hstate
  have hno := hmem he' hdown (hsame.trans hidentifier)
  simp at hno

end AtvRemote.Remote
