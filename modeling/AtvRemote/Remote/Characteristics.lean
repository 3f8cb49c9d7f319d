import AtvRemote.Remote.Lifecycle
import AtvRemote.Remote.Mirror

/-!
# Writes and reads of the characteristics

`ContextCharacteristic.client_update_value` stores a value before the setter runs, and stores
the former one again when the setter raises, whatever the setter has changed by then.  The
lifecycle of the controller is run here with the HAP operations on `active_identifier_char` and
`active_char`; its own labels for these two writes, which run the setters alone, are not
enabled.

Both `set_value` and `client_update_value` notify the subscribers when the stored value changes,
and only then (`Notifies`).
-/

namespace AtvRemote.Remote

open Lib Audio

/-- What HAP-python makes of a written value (`to_valid_value` and `valid_value_or_raise`) by the
properties of `ActiveIdentifier` and `Active`. -/
structure CharFormats where
  activeIdentifier : Obj → Except PyErr Int
  active : Obj → Except PyErr Int
  /-- `valid_values=[0, 1]` -/
  active_mem : ∀ value n, active value = .ok n → n = 0 ∨ n = 1

/-- A characteristic that the controller sets. -/
inductive CharName where
  | activeIdentifier
  | active
deriving DecidableEq, Repr

namespace Accessory

/-- The stored value of a characteristic. -/
def value (a : Accessory) : CharName → Int
  | .activeIdentifier => a.activeIdentifierChar
  | .active => a.activeChar

/-- Store a value. -/
def store (a : Accessory) (value : Int) : CharName → Accessory
  | .activeIdentifier => { a with activeIdentifierChar := value }
  | .active => { a with activeChar := value }

theorem store_store_value (a : Accessory) (value : Int) (name : CharName) :
    (a.store value name).store (a.value name) name = a := by
  cases name with
  | activeIdentifier => rfl
  | active => rfl

theorem store_value (a : Accessory) (name : CharName) : a.store (a.value name) name = a := by
  cases name with
  | activeIdentifier => rfl
  | active => rfl

end Accessory

namespace AppleTVHomeKitRemote

section

variable {ε T : Type}

/-- A characteristic of the accessory stores a value. -/
def storeValue (r : AppleTVHomeKitRemote ε T) (a : Accessory) (value : Int) (name : CharName) :
    AppleTVHomeKitRemote ε T := { r with accessory := some (a.store value name) }

/-- A characteristic stores its former value again. -/
def restoreValue (r : AppleTVHomeKitRemote ε T) (a : Accessory) (name : CharName) :
    AppleTVHomeKitRemote ε T :=
  { r with accessory := r.accessory.map fun a' ↦ a'.store (a.value name) name }

/-- `client_update_value` of a characteristic; `setter` is its `context_setter` on the client. -/
def clientUpdateValue (name : CharName) (valid : Obj → Except PyErr Int)
    (setter : Obj → AppleTVHomeKitRemote ε T → Except PyErr Unit × AppleTVHomeKitRemote ε T)
    (value : Obj) (r : AppleTVHomeKitRemote ε T) (a : Accessory) :
    Except PyErr Unit × AppleTVHomeKitRemote ε T :=
  match valid value with
  | .error e => (.error e, r)
  | .ok value => match setter (.int value) (r.storeValue a value name) with
      | (.ok (), r) => (.ok (), r)
      | (.error e, r) => (.error e, r.restoreValue a name)

/-- `get_value` of a characteristic stores what its getter returns. -/
def getValue (name : CharName) (r : AppleTVHomeKitRemote ε T) (a : Accessory) :
    AppleTVHomeKitRemote ε T :=
  r.storeValue a (r.mirror.value name) name

/-- Every change of the selected target or of the active flag comes with a change of the stored
value of its characteristic, which is what its subscribers are notified of. -/
structure Notifies (r r' : AppleTVHomeKitRemote ε T) : Prop where
  activeIdentifier : ∀ a, r.accessory = some a → r'.activeIdentifier ≠ r.activeIdentifier →
    ∃ a', r'.accessory = some a' ∧ a'.activeIdentifierChar ≠ a.activeIdentifierChar
  active : ∀ a, r.accessory = some a → r'.activeClient.isSome ≠ r.activeClient.isSome →
    ∃ a', r'.accessory = some a' ∧ a'.activeChar ≠ a.activeChar

/-- Where the characteristics mirror the controller before and after, every change is notified. -/
theorem Mirrored.notifies {r r' : AppleTVHomeKitRemote ε T} (h : r.Mirrored) (h' : r'.Mirrored)
    (haccessory : r.accessory.isSome = true → r'.accessory.isSome = true) : r.Notifies r' := by
  have hboth : ∀ a, r.accessory = some a → a = r.mirror ∧ r'.accessory = some r'.mirror := by
    intro a ha
    obtain ⟨a', ha'⟩ := Option.isSome_iff_exists.mp (haccessory (by rw [ha]; rfl))
    exact ⟨h a ha, by rw [ha', h' a' ha']⟩
  constructor
  · intro a ha hne
    obtain ⟨rfl, ha'⟩ := hboth a ha
    exact ⟨r'.mirror, ha', hne⟩
  · intro a ha hne
    obtain ⟨rfl, ha'⟩ := hboth a ha
    refine ⟨r'.mirror, ha', fun heq ↦ hne ?_⟩
    simp only [mirror] at heq
    cases hold : r.activeClient.isSome <;> cases hnew : r'.activeClient.isSome <;>
      simp [hold, hnew] at heq ⊢

end

/-! ## What a write leaves -/

section

variable {ε T : Type} {r : AppleTVHomeKitRemote ε T} {a : Accessory}

/-- To store the former value again undoes a write. -/
theorem mirrors_undo (ha : r.accessory = some a) (value : Int) (name : CharName) :
    Mirrors r ((r.storeValue a value name).restoreValue a name) := by
  apply Mirrors.same
  simp only [front, restoreValue, storeValue, Option.map_some, a.store_store_value, ha]

/-- A read stores what is stored. -/
theorem mirrors_getValue (ha : r.accessory = some a) (name : CharName) :
    Mirrors r (r.getValue name a) := by
  refine ⟨rfl, by rw [ha]; rfl, fun hr a' ha' ↦ ?_⟩
  obtain rfl := Option.some.inj ha'
  rw [hr a ha, Accessory.store_value]
  rfl

end

section

variable {ε : Type} {json : JsonText} {r : AppleTVHomeKitRemote ε json.Text} {a : Accessory}

theorem hapActiveWrite_cases (r : AppleTVHomeKitRemote ε json.Text) (value : Obj)
    (client : Option ClientAddr) :
    (∃ e, r.hapActiveWrite json value client = (.error e, r)) ∨
      (∃ client', value.truthy = true ∧
        r.hapActiveWrite json value client = (.ok (), { r with activeClient := some client' })) ∨
      (value.truthy = false ∧ r.hapActiveWrite json value client = (.ok (), r.deactivate)) := by
  rw [hapActiveWrite.eq_def]
  split
  · exact .inl ⟨_, rfl⟩
  · split
    · exact .inl ⟨_, rfl⟩
    · next client =>
      split
      · next htruthy => exact .inr (.inl ⟨client, htruthy, rfl⟩)
      · next hfalsy =>
        split
        · exact .inl ⟨_, rfl⟩
        · exact .inr (.inr ⟨Bool.eq_false_iff.mpr hfalsy, rfl⟩)

/-- A write of `Active` keeps the mirror. -/
theorem mirrors_writeActive (formats : CharFormats) (value : Obj) (client : Option ClientAddr)
    (ha : r.accessory = some a) :
    Mirrors r (r.clientUpdateValue .active formats.active
      (fun v r ↦ r.hapActiveWrite json v client) value a).2 := by
  rw [clientUpdateValue]
  cases hvalid : formats.active value with
  | error e => exact .refl r
  | ok n =>
      rcases (r.storeValue a n .active).hapActiveWrite_cases (.int n) client with
        ⟨e, heq⟩ | ⟨client', htruthy, heq⟩ | ⟨hfalsy, heq⟩
      · simp only [heq]
        exact mirrors_undo ha n .active
      · have hone : n = 1 := (formats.active_mem value n hvalid).resolve_left
          fun hzero ↦ by rw [hzero] at htruthy; cases htruthy
        simp only [heq]
        refine ⟨rfl, by rw [ha]; rfl, fun hr a' ha' ↦ ?_⟩
        obtain rfl := Option.some.inj ha'
        rw [hr a ha, hone]
        rfl
      · have hzero : n = 0 := (formats.active_mem value n hvalid).resolve_right
          fun hone ↦ by rw [hone] at hfalsy; cases hfalsy
        simp only [heq]
        refine .trans ?_ (sessionsOnly_scheduleSessionCancel _ _).apart.mirrors
        refine ⟨rfl, by rw [ha]; rfl, fun hr a' ha' ↦ ?_⟩
        obtain rfl := Option.some.inj ha'
        rw [hr a ha, hzero]
        rfl

/-- The write switches to another target, and its save raises. -/
def UndoesSwitch (formats : CharFormats) (r : AppleTVHomeKitRemote ε json.Text) (value : Obj)
    (client : Option ClientAddr) : Prop :=
  ∃ n, formats.activeIdentifier value = .ok n ∧ client.isSome = true ∧ r.Switches n ∧
    SaveFails r.saveFaults

/-- A switch that is undone in the characteristic alone leaves no mirror. -/
theorem not_mirrored_undo {b : AppleTVHomeKitRemote ε json.Text} (ha : r.accessory = some a)
    (hr : r.Mirrored) (hb : b.accessory.isSome = true)
    (hne : b.activeIdentifier ≠ r.activeIdentifier) :
    ¬ (b.restoreValue a .activeIdentifier).Mirrored := by
  obtain ⟨a', ha'⟩ := Option.isSome_iff_exists.mp hb
  intro hundone
  have hstored : (b.restoreValue a .activeIdentifier).accessory =
      some (a'.store (a.value .activeIdentifier) .activeIdentifier) := by
    rw [restoreValue, ha']
    rfl
  have hidentifier : a.activeIdentifierChar = b.activeIdentifier :=
    congrArg Accessory.activeIdentifierChar (hundone _ hstored)
  refine hne (hidentifier.symm.trans ?_)
  rw [hr a ha]
  rfl

/-- **A write of `ActiveIdentifier` keeps the mirror, unless it switches and its save raises.** -/
theorem mirrored_writeActiveIdentifier (formats : CharFormats) (value : Obj)
    (client : Option ClientAddr) (ha : r.accessory = some a) :
    let r' := (r.clientUpdateValue .activeIdentifier formats.activeIdentifier
      (fun v r ↦ r.hapActiveIdentifierWrite json v client) value a).2
    r'.accessory.isSome = true ∧
      (r.Mirrored → (r'.Mirrored ↔ ¬ r.UndoesSwitch formats value client)) := by
  have hkeeps : ∀ {r' : AppleTVHomeKitRemote ε json.Text}, Mirrors r r' →
      ¬ r.UndoesSwitch formats value client → r'.accessory.isSome = true ∧
        (r.Mirrored → (r'.Mirrored ↔ ¬ r.UndoesSwitch formats value client)) :=
    fun h hnot ↦ ⟨by rw [h.accessory, ha]; rfl, fun hr ↦ iff_of_true (h.mirrored hr) hnot⟩
  rw [clientUpdateValue]
  cases hvalid : formats.activeIdentifier value with
  | error e => exact hkeeps (.refl r) fun ⟨n, hn, _⟩ ↦ by rw [hvalid] at hn; cases hn
  | ok n =>
      have hundoes : r.UndoesSwitch formats value client ↔
          client.isSome = true ∧ r.Switches n ∧ SaveFails r.saveFaults :=
        ⟨fun ⟨_, hn', h⟩ ↦ Except.ok.inj (hvalid.symm.trans hn') ▸ h, fun h ↦ ⟨n, hvalid, h⟩⟩
      have hundo := mirrors_undo ha n .activeIdentifier
      rw [hundoes] at hkeeps ⊢
      cases client with
      | none => exact hkeeps hundo fun h ↦ nomatch h.1
      | some client =>
          simp only [hapActiveIdentifierWrite, Option.isNone_some, Bool.false_eq_true, if_false,
            Obj.toInt, Option.isSome_some, true_and] at hkeeps ⊢
          by_cases hswitch : r.Switches n
          · have hswitch' : (r.storeValue a n .activeIdentifier).Switches n := hswitch
            obtain ⟨hmirrors, hmirrored⟩ := @set_setActiveIdentifier _ json _ _ hswitch'
            obtain ⟨hswitched, hfails, hok⟩ := @setActiveIdentifier_of_switches _ json _ _ hswitch'
            have hsome := hmirrors.accessory
            have hidentifier := hswitched.activeIdentifier
            generalize (r.storeValue a n .activeIdentifier).setActiveIdentifier json n = x at *
            obtain ⟨result, b⟩ := x
            by_cases hsave : SaveFails r.saveFaults
            · obtain rfl : result = .error .osError := hfails hsave
              refine ⟨Option.isSome_map.trans hsome, fun hr ↦
                iff_of_false ?_ fun h ↦ h ⟨hswitch, hsave⟩⟩
              exact not_mirrored_undo ha hr hsome (hidentifier ▸ hswitch.2.2)
            · obtain rfl : result = .ok () := hok hsave
              exact ⟨hsome, fun _ ↦ iff_of_true hmirrored fun h ↦ hsave h.2⟩
          · have hswitch' : ¬ (r.storeValue a n .activeIdentifier).Switches n := hswitch
            obtain ⟨hsame, hok⟩ := @setActiveIdentifier_of_not_switches _ json _ _ hswitch'
            refine hkeeps ?_ fun h ↦ hswitch h.1
            generalize (r.storeValue a n .activeIdentifier).setActiveIdentifier json n = x at *
            obtain ⟨_ | _, b⟩ := x
            · cases hsame
              exact hundo
            · cases hsame
              obtain ⟨hn, -, -⟩ := hok.mp rfl
              refine ⟨rfl, by rw [ha]; rfl, fun hr a' ha' ↦ ?_⟩
              obtain rfl := Option.some.inj ha'
              rw [hr a ha, hn]
              rfl

end

end AppleTVHomeKitRemote

end AtvRemote.Remote
