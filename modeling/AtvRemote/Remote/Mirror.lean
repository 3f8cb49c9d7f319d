import AtvRemote.Remote.Active
import AtvRemote.Remote.Switch

/-!
# The mirror of the controller in its characteristics

`active_identifier_char` and `active_char` repeat `active_identifier` and whether there is an
`active_client`.  Whatever the controller does next to the writes of these characteristics sets
them along with what they repeat (`mirrors_step`), and leaves `_siri_advertised` alone.
-/

namespace AtvRemote.Remote.AppleTVHomeKitRemote

open Lib Audio

variable {ε T : Type}

/-- What the characteristics are to hold. -/
def mirror (r : AppleTVHomeKitRemote ε T) : Accessory :=
  ⟨r.activeIdentifier, if r.activeClient.isSome then 1 else 0⟩

/-- The characteristics, if there are any, hold what they are to hold. -/
def Mirrored (r : AppleTVHomeKitRemote ε T) : Prop := ∀ a, r.accessory = some a → a = r.mirror

theorem activeChar_mirror_eq_zero {r : AppleTVHomeKitRemote ε T} :
    r.mirror.activeChar = 0 ↔ r.activeClient = none := by
  rw [mirror]
  cases r.activeClient with
  | none => exact iff_of_true rfl rfl
  | some client => exact iff_of_false nofun nofun

/-- A mirror stays one, and Siri is advertised as before. -/
structure Mirrors (r r' : AppleTVHomeKitRemote ε T) : Prop where
  siriAdvertised : r'.siriAdvertised = r.siriAdvertised
  accessory : r'.accessory.isSome = r.accessory.isSome
  mirrored : r.Mirrored → r'.Mirrored

/-- The parts of the controller that are mirrored, their mirror, and `_siri_advertised`. -/
def front (r : AppleTVHomeKitRemote ε T) : Option Accessory × Int × Option ClientAddr × Bool :=
  (r.accessory, r.activeIdentifier, r.activeClient, r.siriAdvertised)

namespace Mirrors

variable {r r' r'' : AppleTVHomeKitRemote ε T}

theorem same (h : r'.front = r.front) : Mirrors r r' := by
  simp only [front, Prod.mk.injEq] at h
  obtain ⟨haccessory, hidentifier, hclient, hsiri⟩ := h
  refine ⟨hsiri, by rw [haccessory], fun hr a ha ↦ ?_⟩
  rw [haccessory] at ha
  rw [hr a ha, mirror, mirror, hidentifier, hclient]

theorem refl (r : AppleTVHomeKitRemote ε T) : Mirrors r r := .same rfl

theorem trans (h : Mirrors r r') (h' : Mirrors r' r'') : Mirrors r r'' :=
  ⟨h'.siriAdvertised.trans h.siriAdvertised, h'.accessory.trans h.accessory,
    h'.mirrored ∘ h.mirrored⟩

/-- Both characteristics are set. -/
theorem set (hsiri : r'.siriAdvertised = r.siriAdvertised)
    (haccessory : r'.accessory = r.accessory.map fun _ ↦ r'.mirror) : Mirrors r r' := by
  refine ⟨hsiri, by rw [haccessory, Option.isSome_map], fun _ a ha ↦ ?_⟩
  rw [haccessory] at ha
  obtain ⟨-, -, rfl⟩ := Option.map_eq_some_iff.mp ha
  rfl

instance : Std.Refl (@Mirrors ε T) := ⟨refl⟩

instance : IsTrans _ (@Mirrors ε T) := ⟨fun _ _ _ ↦ trans⟩

end Mirrors

/-! ## What sets the mirror -/

section

variable {r r' : AppleTVHomeKitRemote ε T}

theorem Apart.front (h : Apart r r') : r'.front = r.front := by
  rw [h.rest]
  rfl

theorem Apart.mirrors (h : Apart r r') : Mirrors r r' := .same h.front

/-- A move sets the characteristics along with what they repeat. -/
theorem Move.mirrors (h : Move r r') : Mirrors r r' := by
  cases h with
  | close c => exact (r.apart_closeConnection c).mirrors
  | cancel session => exact (r.sessionsOnly_scheduleSessionCancel session).apart.mirrors
  | select identifier => exact .set rfl rfl
  | selectFirst | lose =>
      refine ⟨rfl, Option.isSome_map, fun hr a ha ↦ ?_⟩
      obtain ⟨old, hold, rfl⟩ := Option.map_eq_some_iff.mp ha
      rw [hr old hold]
      rfl
  | save | targets | drop => exact .same rfl

theorem Moves.mirrors (h : Moves r r') : Mirrors r r' := h.law fun _ _ ↦ Move.mirrors

end

section

variable {json : JsonText} {opus : OpusEncoder ε} (r : AppleTVHomeKitRemote ε json.Text)

/-- A switch sets the mirror, whatever the characteristics held. -/
theorem set_setActiveIdentifier {identifier : Int} (h : r.Switches identifier) :
    Mirrors r (r.setActiveIdentifier json identifier).2 ∧
      (r.setActiveIdentifier json identifier).2.Mirrored := by
  have hrest := (r.moves_selected h.1 h.known h.2.2).mirrors
  refine ⟨(Move.select r identifier).mirrors.trans hrest, hrest.mirrored fun a ha ↦ ?_⟩
  obtain ⟨-, -, rfl⟩ := Option.map_eq_some_iff.mp ha
  rfl

/-- The step is a write of one of the two characteristics, or makes them. -/
def Label.touchesMirror : Label → Bool
  | .start | .activeIdentifierWrite _ _ | .activeWrite _ _ => true
  | _ => false

variable {r}

/-- **A step sets the mirror along with what it repeats**, next to the writes of the
characteristics. -/
theorem mirrors_step {r' : AppleTVHomeKitRemote ε json.Text} {a : Label}
    (ha : a.touchesMirror = false) (h : r.step json opus a = some r') : Mirrors r r' := by
  cases step_turn h with
  | start | activeWrite => cases ha
  | saveFaults => exact .same rfl
  | targetListWrite value client admin =>
      exact (r.moves_hapTargetListWrite value client admin).mirrors
  | hapConnectionLost client => exact (r.moves_hapConnectionLost client).mirrors
  | select _ _ identifier happart =>
      exact (r.moves_setActiveIdentifier identifier).mirrors.trans happart.mirrors
  | registers _ b identifier c hb => exact hb.mirrors.trans (.same rfl)
  | apart _ _ happart => exact happart.mirrors

end

end AtvRemote.Remote.AppleTVHomeKitRemote
