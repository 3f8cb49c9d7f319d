import AtvRemote.Remote.Steps

/-!
# The active client

`active_client` is set by `hap_active_write` alone; whatever else the controller does leaves
it, with the identifier of the target that it is active for, or clears it
(`activeClient_step`).
-/

namespace AtvRemote.Remote.AppleTVHomeKitRemote

open Lib Audio

variable {ε T : Type}

theorem SessionsOnly.activeClient {r r' : AppleTVHomeKitRemote ε T} (h : SessionsOnly r r') :
    r'.activeClient = r.activeClient := congrArg (·.activeClient) h.rest

/-- The active client stays, and with it the target that is selected, or it is none. -/
def Deactivates (r r' : AppleTVHomeKitRemote ε T) : Prop :=
  (r'.activeClient = r.activeClient ∧
      (r.activeIdentifier = 0 ∨ r'.activeIdentifier = r.activeIdentifier)) ∨
    r'.activeClient = none

namespace Deactivates

variable {r r' r'' : AppleTVHomeKitRemote ε T}

theorem same (hclient : r'.activeClient = r.activeClient)
    (hidentifier : r'.activeIdentifier = r.activeIdentifier) : Deactivates r r' :=
  .inl ⟨hclient, .inr hidentifier⟩

theorem refl (r : AppleTVHomeKitRemote ε T) : Deactivates r r := .same rfl rfl

theorem trans (h : Deactivates r r') (h' : Deactivates r' r'') : Deactivates r r'' := by
  rcases h' with ⟨hclient', hidentifier'⟩ | h'
  · rcases h with ⟨hclient, hidentifier⟩ | h
    · refine .inl ⟨hclient'.trans hclient, ?_⟩
      rcases hidentifier with hzero | hsame
      · exact .inl hzero
      · rw [← hsame]
        exact hidentifier'
    · exact .inr (hclient'.trans h)
  · exact .inr h'

instance : Std.Refl (@Deactivates ε T) := ⟨refl⟩

instance : IsTrans _ (@Deactivates ε T) := ⟨fun _ _ _ ↦ trans⟩

/-- A client that is not the active one does not become it. -/
theorem ne {client : ClientAddr} (h : Deactivates r r') (hr : r.activeClient ≠ some client) :
    r'.activeClient ≠ some client := by
  rcases h with ⟨h, -⟩ | h
  · rw [h]
    exact hr
  · rw [h]
    exact nofun

end Deactivates

section

variable {r r' : AppleTVHomeKitRemote ε T}

theorem Apart.deactivates (h : Apart r r') : Deactivates r r' :=
  .same h.activeClient h.activeIdentifier

/-- A move that selects a target clears the active client. -/
theorem Move.deactivates (h : Move r r') : Deactivates r r' := by
  cases h with
  | close c => exact (r.apart_closeConnection c).deactivates
  | cancel session => exact (r.sessionsOnly_scheduleSessionCancel session).apart.deactivates
  | select | lose => exact .inr rfl
  | selectFirst identifier hzero => exact .inl ⟨rfl, .inl hzero⟩
  | save | targets | drop => exact .same rfl rfl

theorem Moves.deactivates (h : Moves r r') : Deactivates r r' := h.law fun _ _ ↦ Move.deactivates

end

section

variable {json : JsonText} {opus : OpusEncoder ε} (r : AppleTVHomeKitRemote ε json.Text)

theorem deactivates_deactivate : Deactivates r r.deactivate :=
  .inr (sessionsOnly_scheduleSessionCancel { r with activeClient := none } _).activeClient

/-- A client that is lost is not the active one. -/
theorem activeClient_hapConnectionLost (client : ClientAddr) :
    (r.hapConnectionLost json client).activeClient ≠ some client := by
  simp only [hapConnectionLost]
  split
  · have hnone : (r.closeForClient client).deactivate.activeClient = none :=
      (sessionsOnly_scheduleSessionCancel
        { r.closeForClient client with activeClient := none } _).activeClient
    exact hnone ▸ (by rintro ⟨⟩)
  · next hne => exact hne

variable {r}

/-- **A step leaves the active client, clears it, or is the write that sets it.** -/
theorem activeClient_step {r' : AppleTVHomeKitRemote ε json.Text} {a : Label}
    (h : r.step json opus a = some r') :
    Deactivates r r' ∨
      ∃ value client, a = .activeWrite value (some client) ∧ value.truthy = true ∧
        r.activeIdentifier ≠ 0 ∧ r'.activeClient = some client ∧
        r'.activeIdentifier = r.activeIdentifier := by
  cases step_turn h with
  | start | saveFaults => exact .inl (.same rfl rfl)
  | targetListWrite value client admin =>
      exact .inl (r.moves_hapTargetListWrite value client admin).deactivates
  | hapConnectionLost client => exact .inl (r.moves_hapConnectionLost client).deactivates
  | select _ _ identifier happart =>
      exact .inl ((r.moves_setActiveIdentifier identifier).deactivates.trans happart.deactivates)
  | registers _ b identifier c hb => exact .inl (hb.deactivates.trans (.same rfl rfl))
  | apart _ _ happart => exact .inl happart.deactivates
  | activeWrite value client =>
      simp only [hapActiveWrite]
      split
      · exact .inl (.refl r)
      · next hne =>
        split
        · exact .inl (.refl r)
        · next client =>
          split
          · next htruthy => exact .inr ⟨value, client, rfl, htruthy, hne, rfl, rfl⟩
          · split
            · exact .inl (.refl r)
            · exact .inl r.deactivates_deactivate

end

end AtvRemote.Remote.AppleTVHomeKitRemote
