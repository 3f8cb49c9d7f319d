import AtvRemote.Remote.Loaded
import AtvRemote.Remote.Registry

/-!
# Switching the selection

`set_active_identifier` changes the identifier, the client and the characteristics, and then
saves.  What it changed stays when the save raises (`setActiveIdentifier_of_switches`); a call
that is refused, or that finds its identifier selected, changes nothing
(`setActiveIdentifier_of_not_switches`).

The identifiers of the targets fit `uint32` in every state that is reached, however saves end
(`identifiersFit_of_reachable`), so that the first target that is left can be selected.
-/

namespace AtvRemote.Remote

open Lib Audio

/-- What holds of the state in which a call raises. -/
def WhenRaised {α σ : Type} (x : Except PyErr α × σ) (P : σ → Prop) : Prop :=
  ∀ e s, x = (.error e, s) → P s

section

variable {α σ : Type} {P : σ → Prop}

theorem whenRaised_ok {a : α} {s : σ} : WhenRaised (Except.ok a, s) P := by
  intro e s' heq
  cases congrArg Prod.fst heq

theorem whenRaised_error {e : PyErr} {s : σ} :
    WhenRaised ((Except.error e : Except PyErr α), s) P ↔ P s := by
  constructor
  · exact fun h ↦ h e s rfl
  · intro h e' s' heq
    obtain rfl : s = s' := congrArg Prod.snd heq
    exact h

end

namespace AppleTVHomeKitRemote

variable {ε : Type} {json : JsonText} {opus : OpusEncoder ε}
variable {r r' : AppleTVHomeKitRemote ε json.Text}

/-! ## Saving -/

/-- The next call of `_save_targets` raises. -/
def SaveFails (faults : List (Option SaveFault)) : Prop := ∃ f, faults.head? = some (some f)

instance (faults : List (Option SaveFault)) : Decidable (SaveFails faults) :=
  match faults with
  | some f :: _ => .isTrue ⟨f, rfl⟩
  | none :: _ | [] => .isFalse fun ⟨_, h⟩ ↦ nomatch h

/-- How `_save_targets` ends: the file is written, or it raises before or after that. -/
theorem saveTargets_cases (r : AppleTVHomeKitRemote ε json.Text) :
    (¬ SaveFails r.saveFaults ∧ r.saveTargets json = (.ok (), { r with
      targetsFile := some (targetsText json r.targets r.activeIdentifier)
      saveFaults := r.saveFaults.tail })) ∨
    (r.saveFaults.head? = some (some .replace) ∧
      r.saveTargets json = (.error .osError, { r with saveFaults := r.saveFaults.tail })) ∨
    (r.saveFaults.head? = some (some .chmod) ∧ r.saveTargets json = (.error .osError, { r with
      targetsFile := some (targetsText json r.targets r.activeIdentifier)
      saveFaults := r.saveFaults.tail })) := by
  unfold saveTargets
  rcases hfaults : r.saveFaults with _ | ⟨_ | f, faults⟩
  · refine .inl ⟨fun ⟨_, h⟩ ↦ (nomatch h), ?_⟩
    have htail : r.saveFaults.tail = r.saveFaults := by rw [hfaults]; rfl
    simp only [← hfaults, htail]
  · exact .inl ⟨fun ⟨_, h⟩ ↦ (nomatch h), rfl⟩
  · cases f with
    | replace => exact .inr (.inl ⟨rfl, rfl⟩)
    | chmod => exact .inr (.inr ⟨rfl, rfl⟩)

theorem targets_saveTargets (r : AppleTVHomeKitRemote ε json.Text) :
    (r.saveTargets json).2.targets = r.targets := by
  rcases r.saveTargets_cases with ⟨-, heq⟩ | ⟨-, heq⟩ | ⟨-, heq⟩
  · rw [heq]
  · rw [heq]
  · rw [heq]

/-! ## Selecting -/

/-- `set_active_identifier` finds the identifier in order and not selected. -/
def Switches {T : Type} (r : AppleTVHomeKitRemote ε T) (identifier : Int) : Prop :=
  (0 ≤ identifier ∧ identifier ≤ 0xFFFFFFFF) ∧
    (identifier = 0 ∨ r.targets.contains identifier = true) ∧ identifier ≠ r.activeIdentifier

instance {T : Type} (r : AppleTVHomeKitRemote ε T) (identifier : Int) :
    Decidable (r.Switches identifier) :=
  inferInstanceAs (Decidable (_ ∧ _))

theorem Switches.known {T : Type} {r : AppleTVHomeKitRemote ε T} {identifier : Int}
    (h : r.Switches identifier) :
    ¬(identifier ≠ 0 ∧ r.targets.contains identifier = false) := by
  rintro ⟨hzero, hc⟩
  rcases h.2.1 with h0 | hin
  · exact hzero h0
  · exact absurd hin (Bool.eq_false_iff.mp hc)

/-- What a switch leaves of the selection. -/
structure Switched {T : Type} (r : AppleTVHomeKitRemote ε T) (identifier : Int)
    (r' : AppleTVHomeKitRemote ε T) : Prop where
  targets : r'.targets = r.targets
  activeIdentifier : r'.activeIdentifier = identifier
  activeClient : r'.activeClient = none
  saveFaults : r'.saveFaults = r.saveFaults.tail
  siriCalls : r'.siriCalls = r.siriCalls

/-- A call that does not switch changes nothing. -/
theorem setActiveIdentifier_of_not_switches {identifier : Int} (h : ¬ r.Switches identifier) :
    (r.setActiveIdentifier json identifier).2 = r ∧
      ((r.setActiveIdentifier json identifier).1 = .ok () ↔ identifier = r.activeIdentifier ∧
        (0 ≤ identifier ∧ identifier ≤ 0xFFFFFFFF) ∧
        (identifier = 0 ∨ r.targets.contains identifier = true)) := by
  rw [setActiveIdentifier]
  split
  · next hrange => exact ⟨rfl, (by rintro ⟨⟩), fun heq ↦ absurd heq.2.1 hrange⟩
  · next hrange =>
    split
    · next hunknown =>
      refine ⟨rfl, (by rintro ⟨⟩), fun heq ↦ ?_⟩
      rcases heq.2.2 with hzero | hin
      · exact absurd hzero hunknown.1
      · exact absurd hin (Bool.eq_false_iff.mp hunknown.2)
    · next hknown =>
      have hvalid : identifier = 0 ∨ r.targets.contains identifier = true := by
        by_cases hzero : identifier = 0
        · exact .inl hzero
        · exact .inr (Bool.of_not_eq_false fun hc ↦ hknown ⟨hzero, hc⟩)
      have hsame : identifier = r.activeIdentifier :=
        Decidable.not_not.mp fun hne ↦ h ⟨not_not.mp hrange, hvalid, hne⟩
      rw [if_pos hsame]
      exact ⟨rfl, (fun _ ↦ ⟨hsame, not_not.mp hrange, hvalid⟩), fun _ ↦ rfl⟩

/-- A call that switches does so whether its save raises or not. -/
theorem setActiveIdentifier_of_switches {identifier : Int} (h : r.Switches identifier) :
    r.Switched identifier (r.setActiveIdentifier json identifier).2 ∧
      (SaveFails r.saveFaults → (r.setActiveIdentifier json identifier).1 = .error .osError) ∧
      (¬ SaveFails r.saveFaults → (r.setActiveIdentifier json identifier).1 = .ok ()) := by
  rw [setActiveIdentifier, if_neg (not_not.mpr h.1), if_neg h.known, if_neg h.2.2]
  dsimp only
  generalize hr : setChars { r with activeIdentifier := identifier, activeClient := none }
    identifier 0 = b
  have hswitched : ∀ (file : Option json.Text) (faults : List (Option SaveFault)),
      faults = r.saveFaults.tail →
      r.Switched identifier { b with targetsFile := file, saveFaults := faults } := by
    rintro file faults rfl
    subst hr
    exact ⟨rfl, rfl, rfl, rfl, rfl⟩
  have hfaults : b.saveFaults = r.saveFaults := by
    subst hr
    rfl
  have htail : b.saveFaults.tail = r.saveFaults.tail := congrArg List.tail hfaults
  rcases b.saveTargets_cases with ⟨hok, heq⟩ | ⟨hhead, heq⟩ | ⟨hhead, heq⟩
  · rw [hfaults] at hok
    rw [heq]
    refine ⟨?_, fun hfails ↦ absurd hfails hok, fun _ ↦ ?_⟩
    · dsimp only [thenDo]
      have hbase := hswitched (some (targetsText json b.targets b.activeIdentifier)) _ htail
      split
      · next sid _ =>
        split
        · have hcancel := sessionsOnly_scheduleSessionCancel { b with
            targetsFile := some (targetsText json b.targets b.activeIdentifier)
            saveFaults := b.saveFaults.tail } (some sid)
          have hsame := hcancel.sameTargets
          exact ⟨hsame.targets.trans hbase.targets,
            hsame.activeIdentifier.trans hbase.activeIdentifier,
            (congrArg (·.activeClient) hcancel.rest).trans hbase.activeClient,
            hsame.saveFaults.trans hbase.saveFaults,
            (congrArg (·.siriCalls) hcancel.rest).trans hbase.siriCalls⟩
        · exact hbase
      · exact hbase
    · dsimp only [thenDo]
      split
      · split <;> rfl
      · rfl
  · rw [hfaults] at hhead
    rw [heq]
    exact ⟨hswitched b.targetsFile _ htail, fun _ ↦ rfl, fun hnot ↦ absurd ⟨_, hhead⟩ hnot⟩
  · rw [hfaults] at hhead
    rw [heq]
    exact ⟨hswitched _ _ htail, fun _ ↦ rfl, fun hnot ↦ absurd ⟨_, hhead⟩ hnot⟩

theorem targets_setActiveIdentifier (r : AppleTVHomeKitRemote ε json.Text) (identifier : Int) :
    (r.setActiveIdentifier json identifier).2.targets = r.targets := by
  by_cases h : r.Switches identifier
  · exact (setActiveIdentifier_of_switches h).1.targets
  · rw [(setActiveIdentifier_of_not_switches h).1]

/-! ## The identifiers of targets -/

/-- Only a write to the target list changes the targets. -/
theorem targets_step {a : Label} (h : r.step json opus a = some r')
    (ha : ∀ value client admin, a ≠ .targetListWrite value client admin) :
    r'.targets = r.targets := by
  cases step_turn h with
  | start | saveFaults => rfl
  | targetListWrite value client admin => exact absurd rfl (ha value client admin)
  | hapConnectionLost client => exact (r.hapConnectionLost_sameTargets client).targets
  | select _ _ identifier happart =>
      exact happart.targets.trans (r.targets_setActiveIdentifier identifier)
  | registers _ b identifier c hb => exact hb.targets
  | apart _ _ happart => exact happart.targets
  | activeWrite value client =>
      simp only [hapActiveWrite]
      split
      · rfl
      · split
        · rfl
        · split
          · rfl
          · split
            · rfl
            · exact r.sameTargets_deactivate.targets

/-- The identifiers of the targets fit `uint32`, and 0 is none of them. -/
def IdentifiersFit {T : Type} (r : AppleTVHomeKitRemote ε T) : Prop :=
  ∀ k, r.targets.contains k = true → 1 ≤ k ∧ k ≤ 0xFFFFFFFF

theorem IdentifiersFit.of_contains (hr : r.IdentifiersFit)
    (h : ∀ k, r'.targets.contains k = true → r.targets.contains k = true) : r'.IdentifiersFit :=
  fun k hk ↦ hr k (h k hk)

theorem IdentifiersFit.of_targets (hr : r.IdentifiersFit) (h : r'.targets = r.targets) :
    r'.IdentifiersFit := hr.of_contains fun _ hk ↦ h ▸ hk

theorem contains_of_contains_set {d : Dict Int TargetConfiguration} {k k' : Int}
    {t : TargetConfiguration} (hin : d.contains k = true)
    (h : (d.set k t).contains k' = true) : d.contains k' = true := by
  rw [Dict.contains_iff, Dict.mem_keys_set] at h
  rcases h with rfl | h
  · exact hin
  · exact Dict.contains_iff.mpr h

/-- An operation adds no identifier that does not fit, whether it raises or not. -/
theorem IdentifiersFit.targetOperation (hr : r.IdentifiersFit) (operation : TargetOperation)
    {config : Option TargetConfiguration} (hconfig : ∀ t, config = some t → t.WellFormed) :
    (r.targetOperation json operation config).2.IdentifiersFit := by
  cases operation with
  | undefined => exact hr
  | list =>
      simp only [AppleTVHomeKitRemote.targetOperation]
      split <;> exact hr
  | add =>
      cases config with
      | none => exact hr
      | some config =>
          simp only [AppleTVHomeKitRemote.targetOperation, addTarget]
          have hset : ∀ k, (r.targets.set config.targetIdentifier config).contains k = true →
              1 ≤ k ∧ k ≤ 0xFFFFFFFF := by
            intro k hk
            rw [Dict.contains_iff, Dict.mem_keys_set] at hk
            rcases hk with rfl | hk
            · exact (hconfig config rfl).targetIdentifier
            · exact hr k (Dict.contains_iff.mpr hk)
          split
          · exact hr
          · split <;> exact hset
  | update =>
      simp only [AppleTVHomeKitRemote.targetOperation, updateTarget]
      split
      · next config current hcurrent =>
        refine hr.of_contains fun k hk ↦ contains_of_contains_set ?_ hk
        exact Option.isSome_iff_exists.mpr ⟨current, hcurrent⟩
      · exact hr
  | remove =>
      simp only [AppleTVHomeKitRemote.targetOperation, removeTarget]
      split
      · next config current hcurrent =>
        have hdelete : (r.deleteTarget config.targetIdentifier).IdentifiersFit := by
          refine hr.of_contains fun k hk ↦ ?_
          rw [(r.sameTargets_deleteTarget config.targetIdentifier).targets] at hk
          rw [Dict.contains_iff, Dict.mem_keys_erase] at hk
          exact Dict.contains_iff.mpr hk.2
        split
        · split
          · exact hdelete.of_targets (targets_setActiveIdentifier _ _)
          · exact hdelete
        · refine hr.of_contains fun k hk ↦ contains_of_contains_set ?_ hk
          exact Option.isSome_iff_exists.mpr ⟨current, hcurrent⟩
      · exact hr
  | reset =>
      cases config with
      | some => exact hr
      | none =>
          have hempty : ({ r with targets := .empty } :
              AppleTVHomeKitRemote ε json.Text).IdentifiersFit := by rintro _ ⟨⟩
          have hall := hempty.of_targets (sameTargets_closeAll _).targets
          simp only [AppleTVHomeKitRemote.targetOperation, resetTargets]
          exact hall.of_targets (sameTargets_scheduleSessionCancel _ _).targets

/-- A write to the target list adds no identifier that does not fit, whether it raises or not. -/
theorem IdentifiersFit.hapTargetListWrite (hr : r.IdentifiersFit) (value : PyStr)
    (client : Option ClientAddr) (admin : Bool) :
    (r.hapTargetListWrite json value client admin).2.IdentifiersFit := by
  simp only [AppleTVHomeKitRemote.hapTargetListWrite]
  split
  · exact hr
  · split
    · exact hr
    · split
      · exact hr
      · next operation config hparse =>
        have hop := hr.targetOperation operation fun t ht ↦ parseTargetWrite_ok hparse ht
        generalize r.targetOperation json operation config = x at hop ⊢
        obtain ⟨_ | _, b⟩ := x
        · exact hop
        · have hsave := hop.of_targets (targets_saveTargets _)
          dsimp only [thenDo] at hsave ⊢
          generalize b.saveTargets json = y at hsave ⊢
          obtain ⟨_ | _, b'⟩ := y
          · exact hsave
          · exact hsave

/-- The loader checks the identifiers. -/
theorem identifiersFit_new (file : Option json.Text) :
    (new json file : AppleTVHomeKitRemote ε json.Text).IdentifiersFit := by
  intro k hk
  have hk : (loadTargets json file).targets.contains k = true := hk
  rw [loadTargets.eq_def] at hk
  split at hk
  · cases hk
  · split at hk
    · next hload =>
      obtain ⟨doc, -, hload⟩ := bind_eq_ok.mp hload
      obtain ⟨root, raws, -, -, -, hitems, -⟩ := loadPayload_eq_ok hload
      obtain ⟨t, ht⟩ := Option.isSome_iff_exists.mp hk
      obtain ⟨rfl, p, -, hp⟩ := (loadTargetItems_get hitems k t).mp ht
      obtain ⟨_, _, -, -, hrange, -⟩ := loadTarget_eq_ok.mp hp
      exact hrange
    · cases hk

/-- **The identifiers of the targets fit in every state that is reached**, however saves end. -/
theorem identifiersFit_of_reachable {file : Option json.Text}
    (h : (remotes json opus file).Reachable r) : r.IdentifiersFit := by
  refine h.invariant ?_ ?_
  · rintro r rfl
    exact identifiersFit_new file
  · intro r r' a hr hstep
    by_cases ha : ∃ value client admin, a = .targetListWrite value client admin
    · obtain ⟨value, client, admin, rfl⟩ := ha
      cases hstep
      exact hr.hapTargetListWrite value client admin
    · have hsame := targets_step hstep fun value client admin heq ↦ ha ⟨value, client, admin, heq⟩
      rw [IdentifiersFit, hsame]
      exact hr

end AppleTVHomeKitRemote

end AtvRemote.Remote
