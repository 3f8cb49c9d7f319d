import AtvRemote.Remote.Persist
import AtvRemote.Remote.Switch

/-!
# Restarts

The controller loses its memory when its process ends, at any point and also within a save,
and starts again on the file that it finds.  Saves may fail as well.  Whatever happens, the
registry is in order in every state, and the file is the text of targets and a selection that
were in memory together at one moment.

`Saves` is what a save can do, whether it returns or raises, and `Commits` what a step does.
-/

namespace AtvRemote.Remote

open Lib Audio

namespace AppleTVHomeKitRemote

/-! ## The registry, however saves end -/

/-- The targets are in order, and so are the selection and the registrations among them. -/
structure InOrder {ε T : Type} (r : AppleTVHomeKitRemote ε T) : Prop where
  size : r.targets.size ≤ maxTargets
  targets : ∀ k t, r.targets.get k = some t → t.targetIdentifier = k ∧ t.WellFormed
  hdsConnections : ∀ k c, r.hdsConnections.get k = some c → r.targets.contains k = true
  activeIdentifier : r.activeIdentifier = 0 ∨ r.targets.contains r.activeIdentifier = true
  activeClient : r.activeClient.isSome → r.activeIdentifier ≠ 0

variable {ε : Type} {json : JsonText} {opus : OpusEncoder ε}

section

variable {r r' r'' : AppleTVHomeKitRemote ε json.Text}

/-- What is in order is a registry in which saves succeed. -/
theorem InOrder.registry (hr : r.InOrder) :
    ({ r with saveFaults := [] } : AppleTVHomeKitRemote ε json.Text).Registry :=
  ⟨⟨hr.size, hr.targets, hr.hdsConnections, rfl⟩, hr.activeIdentifier, hr.activeClient⟩

theorem Registry.inOrder (h : r.Registry) : r.InOrder :=
  ⟨h.size, h.targets, h.hdsConnections, h.activeIdentifier, h.activeClient⟩

/-- What a save, and the cancelling of a session, can do. -/
structure Saves (r r' : AppleTVHomeKitRemote ε json.Text) : Prop where
  targets : r'.targets = r.targets
  activeIdentifier : r'.activeIdentifier = r.activeIdentifier
  activeClient : r'.activeClient.isSome → r.activeClient.isSome
  hdsConnections : ∀ k c, r'.hdsConnections.get k = some c → r.hdsConnections.get k = some c
  file : r'.Written ∨ r'.targetsFile = r.targetsFile

namespace Saves

theorem refl (r : AppleTVHomeKitRemote ε json.Text) : Saves r r :=
  ⟨rfl, rfl, id, fun _ _ ↦ id, .inr rfl⟩

theorem trans (h : Saves r r') (h' : Saves r' r'') : Saves r r'' where
  targets := h'.targets.trans h.targets
  activeIdentifier := h'.activeIdentifier.trans h.activeIdentifier
  activeClient hc := h.activeClient (h'.activeClient hc)
  hdsConnections k c hk := h.hdsConnections k c (h'.hdsConnections k c hk)
  file := by
    rcases h'.file with hwritten | hfile
    · exact .inl hwritten
    · rcases h.file with hwritten | hfile'
      · left
        rw [Written, hfile, h'.targets, h'.activeIdentifier]
        exact hwritten
      · exact .inr (hfile.trans hfile')

instance : Std.Refl (@Saves ε json) := ⟨refl⟩

instance : IsTrans _ (@Saves ε json) := ⟨fun _ _ _ ↦ trans⟩

theorem inOrder (h : Saves r r') (hr : r.InOrder) : r'.InOrder where
  size := by
    rw [h.targets]
    exact hr.size
  targets := by
    rw [h.targets]
    exact hr.targets
  hdsConnections k c hk := by
    rw [h.targets]
    exact hr.hdsConnections k c (h.hdsConnections k c hk)
  activeIdentifier := by
    rw [h.activeIdentifier, h.targets]
    exact hr.activeIdentifier
  activeClient hc := by
    rw [h.activeIdentifier]
    exact hr.activeClient (h.activeClient hc)

end Saves

theorem SameTargets.withoutFaults (h : SameTargets r r') : SameTargets
    ({ r with saveFaults := [] } : AppleTVHomeKitRemote ε json.Text)
    { r' with saveFaults := [] } :=
  ⟨h.targets, h.activeIdentifier, h.targetsFile, rfl, h.activeClient, h.hdsConnections⟩

theorem SameTargets.saves (h : SameTargets r r') : Saves r r' :=
  ⟨h.targets, h.activeIdentifier, h.activeClient, h.hdsConnections, .inr h.targetsFile⟩

theorem saves_saveTargets (r : AppleTVHomeKitRemote ε json.Text) :
    Saves r (r.saveTargets json).2 := by
  rcases r.saveTargets_cases with ⟨-, heq⟩ | ⟨-, heq⟩ | ⟨-, heq⟩
  · rw [heq]
    exact ⟨rfl, rfl, id, fun _ _ ↦ id, .inl rfl⟩
  · rw [heq]
    exact ⟨rfl, rfl, id, fun _ _ ↦ id, .inr rfl⟩
  · rw [heq]
    exact ⟨rfl, rfl, id, fun _ _ ↦ id, .inl rfl⟩

/-- The registry is in order, and the file has it if it was replaced. -/
structure Commits (r r' : AppleTVHomeKitRemote ε json.Text) : Prop where
  inOrder : r'.InOrder
  file : r'.Written ∨ r'.targetsFile = r.targetsFile

theorem Commits.refl (hr : r.InOrder) : Commits r r := ⟨hr, .inr rfl⟩

theorem Commits.saves (h : Commits r r') (h' : Saves r' r'') : Commits r r'' := by
  refine ⟨h'.inOrder h.inOrder, ?_⟩
  rcases h'.file with hwritten | hfile
  · exact .inl hwritten
  · rcases h.file with hwritten | hfile'
    · left
      rw [Written, hfile, h'.targets, h'.activeIdentifier]
      exact hwritten
    · exact .inr (hfile.trans hfile')

theorem Saves.commits (h : Saves r r') (hr : r.InOrder) : Commits r r' :=
  (Commits.refl hr).saves h

/-! ## The operations -/

theorem saves_scheduleSessionCancel (r : AppleTVHomeKitRemote ε json.Text)
    (session : Option Nat) : Saves r (r.scheduleSessionCancel session) :=
  (r.sameTargets_scheduleSessionCancel session).saves

/-- A switch puts the registry in order, whether its save returns or raises. -/
theorem commits_of_switches {identifier : Int} (hr : ({ r with saveFaults := [] } :
    AppleTVHomeKitRemote ε json.Text).Configured) (h : r.Switches identifier) :
    Commits r (r.setActiveIdentifier json identifier).2 := by
  rw [setActiveIdentifier, if_neg (not_not.mpr h.1), if_neg h.known, if_neg h.2.2]
  have hselected : Commits r (setChars { r with
      activeIdentifier := identifier
      activeClient := none } identifier 0) :=
    ⟨⟨hr.size, hr.targets, hr.hdsConnections, h.2.1, by rintro ⟨⟩⟩, .inr rfl⟩
  refine hselected.saves (rel_thenDo (saves_saveTargets _) fun _ b ↦ ?_)
  split
  · next sid _ =>
    split
    · exact saves_scheduleSessionCancel b (some sid)
    · exact .refl b
  · exact .refl b

theorem commits_setActiveIdentifier (hr : r.InOrder) (identifier : Int) :
    Commits r (r.setActiveIdentifier json identifier).2 := by
  by_cases h : r.Switches identifier
  · exact commits_of_switches hr.registry.toConfigured h
  · rw [(setActiveIdentifier_of_not_switches h).1]
    exact .refl hr

/-- Assigning a target keeps the registry in order. -/
theorem InOrder.setTarget (hr : r.InOrder) {k : Int} {t : TargetConfiguration}
    (hk : t.targetIdentifier = k) (ht : t.WellFormed)
    (hsize : r.targets.contains k = false → r.targets.size < maxTargets) :
    ({ r with targets := r.targets.set k t } : AppleTVHomeKitRemote ε json.Text).InOrder := by
  have hset := hr.registry.setTarget hk ht hsize
  exact ⟨hset.size, hset.targets, hset.hdsConnections, hset.activeIdentifier, hset.activeClient⟩

theorem commits_addTarget (hr : r.InOrder) {config : Option TargetConfiguration}
    (hconfig : ∀ t, config = some t → t.WellFormed) : Commits r (r.addTarget json config).2 := by
  cases config with
  | none => exact .refl hr
  | some t =>
      simp only [addTarget]
      split
      · exact .refl hr
      · next hroom =>
        have hset := hr.setTarget rfl (hconfig t rfl) fun hnew ↦
          Nat.lt_of_not_le fun hfull ↦ hroom ⟨hnew, hfull⟩
        split
        · next hnone =>
          refine ⟨⟨hset.size, hset.targets, hset.hdsConnections, .inr ?_,
            fun hc ↦ (hr.activeClient hc hnone).elim⟩, .inr rfl⟩
          exact Dict.contains_iff.mpr (Dict.mem_keys_set.mpr (.inl rfl))
        · exact ⟨hset, .inr rfl⟩

theorem commits_updateTarget (hr : r.InOrder) {config : Option TargetConfiguration}
    (hconfig : ∀ t, config = some t → t.WellFormed) :
    Commits r (r.updateTarget json config).2 := by
  simp only [updateTarget]
  split
  · next t current hcurrent =>
    rw [Option.bind_some] at hcurrent
    obtain ⟨hid, hwf⟩ := hr.targets _ _ hcurrent
    refine ⟨hr.setTarget hid (updated_wellFormed hwf (hconfig t rfl)) fun hnew ↦ ?_, .inr rfl⟩
    rw [Dict.contains_eq_false_iff.mp hnew] at hcurrent
    cases hcurrent
  · exact .refl hr

/-- The selection of a target that is deleted goes to the first that is left. -/
theorem switches_firstIdentifier {identifier : Int} (hr : r.InOrder)
    (hin : r.targets.contains identifier = true) (hwas : r.activeIdentifier = identifier)
    {b : AppleTVHomeKitRemote ε json.Text} (htargets : b.targets = r.targets.erase identifier)
    (hactive : b.activeIdentifier = r.activeIdentifier) :
    b.Switches (firstIdentifier b.targets) := by
  have hrange := hr.registry.toConfigured.range hin
  have hleft : ∀ k, b.targets.contains k = true → k ≠ identifier ∧ r.targets.contains k = true := by
    intro k hk
    rw [htargets, Dict.contains_iff, Dict.mem_keys_erase] at hk
    exact ⟨hk.1, Dict.contains_iff.mpr hk.2⟩
  have hfirst := firstIdentifier_cases b.targets
  refine ⟨?_, hfirst, ?_⟩
  · rcases hfirst with hzero | hknown
    · rw [hzero]
      decide
    · have hfits := hr.registry.toConfigured.range (hleft _ hknown).2
      exact ⟨by omega, hfits.2⟩
  · rw [hactive, hwas]
    rcases hfirst with hzero | hknown
    · rw [hzero]
      omega
    · exact (hleft _ hknown).1

theorem commits_removeTarget (hr : r.InOrder) (config : Option TargetConfiguration) :
    Commits r (r.removeTarget json config).2 := by
  simp only [removeTarget]
  split
  · next t current hcurrent =>
    rw [Option.bind_some] at hcurrent
    obtain ⟨hid, hwf⟩ := hr.targets _ _ hcurrent
    have hin : r.targets.contains t.targetIdentifier = true :=
      Option.isSome_iff_exists.mpr ⟨current, hcurrent⟩
    split
    · have hclose := r.sameTargets_deleteTarget t.targetIdentifier
      generalize r.deleteTarget t.targetIdentifier = b at hclose ⊢
      have hconf : ({ b with saveFaults := [] } : AppleTVHomeKitRemote ε json.Text).Configured :=
        hclose.withoutFaults.configured (hr.registry.toConfigured.dropTarget t.targetIdentifier)
      split
      · next hwas =>
        have hswitches := switches_firstIdentifier hr hin (hclose.activeIdentifier.symm.trans hwas)
          hclose.targets hclose.activeIdentifier
        have hcommits := commits_of_switches hconf hswitches
        exact ⟨hcommits.inOrder, hcommits.file.imp_right (·.trans hclose.targetsFile)⟩
      · next hother =>
        refine ⟨⟨hconf.size, hconf.targets, hconf.hdsConnections, ?_, fun hc ↦ ?_⟩,
          .inr hclose.targetsFile⟩
        · rw [hclose.activeIdentifier] at hother ⊢
          rw [hclose.targets]
          refine hr.activeIdentifier.imp_right fun h ↦ ?_
          rw [Dict.contains, Dict.get_erase_of_ne hother]
          exact h
        · rw [hclose.activeIdentifier]
          exact hr.activeClient (hclose.activeClient hc)
    · refine ⟨hr.setTarget hid (removeButtons_wellFormed hwf _) fun hnew ↦ ?_, .inr rfl⟩
      rw [hin] at hnew
      cases hnew
  · exact .refl hr

theorem commits_resetTargets (hr : r.InOrder) (config : Option TargetConfiguration) :
    Commits r (r.resetTargets json config).2 := by
  cases config with
  | some => exact .refl hr
  | none =>
      simp only [resetTargets]
      have hall := sameTargets_closeAll ({ r with targets := .empty })
      generalize closeAll ({ r with targets := .empty }) = b at hall ⊢
      have hcleared : Commits r (setChars { b with
          hdsConnections := .empty
          activeIdentifier := 0
          activeClient := none } 0 0) := by
        refine ⟨⟨?_, ?_, by rintro _ _ ⟨⟩, .inl rfl, by rintro ⟨⟩⟩, .inr hall.targetsFile⟩
        · show b.targets.size ≤ maxTargets
          rw [hall.targets]
          exact Nat.zero_le _
        · show ∀ k t, b.targets.get k = some t → t.targetIdentifier = k ∧ t.WellFormed
          rw [hall.targets]
          rintro k t ⟨⟩
      exact hcleared.saves (saves_scheduleSessionCancel _ _)

theorem commits_targetOperation (hr : r.InOrder) (operation : TargetOperation)
    {config : Option TargetConfiguration} (hconfig : ∀ t, config = some t → t.WellFormed) :
    Commits r (r.targetOperation json operation config).2 := by
  cases operation with
  | undefined => exact .refl hr
  | add => exact commits_addTarget hr hconfig
  | update => exact commits_updateTarget hr hconfig
  | remove => exact commits_removeTarget hr config
  | reset => exact commits_resetTargets hr config
  | list =>
      simp only [targetOperation]
      split <;> exact .refl hr

/-- A write to the target list leaves the registry in order, whatever it raises. -/
theorem commits_hapTargetListWrite (hr : r.InOrder) (value : PyStr) (client : Option ClientAddr)
    (admin : Bool) : Commits r (r.hapTargetListWrite json value client admin).2 := by
  rw [hapTargetListWrite]
  split
  · exact .refl hr
  · split
    · exact .refl hr
    · split
      · exact .refl hr
      · next operation config hparse =>
        have hop := commits_targetOperation hr operation fun t ht ↦ parseTargetWrite_ok hparse ht
        generalize r.targetOperation json operation config = x at hop ⊢
        obtain ⟨_ | _, b⟩ := x
        · exact hop
        · have hsave := saves_saveTargets b
          dsimp only [thenDo] at hop ⊢
          generalize b.saveTargets json = y at hsave ⊢
          obtain ⟨_ | _, b'⟩ := y <;> exact hop.saves hsave

/-! ## Steps -/

theorem commits_hapActiveWrite (hr : r.InOrder) (value : Obj) (client : Option ClientAddr) :
    Commits r (r.hapActiveWrite json value client).2 := by
  simp only [hapActiveWrite]
  split
  · exact .refl hr
  · next hactive =>
    split
    · exact .refl hr
    · split
      · exact ⟨⟨hr.size, hr.targets, hr.hdsConnections, hr.activeIdentifier, fun _ ↦ hactive⟩,
          .inr rfl⟩
      · split
        · exact .refl hr
        · exact r.sameTargets_deactivate.saves.commits hr

/-- **What a step does to the registry and to the file**, however its saves end. -/
theorem step_commits {a : Label} (hr : r.InOrder) (h : r.step json opus a = some r') :
    Commits r r' := by
  cases step_turn h with
  | start | saveFaults => exact ⟨⟨hr.size, hr.targets, hr.hdsConnections, hr.activeIdentifier,
      hr.activeClient⟩, .inr rfl⟩
  | targetListWrite value client admin => exact commits_hapTargetListWrite hr value client admin
  | activeWrite value client => exact commits_hapActiveWrite hr value client
  | hapConnectionLost client => exact (r.hapConnectionLost_sameTargets client).saves.commits hr
  | select _ _ identifier happart =>
      exact (commits_setActiveIdentifier hr identifier).saves happart.sameTargets.saves
  | registers _ b identifier c happart hin =>
      have hb := happart.sameTargets.saves.inOrder hr
      refine ⟨⟨hb.size, hb.targets, fun k c' hk ↦ ?_, hb.activeIdentifier, hb.activeClient⟩,
        .inr happart.sameTargets.targetsFile⟩
      simp only [Dict.get_set] at hk
      split at hk
      · next heq =>
        simp only [happart.targets, heq]
        exact hin
      · exact hb.hdsConnections k c' hk
  | apart _ _ happart => exact happart.sameTargets.saves.commits hr

/-- A write to the target list that returns is on file. -/
theorem written_of_hapTargetListWrite {value : PyStr} {client : Option ClientAddr} {admin : Bool}
    {text : PyStr} (h : r.hapTargetListWrite json value client admin = (.ok text, r')) :
    r'.Written := by
  rw [hapTargetListWrite] at h
  split at h
  · cases h
  · split at h
    · cases h
    · split at h
      · cases h
      · generalize r.targetOperation json _ _ = x at h
        obtain ⟨_ | _, b⟩ := x
        · cases h
        · simp only [thenDo] at h
          rcases b.saveTargets_cases with ⟨-, heq⟩ | ⟨-, heq⟩ | ⟨-, heq⟩
          · rw [heq] at h
            cases congrArg Prod.snd h
            rfl
          · rw [heq] at h
            cases h
          · rw [heq] at h
            cases h

end

end AppleTVHomeKitRemote

/-! ## Loading what was saved -/

theorem TargetConfiguration.Same.wellFormed {t t' : TargetConfiguration} (h : t.Same t')
    (ht : t.WellFormed) : t'.WellFormed where
  targetIdentifier := h.targetIdentifier ▸ ht.targetIdentifier
  targetName := h.targetName ▸ ht.targetName
  targetCategory := h.targetCategory ▸ ht.targetCategory
  buttons k b hb := ht.buttons k b (h.buttons k ▸ hb)

/-- The loader takes no more targets than there may be. -/
theorem size_loadTargets (json : JsonText) (file : Option json.Text) :
    (loadTargets json file).targets.size ≤ maxTargets := by
  rw [loadTargets.eq_def]
  split
  · exact Nat.zero_le _
  · split
    · next hload =>
      obtain ⟨doc, -, hload⟩ := bind_eq_ok.mp hload
      obtain ⟨root, raws, -, -, hlen, hitems, -⟩ := loadPayload_eq_ok hload
      have hsize := size_loadItems hitems
      rw [Dict.size_empty, Nat.zero_add] at hsize
      exact hsize.trans hlen
    · exact Nat.zero_le _

/-- The targets and the selection in memory at one moment. -/
structure Moment where
  targets : Dict Int TargetConfiguration
  activeIdentifier : Int

namespace Moment

/-- The targets are in order, and the selection is one of them. -/
structure InOrder (m : Moment) : Prop where
  size : m.targets.size ≤ maxTargets
  targets : ∀ k t, m.targets.get k = some t → t.targetIdentifier = k ∧ t.WellFormed
  activeIdentifier : m.activeIdentifier = 0 ∨ m.targets.contains m.activeIdentifier = true

/-- A moment is what the file says: its text, or nothing where there is no file. -/
def OnFile (json : JsonText) (m : Moment) (file : Option json.Text) : Prop :=
  file = some (targetsText json m.targets m.activeIdentifier) ∨
    (file = none ∧ m.targets = .empty ∧ m.activeIdentifier = 0)

theorem OnFile.reloads {json : JsonText} (hjson : json.RoundTrips) {m : Moment}
    {file : Option json.Text} (h : m.OnFile json file) (hm : m.InOrder) :
    Reloads m.targets m.activeIdentifier (loadTargets json file) := by
  rcases h with rfl | ⟨rfl, htargets, hactive⟩
  · exact loadTargets_targetsText hjson hm.size hm.targets hm.activeIdentifier
  · rw [htargets, hactive]
    exact ⟨rfl, rfl, fun _ ↦ .none⟩

end Moment

namespace AppleTVHomeKitRemote

variable {ε T : Type}

/-- What is in memory now. -/
def moment (r : AppleTVHomeKitRemote ε T) : Moment := ⟨r.targets, r.activeIdentifier⟩

theorem InOrder.moment {r : AppleTVHomeKitRemote ε T} (hr : r.InOrder) : r.moment.InOrder :=
  ⟨hr.size, hr.targets, hr.activeIdentifier⟩

/-- A controller that loads a moment in order is in order. -/
theorem inOrder_new {json : JsonText} {file : Option json.Text} {m : Moment}
    (h : Reloads m.targets m.activeIdentifier (loadTargets json file)) (hm : m.InOrder) :
    (new json file : AppleTVHomeKitRemote ε json.Text).InOrder where
  size := size_loadTargets json file
  targets k t ht := by
    have hrel := h.targets k
    rw [show (loadTargets json file).targets.get k = some t from ht] at hrel
    generalize hk : m.targets.get k = old at hrel
    cases hrel with
    | some hsame =>
        obtain ⟨hid, hwf⟩ := hm.targets k _ hk
        exact ⟨hsame.targetIdentifier.trans hid, hsame.wellFormed hwf⟩
  hdsConnections _ _ h := by cases h
  activeIdentifier := by
    show (loadTargets json file).activeIdentifier = 0 ∨
      (loadTargets json file).targets.contains (loadTargets json file).activeIdentifier = true
    rw [h.activeIdentifier]
    refine hm.activeIdentifier.imp_right fun hin ↦ ?_
    obtain ⟨t, ht⟩ := Option.isSome_iff_exists.mp hin
    have hrel := h.targets m.activeIdentifier
    rw [ht] at hrel
    generalize hk : (loadTargets json file).targets.get m.activeIdentifier = new at hrel
    cases hrel with
    | some => exact Option.isSome_iff_exists.mpr ⟨_, hk⟩
  activeClient h := by cases h

end AppleTVHomeKitRemote

/-! ## Runs with restarts -/

open AppleTVHomeKitRemote

/-- A controller whose process may end; the moments are a record that no step reads. -/
structure Host (ε T : Type) where
  remote : AppleTVHomeKitRemote ε T
  /-- What was in memory after each step, and within a step at whose save the process ended. -/
  moments : List Moment

namespace Host

/-- What happens on the host. -/
inductive Label where
  /-- A step of the controller. -/
  | remote (a : AppleTVHomeKitRemote.Label)
  /-- The process ends within a step, in which saves came as far as `faults` says, and is
  started again. -/
  | crash (a : AppleTVHomeKitRemote.Label) (faults : List (Option SaveFault))
deriving Repr

variable {ε : Type} {json : JsonText}

/-- One step. -/
def step (json : JsonText) (opus : OpusEncoder ε) (d : Host ε json.Text) :
    Label → Option (Host ε json.Text)
  | .remote a => (d.remote.step json opus a).map fun r ↦ ⟨r, d.moments ++ [r.moment]⟩
  | .crash a faults => (AppleTVHomeKitRemote.step json opus
      { d.remote with saveFaults := faults } a).map fun r ↦
        ⟨.new json r.targetsFile, d.moments ++ [r.moment]⟩

/-- The registry is in order, and the file says what was in memory at some moment. -/
structure Recovers (d : Host ε json.Text) : Prop where
  inOrder : d.remote.InOrder
  file : ∃ m ∈ d.moments, m.InOrder ∧ m.OnFile json d.remote.targetsFile

theorem Recovers.commits {d : Host ε json.Text} (hd : d.Recovers)
    {r : AppleTVHomeKitRemote ε json.Text} (h : Commits d.remote r) :
    ∃ m ∈ d.moments ++ [r.moment], m.InOrder ∧ m.OnFile json r.targetsFile := by
  rcases h.file with hwritten | hsame
  · exact ⟨r.moment, List.mem_concat_self, h.inOrder.moment, .inl hwritten⟩
  · obtain ⟨m, hm, hok, hfile⟩ := hd.file
    rw [hsame]
    exact ⟨m, List.mem_append_left _ hm, hok, hfile⟩

theorem Recovers.step {opus : OpusEncoder ε} (hjson : json.RoundTrips) {d d' : Host ε json.Text}
    {a : Label} (hd : d.Recovers) (h : d.step json opus a = some d') : d'.Recovers := by
  cases a with
  | remote a =>
      obtain ⟨r, hr, rfl⟩ := Option.map_eq_some_iff.mp h
      have hcommits := step_commits hd.inOrder hr
      exact ⟨hcommits.inOrder, hd.commits hcommits⟩
  | crash a faults =>
      obtain ⟨r, hr, rfl⟩ := Option.map_eq_some_iff.mp h
      have hcommits : Commits d.remote r := by
        have hfaulty : ({ d.remote with saveFaults := faults } :
            AppleTVHomeKitRemote ε json.Text).InOrder :=
          ⟨hd.inOrder.size, hd.inOrder.targets, hd.inOrder.hdsConnections,
            hd.inOrder.activeIdentifier, hd.inOrder.activeClient⟩
        have h := step_commits hfaulty hr
        exact ⟨h.inOrder, h.file⟩
      obtain ⟨m, hm, hok, hfile⟩ := hd.commits hcommits
      have hloads := hfile.reloads hjson hok
      have hstays : (new json r.targetsFile : AppleTVHomeKitRemote ε json.Text).targetsFile =
          r.targetsFile := by
        rw [new, hloads.quarantined]
        rfl
      refine ⟨inOrder_new hloads hok, m, hm, hok, ?_⟩
      show m.OnFile json (new json r.targetsFile : AppleTVHomeKitRemote ε json.Text).targetsFile
      rw [hstays]
      exact hfile

/-- A controller that is first started has nothing on file. -/
theorem recovers_new : (⟨.new json none, [⟨.empty, 0⟩]⟩ : Host ε json.Text).Recovers := by
  refine ⟨registry_new.inOrder, _, List.mem_singleton_self _, ⟨?_, ?_, .inl rfl⟩,
    .inr ⟨rfl, rfl, rfl⟩⟩
  · exact Nat.zero_le _
  · rintro k t ⟨⟩

end Host

/-- A controller on a host, first started in an empty directory. -/
def hosts {ε : Type} (json : JsonText) (opus : OpusEncoder ε) :
    System (Host ε json.Text) Host.Label where
  init d := d = ⟨.new json none, [⟨.empty, 0⟩]⟩
  step d a := d.step json opus a

/-- **The registry survives**: in every run, with saves that fail and a process that ends at any
point and is started again, the registry is in order in every state, the next start loads the
targets and the selection of one moment of the run, and what a write to the target list
returned for is loaded. -/
theorem hosts_recover {ε : Type} (json : JsonText) (opus : OpusEncoder ε) (d : Host ε json.Text)
    (hjson : json.RoundTrips) (h : (hosts json opus).Reachable d) :
    d.remote.InOrder ∧
      (∃ m ∈ d.moments,
        Reloads m.targets m.activeIdentifier (loadTargets json d.remote.targetsFile)) ∧
      ∀ value client admin text r',
        d.remote.hapTargetListWrite json value client admin = (.ok text, r') →
          Reloads r'.targets r'.activeIdentifier (loadTargets json r'.targetsFile) := by
  have hd : d.Recovers := by
    refine h.invariant ?_ fun _ _ _ hd hstep ↦ hd.step hjson hstep
    rintro d rfl
    exact Host.recovers_new
  obtain ⟨m, hm, hok, hfile⟩ := hd.file
  refine ⟨hd.inOrder, ⟨m, hm, hfile.reloads hjson hok⟩, ?_⟩
  intro value client admin text r' hwrite
  have hcommits := commits_hapTargetListWrite hd.inOrder value client admin
  rw [hwrite] at hcommits
  exact Moment.OnFile.reloads hjson (m := r'.moment) (.inl (written_of_hapTargetListWrite hwrite))
    hcommits.inOrder.moment

/-- Adds a target with the identifier 1, and one with the identifier 2. -/
def addOne : AppleTVHomeKitRemote.Label :=
  .targetListWrite (.ofString "AQECAhIBBAEAAAACAUEEBwEBBQICAQA=") (some ⟨"hub", 1⟩) true

@[inherit_doc addOne]
def addTwo : AppleTVHomeKitRemote.Label :=
  .targetListWrite (.ofString "AQECAhIBBAIAAAACAUEEBwEBBQICAQA=") (some ⟨"hub", 1⟩) true

/-- The process ends before the file is replaced, and at the next write behind it. -/
def powerCuts : List Host.Label :=
  [.remote .start, .remote addOne, .crash addTwo [some .replace], .remote .start,
    .crash addTwo [some .chmod]]

/-- The second target is lost once, and kept the second time. -/
theorem hosts_recover_powerCuts :
    ∃ d, (hosts .documents .verbatim).exec ⟨.new .documents none, [⟨.empty, 0⟩]⟩ powerCuts =
        some d ∧
      (d.moments.map fun m ↦ m.targets.keys) = [[], [], [1], [1, 2], [1], [1, 2]] ∧
      d.remote.targets.keys = [1, 2] ∧ d.remote.InOrder := by
  generalize hrun : (hosts .documents .verbatim).exec _ powerCuts = x
  have hx : x.map (fun d ↦ (d.moments.map (fun m ↦ m.targets.keys), d.remote.targets.keys)) =
      some ([[], [], [1], [1, 2], [1], [1, 2]], [1, 2]) := by
    rw [← hrun]
    decide +kernel
  obtain ⟨d, rfl, hd⟩ := Option.map_eq_some_iff.mp hx
  obtain ⟨hmoments, hkeys⟩ := Prod.mk.inj hd
  have h := hosts_recover .documents .verbatim d JsonText.documents_roundTrips
    (.exec (.init rfl) hrun)
  exact ⟨d, rfl, hmoments, hkeys, h.1⟩

end AtvRemote.Remote
