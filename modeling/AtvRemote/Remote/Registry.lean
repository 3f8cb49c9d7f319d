import AtvRemote.Remote.Moves

/-!
# The target registry

At most ten targets, each well formed and under its own identifier; the active identifier
is one of them or none, a client is active only with a target, and a data stream is
registered only for a target (`Registry`).  A write to the target list either raises and
leaves the whole controller as it was, or returns in a registry that is in order
(`Settles`).

`REMOVE` deletes a target while it may still be the active one, so that the registry is
out of order until `set_active_identifier` returns; `Configured` is what holds in between.
-/

namespace AtvRemote.Remote

open Lib Audio

namespace AppleTVHomeKitRemote

section

variable {ε T : Type}

/-! ## The invariant -/

/-- The targets are in order, and files can be written. -/
structure Configured (r : AppleTVHomeKitRemote ε T) : Prop where
  size : r.targets.size ≤ maxTargets
  targets : ∀ k t, r.targets.get k = some t → t.targetIdentifier = k ∧ t.WellFormed
  hdsConnections : ∀ k c, r.hdsConnections.get k = some c → r.targets.contains k = true
  saves : r.saveFaults = []

/-- The targets are in order, and so is the selection among them. -/
structure Registry (r : AppleTVHomeKitRemote ε T) : Prop extends Configured r where
  activeIdentifier : r.activeIdentifier = 0 ∨ r.targets.contains r.activeIdentifier = true
  activeClient : r.activeClient.isSome → r.activeIdentifier ≠ 0

/-- The targets and the selection are the same; clients and connections may have gone. -/
structure SameTargets (r r' : AppleTVHomeKitRemote ε T) : Prop where
  targets : r'.targets = r.targets
  activeIdentifier : r'.activeIdentifier = r.activeIdentifier
  targetsFile : r'.targetsFile = r.targetsFile
  saveFaults : r'.saveFaults = r.saveFaults
  activeClient : r'.activeClient.isSome → r.activeClient.isSome
  hdsConnections : ∀ k c, r'.hdsConnections.get k = some c → r.hdsConnections.get k = some c

namespace SameTargets

variable {r r' r'' : AppleTVHomeKitRemote ε T}

theorem refl (r : AppleTVHomeKitRemote ε T) : SameTargets r r :=
  ⟨rfl, rfl, rfl, rfl, id, fun _ _ ↦ id⟩

theorem trans (h : SameTargets r r') (h' : SameTargets r' r'') : SameTargets r r'' :=
  ⟨h'.targets.trans h.targets, h'.activeIdentifier.trans h.activeIdentifier,
    h'.targetsFile.trans h.targetsFile, h'.saveFaults.trans h.saveFaults,
    fun hc ↦ h.activeClient (h'.activeClient hc),
    fun k c hk ↦ h.hdsConnections k c (h'.hdsConnections k c hk)⟩

theorem configured (h : SameTargets r r') (hr : r.Configured) : r'.Configured where
  size := by
    rw [h.targets]
    exact hr.size
  targets := by
    rw [h.targets]
    exact hr.targets
  hdsConnections k c hk := by
    rw [h.targets]
    exact hr.hdsConnections k c (h.hdsConnections k c hk)
  saves := h.saveFaults.trans hr.saves

theorem registry (h : SameTargets r r') (hr : r.Registry) : r'.Registry where
  toConfigured := h.configured hr.toConfigured
  activeIdentifier := by
    rw [h.activeIdentifier, h.targets]
    exact hr.activeIdentifier
  activeClient hc := by
    rw [h.activeIdentifier]
    exact hr.activeClient (h.activeClient hc)

end SameTargets

theorem Apart.sameTargets {r r' : AppleTVHomeKitRemote ε T} (h : Apart r r') :
    SameTargets r r' where
  targets := h.targets
  activeIdentifier := h.activeIdentifier
  targetsFile := congrArg (·.targetsFile) h.rest
  saveFaults := congrArg (·.saveFaults) h.rest
  activeClient := by
    rw [h.activeClient]
    exact id
  hdsConnections := h.hdsConnections

theorem SessionsOnly.sameTargets {r r' : AppleTVHomeKitRemote ε T} (h : SessionsOnly r r') :
    SameTargets r r' := h.apart.sameTargets

section

variable (r : AppleTVHomeKitRemote ε T)

theorem sameTargets_closeConnection (c : Nat) : SameTargets r (r.closeConnection c) :=
  (r.apart_closeConnection c).sameTargets

theorem sameTargets_closeAll : SameTargets r r.closeAll := (r.apart_closings _).sameTargets

theorem sameTargets_closeForClient (client : ClientAddr) :
    SameTargets r (r.closeForClient client) := (r.apart_closings _).sameTargets

theorem sameTargets_scheduleSessionCancel (session : Option Nat) :
    SameTargets r (r.scheduleSessionCancel session) :=
  (r.sessionsOnly_scheduleSessionCancel session).sameTargets

theorem sameTargets_deactivate : SameTargets r r.deactivate := by
  have hclear : SameTargets r { r with activeClient := none } :=
    ⟨rfl, rfl, rfl, rfl, nofun, fun _ _ ↦ id⟩
  exact hclear.trans (sameTargets_scheduleSessionCancel _ _)

/-- Deleting a target is dropping it and its registration, and closing its connection. -/
theorem sameTargets_deleteTarget (identifier : Int) :
    SameTargets { r with
      targets := r.targets.erase identifier
      hdsConnections := r.hdsConnections.erase identifier } (r.deleteTarget identifier) := by
  simp only [deleteTarget]
  split
  · exact sameTargets_closeConnection _ _
  · exact .refl _

theorem sameTargets_setChars (activeIdentifier active : Int) :
    SameTargets r (r.setChars activeIdentifier active) :=
  ⟨rfl, rfl, rfl, rfl, id, fun _ _ ↦ id⟩

end

/-- Identifiers of targets fit `uint32`. -/
theorem Configured.range {r : AppleTVHomeKitRemote ε T} (hr : r.Configured) {k : Int}
    (hk : r.targets.contains k = true) : 1 ≤ k ∧ k ≤ 0xFFFFFFFF := by
  obtain ⟨t, ht⟩ := Option.isSome_iff_exists.mp hk
  obtain ⟨rfl, hwf⟩ := hr.targets k t ht
  exact hwf.targetIdentifier

/-- Assigning a well-formed target under its own identifier. -/
theorem Configured.setTarget {r : AppleTVHomeKitRemote ε T} (hr : r.Configured) {k : Int}
    {t : TargetConfiguration} (hk : t.targetIdentifier = k) (ht : t.WellFormed)
    (hsize : r.targets.contains k = false → r.targets.size < maxTargets) :
    ({ r with targets := r.targets.set k t }).Configured where
  size := by
    cases hin : r.targets.contains k with
    | true =>
        rw [Dict.size_set_of_mem (Dict.contains_iff.mp hin)]
        exact hr.size
    | false =>
        rw [Dict.size_set_of_not_mem
          (Dict.get_eq_none_iff.mp (Dict.contains_eq_false_iff.mp hin))]
        exact hsize hin
  targets k' t' ht' := by
    rw [Dict.get_set] at ht'
    split at ht'
    · next heq =>
      cases ht'
      exact ⟨hk.trans heq.symm, ht⟩
    · exact hr.targets k' t' ht'
  hdsConnections k' c hk' := by
    rw [Dict.contains, Dict.get_set]
    split
    · rfl
    · exact hr.hdsConnections k' c hk'
  saves := hr.saves

/-- Assigning to a target does not take one away. -/
theorem contains_setTarget {targets : Dict Int TargetConfiguration} {k k' : Int}
    (h : targets.contains k' = true) (t : TargetConfiguration) :
    (targets.set k t).contains k' = true :=
  Dict.contains_iff.mpr (Dict.mem_keys_set.mpr (.inr (Dict.contains_iff.mp h)))

theorem Registry.setTarget {r : AppleTVHomeKitRemote ε T} (hr : r.Registry) {k : Int}
    {t : TargetConfiguration} (hk : t.targetIdentifier = k) (ht : t.WellFormed)
    (hsize : r.targets.contains k = false → r.targets.size < maxTargets) :
    ({ r with targets := r.targets.set k t }).Registry where
  toConfigured := hr.toConfigured.setTarget hk ht hsize
  activeIdentifier := hr.activeIdentifier.imp_right fun h ↦ contains_setTarget h t
  activeClient := hr.activeClient

end

/-! ## The operations -/

section

variable {ε : Type} {json : JsonText}

/-- The file has the targets and the selection. -/
def Written (r : AppleTVHomeKitRemote ε json.Text) : Prop :=
  r.targetsFile = some (targetsText json r.targets r.activeIdentifier)

/-- A call raises and leaves everything as it was, or returns in a state with the property. -/
inductive Settles {α : Type} (P : AppleTVHomeKitRemote ε json.Text → Prop)
    (r : AppleTVHomeKitRemote ε json.Text) :
    Except PyErr α × AppleTVHomeKitRemote ε json.Text → Prop
  | raised (e : PyErr) : Settles P r (.error e, r)
  | returned (a : α) (r' : AppleTVHomeKitRemote ε json.Text) (h : P r') : Settles P r (.ok a, r')

variable {r : AppleTVHomeKitRemote ε json.Text}

theorem saveTargets_ok (hsaves : r.saveFaults = []) : r.saveTargets json =
    (.ok (), { r with targetsFile := some (targetsText json r.targets r.activeIdentifier) }) := by
  simp only [saveTargets, hsaves]

/-- A selection that is made is written, and ends the activation. -/
structure Selected (r : AppleTVHomeKitRemote ε json.Text) (identifier : Int)
    (r' : AppleTVHomeKitRemote ε json.Text) : Prop where
  targets : r'.targets = r.targets
  hdsConnections : r'.hdsConnections = r.hdsConnections
  saveFaults : r'.saveFaults = r.saveFaults
  activeIdentifier : r'.activeIdentifier = identifier
  activeClient : r'.activeClient = none
  written : r'.Written

/-- `set_active_identifier` raises, or finds the identifier selected, or selects it. -/
theorem setActiveIdentifier_cases (hsaves : r.saveFaults = []) (identifier : Int) :
    (∃ e, r.setActiveIdentifier json identifier = (.error e, r) ∧
        ¬(0 ≤ identifier ∧ identifier ≤ 0xFFFFFFFF ∧
          (identifier = 0 ∨ r.targets.contains identifier = true))) ∨
      (r.setActiveIdentifier json identifier = (.ok (), r) ∧ identifier = r.activeIdentifier) ∨
      ∃ r', r.setActiveIdentifier json identifier = (.ok (), r') ∧ r.Selected identifier r' ∧
        (identifier = 0 ∨ r.targets.contains identifier = true) := by
  unfold setActiveIdentifier
  split
  · next hrange => exact .inl ⟨_, rfl, fun h ↦ hrange ⟨h.1, h.2.1⟩⟩
  · split
    · next hunknown =>
      refine .inl ⟨_, rfl, fun h ↦ ?_⟩
      rcases h.2.2 with h | h
      · exact hunknown.1 h
      · rw [hunknown.2] at h
        cases h
    · next hknown =>
      split
      · next hsame => exact .inr (.inl ⟨rfl, hsame⟩)
      · refine .inr (.inr ?_)
        have hvalid : identifier = 0 ∨ r.targets.contains identifier = true := by
          by_cases h0 : identifier = 0
          · exact .inl h0
          · exact .inr (by simpa [h0] using hknown)
        simp only [setChars]
        rw [saveTargets_ok (by exact hsaves)]
        simp only [thenDo]
        split
        · next sid _ =>
          split
          · generalize hw : ({ r with
              activeIdentifier := identifier
              activeClient := none
              accessory := r.accessory.map fun _ ↦ ⟨identifier, 0⟩
              targetsFile := some (targetsText json r.targets identifier) } :
                AppleTVHomeKitRemote ε json.Text) = w
            have h := w.sessionsOnly_scheduleSessionCancel (some sid)
            refine ⟨_, rfl, ?_, hvalid⟩
            constructor
            · rw [h.targets, ← hw]
            · rw [h.hdsConnections, ← hw]
            · rw [h.sameTargets.saveFaults, ← hw]
            · rw [h.sameTargets.activeIdentifier, ← hw]
            · rw [congrArg (·.activeClient) h.rest, ← hw]
            · rw [Written, h.sameTargets.targetsFile, h.targets, h.sameTargets.activeIdentifier,
                ← hw]
          · exact ⟨_, rfl, ⟨rfl, rfl, rfl, rfl, rfl, rfl⟩, hvalid⟩
        · exact ⟨_, rfl, ⟨rfl, rfl, rfl, rfl, rfl, rfl⟩, hvalid⟩

/-- A selection puts the registry in order. -/
theorem Selected.registry {r' : AppleTVHomeKitRemote ε json.Text} {identifier : Int}
    (h : r.Selected identifier r') (hr : r.Configured)
    (hvalid : identifier = 0 ∨ r.targets.contains identifier = true) : r'.Registry where
  size := by
    rw [h.targets]
    exact hr.size
  targets := by
    rw [h.targets]
    exact hr.targets
  hdsConnections := by
    rw [h.targets, h.hdsConnections]
    exact hr.hdsConnections
  saves := h.saveFaults.trans hr.saves
  activeIdentifier := by
    rw [h.activeIdentifier, h.targets]
    exact hvalid
  activeClient hc := by
    rw [h.activeClient] at hc
    cases hc

/-! ### The target list -/

/-- What `UPDATE` makes of two well-formed targets is well formed. -/
theorem updated_wellFormed {current config : TargetConfiguration} (h : current.WellFormed)
    (h' : config.WellFormed) : (updated current config).WellFormed where
  targetIdentifier := h.targetIdentifier
  targetName := by
    unfold updated
    simp only
    split
    · exact h.targetName
    · exact h'.targetName
  targetCategory n hn := by
    cases hc : config.targetCategory with
    | none =>
        simp only [updated, hc, Option.none_or] at hn
        exact h.targetCategory n hn
    | some m =>
        simp only [updated, hc, Option.some_or] at hn
        exact h'.targetCategory n (hc.trans hn)
  buttons k b hb := by
    simp only [updated, Dict.get_update config.buttons.nodup, Option.or_eq_some_iff] at hb
    rcases hb with hb | ⟨-, hb⟩
    · exact h'.buttons k b hb
    · exact h.buttons k b hb

theorem addTarget_settles (hr : r.Registry) {config : Option TargetConfiguration}
    (hconfig : ∀ t, config = some t → t.WellFormed) :
    Settles Registry r (r.addTarget json config) := by
  cases config with
  | none => exact .raised _
  | some t =>
      unfold addTarget
      simp only
      split
      · exact .raised _
      · next hroom =>
        have hset := hr.setTarget rfl (hconfig t rfl) fun hnew ↦
          Nat.lt_of_not_le fun hfull ↦ hroom ⟨hnew, hfull⟩
        split
        · next hnone =>
          refine .returned _ _ ⟨⟨hset.size, hset.targets, hset.hdsConnections, hset.saves⟩,
            .inr ?_, fun hc ↦ (hr.activeClient hc hnone).elim⟩
          exact Dict.contains_iff.mpr (Dict.mem_keys_set.mpr (.inl rfl))
        · exact .returned _ _ hset

theorem updateTarget_settles (hr : r.Registry) {config : Option TargetConfiguration}
    (hconfig : ∀ t, config = some t → t.WellFormed) :
    Settles Registry r (r.updateTarget json config) := by
  unfold updateTarget
  split
  · next t current hcurrent =>
    rw [Option.bind_some] at hcurrent
    obtain ⟨hid, hwf⟩ := hr.targets _ _ hcurrent
    refine .returned _ _ (hr.setTarget hid (updated_wellFormed hwf (hconfig t rfl)) fun hnew ↦ ?_)
    rw [Dict.contains_eq_false_iff.mp hnew] at hcurrent
    cases hcurrent
  · exact .raised _

/-- Removing buttons from a target. -/
theorem removeButtons_wellFormed {t : TargetConfiguration} (h : t.WellFormed) (ids : List Int) :
    ({ t with buttons := ids.foldl Dict.erase t.buttons }).WellFormed where
  targetIdentifier := h.targetIdentifier
  targetName := h.targetName
  targetCategory := h.targetCategory
  buttons k b hb := h.buttons k b (Dict.get_of_get_foldl_erase hb)

/-- A target is deleted, with its registration. -/
theorem Configured.dropTarget (hr : r.Configured) (identifier : Int) :
    ({ r with
      targets := r.targets.erase identifier
      hdsConnections := r.hdsConnections.erase identifier } :
        AppleTVHomeKitRemote ε json.Text).Configured where
  size := (r.targets.size_erase_le identifier).trans hr.size
  targets k t ht := hr.targets k t (Dict.get_of_get_erase ht).2
  hdsConnections k c hk := by
    obtain ⟨hne, hk⟩ := Dict.get_of_get_erase hk
    rw [Dict.contains, Dict.get_erase_of_ne hne]
    exact hr.hdsConnections k c hk
  saves := hr.saves

theorem removeTarget_settles (hr : r.Registry) {config : Option TargetConfiguration} :
    Settles Registry r (r.removeTarget json config) := by
  unfold removeTarget
  split
  · next t current hcurrent =>
    obtain ⟨hid, hwf⟩ := hr.targets _ _ hcurrent
    have hin : r.targets.contains t.targetIdentifier = true :=
      Option.isSome_iff_exists.mpr ⟨current, hcurrent⟩
    simp only
    split
    · have hclose := r.sameTargets_deleteTarget t.targetIdentifier
      have hconf := hclose.configured (hr.toConfigured.dropTarget t.targetIdentifier)
      have htargets := hclose.targets
      have hactive := hclose.activeIdentifier
      have hclient := hclose.activeClient
      generalize r.deleteTarget t.targetIdentifier = b at hconf htargets hactive hclient ⊢
      simp only at htargets hactive hclient
      split
      · next hwas =>
        -- the first of the targets that are left is selected
        have hfirst := firstIdentifier_cases b.targets
        have hrange := hr.range hin
        rcases setActiveIdentifier_cases hconf.saves (firstIdentifier b.targets) with
          ⟨e, -, hinvalid⟩ | ⟨-, hsame⟩ | ⟨r', hset, hsel, hvalid⟩
        · refine (hinvalid ⟨?_, ?_, hfirst⟩).elim
          · rcases hfirst with h | h
            · omega
            · have := hconf.range h
              omega
          · rcases hfirst with h | h
            · omega
            · exact (hconf.range h).2
        · rcases hfirst with h | h
          · omega
          · rw [hsame, hwas, htargets, Dict.contains, Dict.get_erase_self] at h
            cases h
        · rw [hset]
          exact .returned _ _ (hsel.registry hconf hvalid)
      · next hother =>
        refine .returned _ _ ⟨hconf, ?_, fun hc ↦ ?_⟩
        · rw [hactive, htargets]
          refine hr.activeIdentifier.imp_right fun h ↦ ?_
          rw [Dict.contains, Dict.get_erase_of_ne (hactive ▸ hother)]
          exact h
        · rw [hactive]
          exact hr.activeClient (hclient hc)
    · refine .returned _ _ (hr.setTarget hid (removeButtons_wellFormed hwf _) fun hnew ↦ ?_)
      rw [hin] at hnew
      cases hnew
  · exact .raised _

theorem resetTargets_settles (hr : r.Registry) (config : Option TargetConfiguration) :
    Settles Registry r (r.resetTargets json config) := by
  cases config with
  | some => exact .raised _
  | none =>
      refine .returned _ _ ?_
      have hall := sameTargets_closeAll ({ r with targets := .empty })
      generalize closeAll ({ r with targets := .empty }) = b at hall ⊢
      refine (sameTargets_scheduleSessionCancel _ _).registry
        ((sameTargets_setChars _ 0 0).registry ⟨⟨?_, ?_, ?_, ?_⟩, .inl rfl, nofun⟩)
      · simp only [hall.targets, Dict.size_empty, Nat.zero_le]
      · simp only [hall.targets]
        exact fun k t ht ↦ by cases ht
      · exact fun k c hk ↦ by cases hk
      · exact hall.saveFaults.trans hr.saves

theorem targetOperation_settles (hr : r.Registry) (operation : TargetOperation)
    {config : Option TargetConfiguration} (hconfig : ∀ t, config = some t → t.WellFormed) :
    Settles Registry r (r.targetOperation json operation config) := by
  cases operation with
  | undefined => exact .raised _
  | add => exact addTarget_settles hr hconfig
  | update => exact updateTarget_settles hr hconfig
  | remove => exact removeTarget_settles hr
  | reset => exact resetTargets_settles hr config
  | list =>
      unfold targetOperation
      simp only
      split
      · exact .raised _
      · exact .returned _ _ hr

/-- A configuration that is written is well formed. -/
theorem parseTargetWrite_ok {value : PyStr} {operation : TargetOperation}
    {config : Option TargetConfiguration} (h : parseTargetWrite value = .ok (operation, config))
    {t : TargetConfiguration} (ht : config = some t) : t.WellFormed := by
  obtain ⟨raw, -, h⟩ := bind_eq_ok.mp h
  obtain ⟨data, -, h⟩ := bind_eq_ok.mp h
  obtain ⟨bytes, -, h⟩ := bind_eq_ok.mp h
  split at h
  · split at h
    · obtain ⟨config', hconfig, h⟩ := bind_eq_ok.mp h
      cases h
      rw [ht] at hconfig
      exact parseTarget_ok hconfig
    · cases h
  · cases h

/-- **A write to the target list raises and changes nothing, or returns in a registry that is
in order and on file.** -/
theorem hapTargetListWrite_settles (hr : r.Registry) (value : PyStr) (client : Option ClientAddr)
    (admin : Bool) : Settles (fun r' ↦ r'.Registry ∧ r'.Written) r
      (r.hapTargetListWrite json value client admin) := by
  unfold hapTargetListWrite
  split
  · exact .raised _
  · split
    · exact .raised _
    · split
      · exact .raised _
      · next operation config hparse =>
        have hop := targetOperation_settles hr operation fun t ht ↦ parseTargetWrite_ok hparse ht
        generalize r.targetOperation json operation config = x at hop
        cases hop with
        | raised e => exact .raised e
        | returned _ r' hr' =>
            simp only [thenDo, saveTargets_ok hr'.saves]
            obtain ⟨text, htext⟩ := targetListValue_isOk fun k t ht ↦ (hr'.targets k t ht).2
            rw [htext]
            refine .returned _ _ ⟨⟨⟨hr'.size, hr'.targets, hr'.hdsConnections, hr'.saves⟩,
              hr'.activeIdentifier, hr'.activeClient⟩, rfl⟩

/-! ## Steps -/

/-- The registry stays in order, and a change of the targets or of the selection is written
to the file. -/
structure Advances (r r' : AppleTVHomeKitRemote ε json.Text) : Prop where
  registry : r'.Registry
  file : r'.Written ∨ (r'.targets = r.targets ∧ r'.activeIdentifier = r.activeIdentifier ∧
    r'.targetsFile = r.targetsFile)

namespace Advances

theorem refl (hr : r.Registry) : Advances r r := ⟨hr, .inr ⟨rfl, rfl, rfl⟩⟩

variable {r' r'' : AppleTVHomeKitRemote ε json.Text}

theorem of_same (hr : r.Registry) (h : SameTargets r r') : Advances r r' :=
  ⟨h.registry hr, .inr ⟨h.targets, h.activeIdentifier, h.targetsFile⟩⟩

theorem trans (h : Advances r r') (h' : Advances r' r'') : Advances r r'' := by
  refine ⟨h'.registry, ?_⟩
  rcases h'.file with hw | ⟨ht, ha, hf⟩
  · exact .inl hw
  · rw [Written, ht, ha, hf]
    exact h.file

end Advances

theorem setActiveIdentifier_advances (hr : r.Registry) (identifier : Int) :
    Advances r (r.setActiveIdentifier json identifier).2 := by
  rcases setActiveIdentifier_cases hr.saves identifier with
    ⟨e, heq, -⟩ | ⟨heq, -⟩ | ⟨r', heq, hsel, hvalid⟩
  · rw [heq]
    exact .refl hr
  · rw [heq]
    exact .refl hr
  · rw [heq]
    exact ⟨hsel.registry hr.toConfigured hvalid, .inl hsel.written⟩

theorem hapActiveWrite_advances (hr : r.Registry) (value : Obj) (client : Option ClientAddr) :
    Advances r (r.hapActiveWrite json value client).2 := by
  unfold hapActiveWrite
  split
  · exact .refl hr
  · next hactive =>
    split
    · exact .refl hr
    · split
      · exact ⟨⟨⟨hr.size, hr.targets, hr.hdsConnections, hr.saves⟩, hr.activeIdentifier,
          fun _ ↦ hactive⟩, .inr ⟨rfl, rfl, rfl⟩⟩
      · split
        · exact .refl hr
        · exact .of_same hr r.sameTargets_deactivate

theorem hapConnectionLost_sameTargets (r : AppleTVHomeKitRemote ε json.Text) (client : ClientAddr) :
    SameTargets r (r.hapConnectionLost json client) := by
  have hclose := r.sameTargets_closeForClient client
  simp only [hapConnectionLost]
  generalize r.closeForClient client = b at hclose ⊢
  split
  · have hlost := hclose.trans b.sameTargets_deactivate
    exact hlost.trans ⟨rfl, rfl, rfl, rfl, id, fun _ _ ↦ id⟩
  · exact hclose

variable {opus : OpusEncoder ε}

/-- The environment lets files be written. -/
def Label.lenient : Label → Bool
  | .saveFaults _ => false
  | _ => true

/-- **What a step does to the registry.** -/
theorem step_advances {r' : AppleTVHomeKitRemote ε json.Text} {a : Label} (hr : r.Registry)
    (ha : a.lenient = true) (h : r.step json opus a = some r') : Advances r r' := by
  cases step_turn h with
  | start => exact .of_same hr ⟨rfl, rfl, rfl, rfl, id, fun _ _ ↦ id⟩
  | saveFaults => cases ha
  | targetListWrite value client admin =>
      have hwrite := hapTargetListWrite_settles hr value client admin
      generalize r.hapTargetListWrite json value client admin = x at hwrite ⊢
      cases hwrite with
      | raised => exact .refl hr
      | returned _ _ h => exact ⟨h.1, .inl h.2⟩
  | activeWrite value client => exact hapActiveWrite_advances hr value client
  | hapConnectionLost client => exact .of_same hr (r.hapConnectionLost_sameTargets client)
  | select _ _ identifier happart =>
      have hselect := setActiveIdentifier_advances hr identifier
      exact hselect.trans (.of_same hselect.registry happart.sameTargets)
  | registers _ b identifier c happart hin =>
      have hsame := happart.sameTargets
      have hb := hsame.registry hr
      refine ⟨⟨⟨hb.size, hb.targets, fun k c' hk ↦ ?_, hb.saves⟩, hb.activeIdentifier,
        hb.activeClient⟩, .inr ⟨hsame.targets, hsame.activeIdentifier, hsame.targetsFile⟩⟩
      simp only [Dict.get_set] at hk
      split at hk
      · next heq =>
        simp only [hsame.targets, heq]
        exact hin
      · exact hb.hdsConnections k c' hk
  | apart _ _ happart => exact .of_same hr happart.sameTargets

/-- Without a file the registry begins empty. -/
theorem registry_new : (new json none : AppleTVHomeKitRemote ε json.Text).Registry where
  size := Nat.zero_le _
  targets _ _ h := by cases h
  hdsConnections _ _ h := by cases h
  saves := rfl
  activeIdentifier := .inl rfl
  activeClient h := by cases h

end

end AppleTVHomeKitRemote

open AppleTVHomeKitRemote

/-! ## Runs -/

variable {ε : Type}

/-- In every run that starts without a file and can write files, the registry is in order. -/
theorem registry_of_reachable {json : JsonText} {opus : OpusEncoder ε}
    {r : AppleTVHomeKitRemote ε json.Text}
    (h : (remotes json opus none).ReachableVia (fun _ a ↦ a.lenient = true) r) : r.Registry := by
  refine h.invariant (I := Registry) ?_ ?_
  · rintro r rfl
    exact registry_new
  · intro r r' a hr ha hstep
    exact (step_advances hr ha hstep).registry

/-- **The registry is in order in every reachable state, the target list can be read, and a
write to it that raises changes nothing.** -/
theorem registryInOrder (json : JsonText) (opus : OpusEncoder ε)
    (r : AppleTVHomeKitRemote ε json.Text)
    (h : (remotes json opus none).ReachableVia (fun _ a ↦ a.lenient = true) r) :
    r.Registry ∧ (∃ text, targetListValue r.targets = .ok text) ∧
      ∀ value client admin e r', r.hapTargetListWrite json value client admin = (.error e, r') →
        r' = r := by
  have hr := registry_of_reachable h
  refine ⟨hr, targetListValue_isOk fun k t ht ↦ (hr.targets k t ht).2, ?_⟩
  intro value client admin e r' hwrite
  have hsettles := hapTargetListWrite_settles hr value client admin
  rw [hwrite] at hsettles
  cases hsettles
  rfl

/-- A target is added with a name and a button and selected, a client activates it, and its
data stream identifies itself and is closed. -/
def oneTarget : List Label :=
  [.start, .targetListWrite (.ofString "AQECAhIBBAEAAAACAUEEBwEBBQICAQA=") (some ⟨"hub", 1⟩) true,
    .accept ⟨"hub", 1⟩, .whoami 0 1, .activeWrite (.int 1) (some ⟨"hub", 1⟩), .close 0]

/-- The registry with one target. -/
theorem registryInOrder_oneTarget :
    ∃ r, (remotes .documents .verbatim none).exec (.new .documents none) oneTarget = some r ∧
      r.targets.keys = [1] ∧ r.Registry := by
  have hsome : ((remotes .documents .verbatim none).exec (.new .documents none) oneTarget).map
      (fun r ↦ r.targets.keys) = some [1] := by decide
  obtain ⟨r, hr, hkeys⟩ := Option.map_eq_some_iff.mp hsome
  have hinit : (remotes .documents .verbatim none).Run [] (.new .documents none) := .init rfl
  have hok : ∀ p ∈ (remotes .documents .verbatim none).trace (.new .documents none) oneTarget,
      p.2.lenient = true := by decide
  have h := registryInOrder .documents .verbatim r ((hinit.exec hr).reachableVia hok)
  exact ⟨r, hr, hkeys, h.1⟩

end AtvRemote.Remote
