import AtvRemote.Remote.Switch

/-!
# Saves that fail

`hap_target_list_write` and `set_active_identifier` change memory and the characteristics
first and save then, so that an exception of `_save_targets` leaves them changed.  A call is
all or nothing exactly when it is refused, or nothing in it raises after the change, or there
is nothing to change and the file either is not written or has the text already
(`unchanged_iff`).
-/

namespace AtvRemote.Remote

open Lib Audio

/-! ## Text of the same targets -/

/-- The same targets under the same identifiers, in any order. -/
def SameUnder (targets targets' : Int → Option TargetConfiguration) : Prop :=
  ∀ k, Option.Rel TargetConfiguration.Same (targets k) (targets' k)

theorem SameUnder.refl (targets : Int → Option TargetConfiguration) :
    SameUnder targets targets := by
  intro k
  cases targets k with
  | none => exact .none
  | some t => exact .some (.refl t)

/-- The entries of a dictionary are those of the values under its keys, whatever their order. -/
theorem entries_congr {α : Type} {f : α → Obj} {d d' : Dict Int α}
    (h : ∀ k, (d.get k).map f = (d'.get k).map f) : entries f d = entries f d' := by
  have hmem : ∀ (d : Dict Int α) (q : Int × Obj),
      q ∈ d.items.map (fun p ↦ (p.1, f p.2)) ↔ (d.get q.1).map f = some q.2 := by
    rintro d ⟨k, v⟩
    rw [List.mem_map, Option.map_eq_some_iff]
    constructor
    · rintro ⟨p, hp, heq⟩
      obtain ⟨rfl, rfl⟩ := Prod.mk.inj heq
      exact ⟨p.2, Dict.get_eq_some_iff.mpr hp, rfl⟩
    · rintro ⟨x, hx, rfl⟩
      exact ⟨(k, x), Dict.get_eq_some_iff.mp hx, rfl⟩
  have hkeys : ∀ d : Dict Int α, (d.items.map fun p ↦ (p.1, f p.2)).map Prod.fst = d.keys := by
    intro d
    rw [List.map_map]
    rfl
  have hperm : (d.items.map fun p ↦ (p.1, f p.2)).Perm (d'.items.map fun p ↦ (p.1, f p.2)) := by
    refine (List.perm_ext_iff_of_nodup ?_ ?_).mpr fun q ↦ ?_
    · exact .of_map Prod.fst (hkeys d ▸ d.nodup_keys)
    · exact .of_map Prod.fst (hkeys d' ▸ d'.nodup_keys)
    · rw [hmem, hmem, h]
  have hentries : ∀ d : Dict Int α, entries f d =
      ((d.items.map fun p ↦ (p.1, f p.2)).insertionSort fun p q ↦ p.1 ≤ q.1).map
        fun p ↦ (.str (strOfInt p.1), p.2) := by
    intro d
    rw [← List.map_insertionSort (fun p q : Int × α ↦ p.1 ≤ q.1) (fun p q : Int × Obj ↦ p.1 ≤ q.1)
      (fun p ↦ (p.1, f p.2)) d.items fun _ _ _ _ ↦ Iff.rfl, List.map_map]
    rfl
  rw [hentries, hentries]
  congr 1
  -- both are sorted by keys of which no two are equal
  refine List.Perm.eq_of_pairwise ?_
    (List.pairwise_insertionSort _ _) (List.pairwise_insertionSort _ _)
    ((List.perm_insertionSort _ _).trans (hperm.trans (List.perm_insertionSort _ _).symm))
  intro p q hp hq hle hge
  have hp' := (hmem d p).mp ((List.mem_insertionSort _).mp hp)
  have hq' := (hmem d' q).mp ((List.mem_insertionSort _).mp hq)
  have heq : p.1 = q.1 := Int.le_antisymm hle hge
  rw [← h, ← heq] at hq'
  exact Prod.ext heq (Option.some.inj (hp'.symm.trans hq'))

/-- The same targets are written as the same text. -/
theorem targetsText_congr {targets targets' : Dict Int TargetConfiguration}
    (h : SameUnder targets.get targets'.get) (json : JsonText) (activeIdentifier : Int) :
    targetsText json targets activeIdentifier = targetsText json targets' activeIdentifier := by
  have hdict : ∀ {t t' : TargetConfiguration}, t.Same t' → targetToDict t = targetToDict t' := by
    intro t t' hsame
    have hbuttons := entries_congr (f := buttonToDict) fun k ↦ congrArg _ (hsame.buttons k)
    rw [targetToDict, targetToDict, hsame.targetIdentifier, hsame.targetName, hsame.targetCategory,
      hbuttons]
  have hentries : entries targetToDict targets = entries targetToDict targets' := by
    refine entries_congr fun k ↦ ?_
    have hk := h k
    revert hk
    generalize targets.get k = o
    generalize targets'.get k = o'
    rintro (hsame | _)
    · exact congrArg some (hdict hsame)
    · rfl
  rw [targetsText, targetsPayload, hentries]
  rfl

/-! ## The target list can be read -/

/-- A target list can be read exactly when each of its targets can be written. -/
theorem targetListValue_isOk_iff {targets : Dict Int TargetConfiguration} :
    (∃ text, targetListValue targets = .ok text) ↔
      ∀ k t, targets.get k = some t → ∃ bytes, targetValue t = .ok bytes := by
  constructor
  · rintro ⟨text, h⟩ k t ht
    obtain ⟨parts, hparts, -⟩ := bind_eq_ok.mp h
    refine mapM_mem hparts t ((List.mem_insertionSort _).mpr (List.mem_map.mpr ⟨(k, t), ?_, rfl⟩))
    exact Dict.get_eq_some_iff.mp ht
  · intro h
    obtain ⟨parts, hparts⟩ := mapM_isOk targetValue (sortedTargets targets) fun t ht ↦ by
      obtain ⟨⟨k, t'⟩, hmem, rfl⟩ := List.mem_map.mp ((List.mem_insertionSort _).mp ht)
      exact h k t' (Dict.get_eq_some_iff.mpr hmem)
    exact ⟨_, by rw [targetListValue, hparts]; rfl⟩

/-! ## What a write is to do -/

/-- The target without some of its buttons. -/
def TargetConfiguration.withoutButtons (t : TargetConfiguration) (ids : List Int) :
    TargetConfiguration :=
  { t with buttons := ids.foldl Dict.erase t.buttons }

/-- The target that an operation is to leave under an identifier. -/
def targetAfter (operation : TargetOperation) (config : Option TargetConfiguration)
    (targets : Dict Int TargetConfiguration) (k : Int) : Option TargetConfiguration :=
  match operation, config with
  | .add, some c => if k = c.targetIdentifier then some c else targets.get k
  | .update, some c =>
      if k = c.targetIdentifier then
        (targets.get k).map fun t ↦ AppleTVHomeKitRemote.updated t c
      else targets.get k
  | .remove, some c =>
      if k = c.targetIdentifier then
        if c.buttons.items.isEmpty then none
        else (targets.get k).map fun t ↦ t.withoutButtons c.buttons.keys
      else targets.get k
  | .reset, _ => none
  | _, _ => targets.get k

namespace AppleTVHomeKitRemote

section

variable {ε T : Type}

/-- The targets, the selection, what HomeKit shows of it and the file are the same. -/
structure Unchanged (r r' : AppleTVHomeKitRemote ε T) : Prop where
  targets : SameUnder r.targets.get r'.targets.get
  activeIdentifier : r'.activeIdentifier = r.activeIdentifier
  activeClient : r'.activeClient = r.activeClient
  accessory : r'.accessory = r.accessory
  targetsFile : r'.targetsFile = r.targetsFile

theorem Unchanged.refl (r : AppleTVHomeKitRemote ε T) : Unchanged r r :=
  ⟨.refl _, rfl, rfl, rfl, rfl⟩

/-- The operation raises before it changes anything. -/
def Refused (r : AppleTVHomeKitRemote ε T) (operation : TargetOperation)
    (config : Option TargetConfiguration) : Prop :=
  match operation with
  | .add => ∀ c, config = some c →
      r.targets.contains c.targetIdentifier = false ∧ maxTargets ≤ r.targets.size
  | .update | .remove => ∀ c, config = some c → r.targets.contains c.targetIdentifier = false
  | .reset | .list => config ≠ none
  | .undefined => True

/-- The operation is to leave the selection as it is. -/
def SelectionStays (r : AppleTVHomeKitRemote ε T) (operation : TargetOperation) : Prop :=
  match operation with
  | .add => r.activeIdentifier ≠ 0
  | .reset => r.activeIdentifier = 0 ∧ r.activeClient = none ∧ r.accessory = some ⟨0, 0⟩
  | _ => True

/-- The operation removes the target that is selected. -/
def RemovesSelected (r : AppleTVHomeKitRemote ε T) (operation : TargetOperation)
    (config : Option TargetConfiguration) : Prop :=
  operation = .remove ∧ ∃ c, config = some c ∧ c.buttons.items.isEmpty = true ∧
    c.targetIdentifier = r.activeIdentifier

/-- The calls of `_save_targets` in the operation and behind it all return. -/
def SavesReturn (r : AppleTVHomeKitRemote ε T) (operation : TargetOperation)
    (config : Option TargetConfiguration) : Prop :=
  ¬ SaveFails r.saveFaults ∧ (r.RemovesSelected operation config → ¬ SaveFails r.saveFaults.tail)

/-- There is nothing to change, in memory or in HomeKit. -/
def NothingToChange (r : AppleTVHomeKitRemote ε T) (operation : TargetOperation)
    (config : Option TargetConfiguration) : Prop :=
  r.SelectionStays operation ∧ SameUnder r.targets.get (targetAfter operation config r.targets)

end

section

variable {ε : Type} {json : JsonText} {r : AppleTVHomeKitRemote ε json.Text}

/-- The file is not written, or has the text already. -/
def FileStays (r : AppleTVHomeKitRemote ε json.Text) : Prop :=
  r.saveFaults.head? = some (some .replace) ∨ r.Written

/-- The write is all or nothing, by what it finds. -/
def WriteHolds (r : AppleTVHomeKitRemote ε json.Text) (value : PyStr) (client : Option ClientAddr)
    (admin : Bool) : Prop :=
  r.accessory = none ∨ client = none ∨ admin = false ∨
    ∀ operation config, parseTargetWrite value = .ok (operation, config) →
      r.Refused operation config ∨
      (r.SavesReturn operation config ∧ ∀ k t, targetAfter operation config r.targets k = some t →
        ∃ bytes, targetValue t = .ok bytes) ∨
      (r.NothingToChange operation config ∧ r.FileStays)

/-! ## The operations -/

/-- What an operation leaves that has not saved. -/
structure Applied (r : AppleTVHomeKitRemote ε json.Text) (operation : TargetOperation)
    (config : Option TargetConfiguration) (r' : AppleTVHomeKitRemote ε json.Text) : Prop where
  targets : ∀ k, r'.targets.get k = targetAfter operation config r.targets k
  selection : (r'.activeIdentifier = r.activeIdentifier ∧ r'.activeClient = r.activeClient ∧
    r'.accessory = r.accessory) ↔ r.SelectionStays operation
  targetsFile : r'.targetsFile = r.targetsFile
  saveFaults : r'.saveFaults = r.saveFaults

variable (json)

/-- An operation that is refused changes nothing. -/
theorem targetOperation_of_refused {operation : TargetOperation}
    {config : Option TargetConfiguration} (h : r.Refused operation config) :
    ∃ e, r.targetOperation json operation config = (.error e, r) := by
  cases operation with
  | undefined => exact ⟨_, rfl⟩
  | list =>
      cases config with
      | none => exact absurd rfl h
      | some c => exact ⟨_, rfl⟩
  | reset =>
      cases config with
      | none => exact absurd rfl h
      | some c => exact ⟨_, rfl⟩
  | add =>
      cases config with
      | none => exact ⟨_, rfl⟩
      | some c =>
          simp only [targetOperation, addTarget, if_pos (h c rfl)]
          exact ⟨_, rfl⟩
  | update | remove =>
      cases config with
      | none => exact ⟨_, rfl⟩
      | some c =>
          have hnone := Dict.contains_eq_false_iff.mp (h c rfl)
          simp only [targetOperation, updateTarget, removeTarget, Option.bind_some, hnone]
          exact ⟨_, rfl⟩

variable {json}

/-- Closing connections leaves the characteristics alone. -/
theorem accessory_closeConnection (r : AppleTVHomeKitRemote ε json.Text) (c : Nat) :
    (r.closeConnection c).accessory = r.accessory :=
  congrArg (·.accessory) (closes_closeConnection r c).rest

theorem accessory_closeAll (r : AppleTVHomeKitRemote ε json.Text) :
    r.closeAll.accessory = r.accessory := by
  rw [closeAll]
  generalize r.serverConnections = cs
  induction cs generalizing r with
  | nil => rfl
  | cons c cs ih => exact (ih _).trans (r.accessory_closeConnection c)

/-- Deleting a target leaves the selection alone. -/
theorem deleteTarget_selection (r : AppleTVHomeKitRemote ε json.Text) (identifier : Int) :
    (r.deleteTarget identifier).activeIdentifier = r.activeIdentifier ∧
      (r.deleteTarget identifier).activeClient = r.activeClient ∧
      (r.deleteTarget identifier).accessory = r.accessory := by
  simp only [deleteTarget]
  split
  · next c _ =>
    have hrest := (closes_closeConnection { r with
      targets := r.targets.erase identifier
      hdsConnections := r.hdsConnections.erase identifier } c).rest
    exact ⟨congrArg (·.activeIdentifier) hrest, congrArg (·.activeClient) hrest,
      congrArg (·.accessory) hrest⟩
  · exact ⟨rfl, rfl, rfl⟩

variable (json)

/-- An operation that is not refused is applied, unless it removes the target that is selected. -/
theorem targetOperation_applied {operation : TargetOperation}
    {config : Option TargetConfiguration} (hwf : ∀ c, config = some c → c.WellFormed)
    (hstarted : r.accessory ≠ none)
    (h : ¬ r.Refused operation config) (hremoves : ¬ r.RemovesSelected operation config) :
    ∃ r', r.targetOperation json operation config = (.ok (), r') ∧
      r.Applied operation config r' := by
  cases operation with
  | undefined => exact absurd trivial h
  | list =>
      cases config with
      | some c => exact absurd (by rintro ⟨⟩) h
      | none => exact ⟨r, rfl, fun _ ↦ rfl, iff_of_true ⟨rfl, rfl, rfl⟩ trivial, rfl, rfl⟩
  | reset =>
      cases config with
      | some c => exact absurd (by rintro ⟨⟩) h
      | none =>
          have hclosed := sameTargets_closeAll { r with targets := .empty }
          have hchars := accessory_closeAll { r with targets := .empty }
          simp only [targetOperation, resetTargets]
          generalize closeAll { r with targets := .empty } = b at hclosed hchars
          generalize hw : setChars { b with
            hdsConnections := .empty
            activeIdentifier := 0
            activeClient := none } 0 0 = w
          have hcancel := w.sessionsOnly_scheduleSessionCancel w.activeSiriSession
          refine ⟨_, rfl, fun k ↦ ?_, ?_, ?_, ?_⟩
          · rw [hcancel.targets, ← hw]
            exact congrArg (Dict.get · k) hclosed.targets
          · obtain ⟨a, ha⟩ := Option.ne_none_iff_exists'.mp hstarted
            rw [congrArg (·.activeIdentifier) hcancel.rest, congrArg (·.activeClient) hcancel.rest,
              congrArg (·.accessory) hcancel.rest, ← hw]
            simp only [setChars, hchars, ha, SelectionStays, Option.map_some]
            exact and_congr eq_comm (and_congr eq_comm eq_comm)
          · rw [hcancel.sameTargets.targetsFile, ← hw]
            exact hclosed.targetsFile
          · rw [hcancel.sameTargets.saveFaults, ← hw]
            exact hclosed.saveFaults
  | add =>
      cases config with
      | none => exact absurd (by rintro _ ⟨⟩) h
      | some c =>
          have hroom : ¬(r.targets.contains c.targetIdentifier = false ∧
              maxTargets ≤ r.targets.size) := fun hfull ↦ h fun c' hc' ↦ by
            cases hc'
            exact hfull
          simp only [targetOperation, addTarget, if_neg hroom]
          by_cases hzero : r.activeIdentifier = 0
          · rw [if_pos hzero]
            refine ⟨_, rfl, fun k ↦ Dict.get_set .., ?_, rfl, rfl⟩
            refine iff_of_false (fun heq ↦ ?_) fun hstays ↦ hstays hzero
            have hid := (hwf c rfl).targetIdentifier
            have hsame : c.targetIdentifier = r.activeIdentifier := heq.1
            omega
          · rw [if_neg hzero]
            exact ⟨_, rfl, fun k ↦ Dict.get_set .., iff_of_true ⟨rfl, rfl, rfl⟩ hzero, rfl, rfl⟩
  | update =>
      cases config with
      | none => exact absurd (by rintro _ ⟨⟩) h
      | some c =>
          obtain ⟨current, hcurrent⟩ : ∃ t, r.targets.get c.targetIdentifier = some t := by
            refine Option.ne_none_iff_exists'.mp fun hnone ↦ h fun c' hc' ↦ ?_
            cases hc'
            exact Dict.contains_eq_false_iff.mpr hnone
          simp only [targetOperation, updateTarget, Option.bind_some, hcurrent]
          refine ⟨_, rfl, fun k ↦ ?_, iff_of_true ⟨rfl, rfl, rfl⟩ trivial, rfl, rfl⟩
          simp only [Dict.get_set, targetAfter]
          split
          · next hk => rw [hk, hcurrent, Option.map_some]
          · rfl
  | remove =>
      cases config with
      | none => exact absurd (by rintro _ ⟨⟩) h
      | some c =>
          obtain ⟨current, hcurrent⟩ : ∃ t, r.targets.get c.targetIdentifier = some t := by
            refine Option.ne_none_iff_exists'.mp fun hnone ↦ h fun c' hc' ↦ ?_
            cases hc'
            exact Dict.contains_eq_false_iff.mpr hnone
          simp only [targetOperation, removeTarget, Option.bind_some, hcurrent]
          by_cases hempty : c.buttons.items.isEmpty = true
          · have hother :
                (r.deleteTarget c.targetIdentifier).activeIdentifier ≠ c.targetIdentifier := by
              rw [(r.deleteTarget_selection c.targetIdentifier).1]
              exact fun heq ↦ hremoves ⟨rfl, c, rfl, hempty, heq.symm⟩
            have hdelete := r.sameTargets_deleteTarget c.targetIdentifier
            rw [if_pos hempty, if_neg hother]
            refine ⟨_, rfl, fun k ↦ ?_, iff_of_true (r.deleteTarget_selection _) trivial,
              hdelete.targetsFile, hdelete.saveFaults⟩
            rw [hdelete.targets]
            simp only [Dict.get_erase, targetAfter, hempty, if_true]
          · rw [if_neg hempty]
            refine ⟨_, rfl, fun k ↦ ?_, iff_of_true ⟨rfl, rfl, rfl⟩ trivial, rfl, rfl⟩
            simp only [Dict.get_set, targetAfter, if_neg hempty]
            split
            · next hk => rw [hk, hcurrent, Option.map_some, TargetConfiguration.withoutButtons]
            · rfl

variable {json}

variable (json)

/-- Removing the target that is selected selects another one. -/
theorem targetOperation_removesSelected {operation : TargetOperation}
    {config : Option TargetConfiguration} (hwf : ∀ c, config = some c → c.WellFormed)
    (hfit : r.IdentifiersFit)
    (h : ¬ r.Refused operation config) (hremoves : r.RemovesSelected operation config) :
    (∀ k, (r.targetOperation json operation config).2.targets.get k =
        targetAfter operation config r.targets k) ∧
      (r.targetOperation json operation config).2.saveFaults = r.saveFaults.tail ∧
      ((r.targetOperation json operation config).1 = .ok () ↔ ¬ SaveFails r.saveFaults) := by
  obtain ⟨rfl, c, rfl, hempty, hactive⟩ := hremoves
  obtain ⟨current, hcurrent⟩ : ∃ t, r.targets.get c.targetIdentifier = some t := by
    refine Option.ne_none_iff_exists'.mp fun hnone ↦ h fun c' hc' ↦ ?_
    cases hc'
    exact Dict.contains_eq_false_iff.mpr hnone
  have hdelete := r.sameTargets_deleteTarget c.targetIdentifier
  have hselected := (r.deleteTarget_selection c.targetIdentifier).1
  simp only [targetOperation, removeTarget, Option.bind_some, hcurrent]
  rw [if_pos hempty, if_pos (hselected.trans hactive.symm)]
  generalize r.deleteTarget c.targetIdentifier = b at hdelete hselected
  -- the first target that is left fits, and is not the one that is deleted
  have hswitches : b.Switches (firstIdentifier b.targets) := by
    have hid := (hwf c rfl).targetIdentifier
    rcases firstIdentifier_cases b.targets with hzero | hin
    · refine ⟨by rw [hzero]; decide, .inl hzero, ?_⟩
      rw [hzero, hselected, ← hactive]
      omega
    · have hleft := hin
      rw [hdelete.targets, Dict.contains_iff, Dict.mem_keys_erase] at hleft
      have hrange := hfit _ (Dict.contains_iff.mpr hleft.2)
      refine ⟨⟨?_, ?_⟩, .inr hin, ?_⟩
      · rw [hdelete.targets]
        omega
      · rw [hdelete.targets]
        omega
      · rw [hselected, ← hactive, hdelete.targets]
        exact hleft.1
  obtain ⟨hswitched, hfails, hsucceeds⟩ := setActiveIdentifier_of_switches hswitches
  rw [hdelete.saveFaults] at hfails hsucceeds
  refine ⟨fun k ↦ ?_, ?_, ?_⟩
  · rw [hswitched.targets, hdelete.targets]
    simp only [Dict.get_erase, targetAfter, hempty, if_true]
  · rw [hswitched.saveFaults, hdelete.saveFaults]
  · refine ⟨fun hok hf ↦ ?_, hsucceeds⟩
    rw [hfails hf] at hok
    cases hok

variable {json}

/-! ## The writes -/

/-- What is left behind a save is unchanged when there was nothing to change and the file is
the one that was there. -/
theorem Applied.stays_iff {operation : TargetOperation} {config : Option TargetConfiguration}
    {b : AppleTVHomeKitRemote ε json.Text} (h : r.Applied operation config b)
    (file : Option json.Text) (faults : List (Option SaveFault)) :
    r.Unchanged { b with targetsFile := file, saveFaults := faults } ↔
      r.NothingToChange operation config ∧ file = r.targetsFile := by
  have hget : b.targets.get = targetAfter operation config r.targets := funext h.targets
  constructor
  · intro hu
    refine ⟨⟨h.selection.mp ⟨hu.activeIdentifier, hu.activeClient, hu.accessory⟩, ?_⟩,
      hu.targetsFile⟩
    exact hget ▸ hu.targets
  · rintro ⟨⟨hselection, htargets⟩, hfile⟩
    obtain ⟨hidentifier, hclient, hchars⟩ := h.selection.mpr hselection
    exact ⟨hget ▸ htargets, hidentifier, hclient, hchars, hfile⟩

/-- The text that is written is the one of the targets before, when there was nothing to
change. -/
theorem Applied.written_iff {operation : TargetOperation} {config : Option TargetConfiguration}
    {b : AppleTVHomeKitRemote ε json.Text} (h : r.Applied operation config b) :
    (r.NothingToChange operation config ∧
        some (targetsText json b.targets b.activeIdentifier) = r.targetsFile) ↔
      r.NothingToChange operation config ∧ r.Written := by
  refine and_congr_right fun ⟨hselection, htargets⟩ ↦ ?_
  have hget : b.targets.get = targetAfter operation config r.targets := funext h.targets
  have hsame : SameUnder r.targets.get b.targets.get := hget ▸ htargets
  rw [Written, targetsText_congr hsame, (h.selection.mpr hselection).1]
  exact eq_comm

/-- A target list can be read behind an operation when the targets that it leaves can be
written. -/
theorem targetListValue_after {operation : TargetOperation} {config : Option TargetConfiguration}
    {b : AppleTVHomeKitRemote ε json.Text}
    (h : ∀ k, b.targets.get k = targetAfter operation config r.targets k) :
    (∃ text, targetListValue b.targets = .ok text) ↔
      ∀ k t, targetAfter operation config r.targets k = some t →
        ∃ bytes, targetValue t = .ok bytes := by
  rw [targetListValue_isOk_iff]
  simp only [h]

/-- The end of a write behind an operation that has not saved. -/
theorem writeBehind_iff {operation : TargetOperation} {config : Option TargetConfiguration}
    {b : AppleTVHomeKitRemote ε json.Text} (h : r.Applied operation config b) :
    WhenRaised (thenDo (b.saveTargets json) fun _ r ↦ (targetListValue r.targets, r)) r.Unchanged ↔
      (¬ SaveFails r.saveFaults ∧ ∃ text, targetListValue b.targets = .ok text) ∨
      (r.NothingToChange operation config ∧ r.FileStays) := by
  rcases b.saveTargets_cases with ⟨hok, heq⟩ | ⟨hhead, heq⟩ | ⟨hhead, heq⟩
  · rw [h.saveFaults] at hok
    rw [heq]
    dsimp only [thenDo]
    have hstays : r.FileStays ↔ r.Written :=
      ⟨fun hfile ↦ hfile.resolve_left fun hhead ↦ hok ⟨_, hhead⟩, .inr⟩
    cases targetListValue b.targets with
    | ok text => exact iff_of_true whenRaised_ok (.inl ⟨hok, text, rfl⟩)
    | error e =>
        rw [whenRaised_error, h.stays_iff, h.written_iff, hstays]
        refine ⟨.inr, fun hcase ↦ hcase.resolve_left ?_⟩
        rintro ⟨-, text, htext⟩
        cases htext
  · rw [h.saveFaults] at hhead
    rw [heq]
    dsimp only [thenDo]
    rw [whenRaised_error, show ({ b with saveFaults := b.saveFaults.tail } :
      AppleTVHomeKitRemote ε json.Text) = { b with
        targetsFile := b.targetsFile
        saveFaults := b.saveFaults.tail } from rfl, h.stays_iff]
    have hfails : SaveFails r.saveFaults := ⟨_, hhead⟩
    constructor
    · exact fun hsame ↦ .inr ⟨hsame.1, .inl hhead⟩
    · rintro (⟨hnot, -⟩ | ⟨hnothing, -⟩)
      · exact absurd hfails hnot
      · exact ⟨hnothing, h.targetsFile⟩
  · rw [h.saveFaults] at hhead
    rw [heq]
    dsimp only [thenDo]
    have hfails : SaveFails r.saveFaults := ⟨_, hhead⟩
    have hstays : r.FileStays ↔ r.Written := by
      refine ⟨fun hfile ↦ hfile.resolve_left fun hreplace ↦ ?_, .inr⟩
      rw [hhead] at hreplace
      cases hreplace
    rw [whenRaised_error, h.stays_iff, h.written_iff, hstays]
    exact ⟨.inr, fun hcase ↦ hcase.resolve_left fun hsucceeds ↦ hsucceeds.1 hfails⟩

/-- An operation that removes the selected target has something to change. -/
theorem not_unchanged_of_removesSelected {operation : TargetOperation}
    {config : Option TargetConfiguration} (h : ¬ r.Refused operation config)
    (hremoves : r.RemovesSelected operation config) :
    ¬ SameUnder r.targets.get (targetAfter operation config r.targets) := by
  obtain ⟨rfl, c, rfl, hempty, -⟩ := hremoves
  intro hsame
  have hk := hsame c.targetIdentifier
  simp only [targetAfter, hempty, if_true] at hk
  refine h fun c' hc' ↦ ?_
  cases hc'
  refine Dict.contains_eq_false_iff.mpr ?_
  generalize r.targets.get c.targetIdentifier = o at hk
  cases hk
  rfl

/-- The end of a write behind the removal of the selected target. -/
theorem removalBehind_iff {operation : TargetOperation} {config : Option TargetConfiguration}
    {x : Except PyErr Unit × AppleTVHomeKitRemote ε json.Text}
    (hnot : ¬ SameUnder r.targets.get (targetAfter operation config r.targets))
    (htargets : ∀ k, x.2.targets.get k = targetAfter operation config r.targets k)
    (hfaults : x.2.saveFaults = r.saveFaults.tail) (hok : x.1 = .ok () ↔ ¬ SaveFails r.saveFaults) :
    WhenRaised (thenDo x fun _ r ↦ thenDo (r.saveTargets json) fun _ r ↦
        (targetListValue r.targets, r)) r.Unchanged ↔
      (¬ SaveFails r.saveFaults ∧ ¬ SaveFails r.saveFaults.tail) ∧
        ∃ text, targetListValue x.2.targets = .ok text := by
  have hno : ∀ {r' : AppleTVHomeKitRemote ε json.Text}, r'.targets = x.2.targets →
      ¬ r.Unchanged r' := by
    intro r' heq hu
    have hget : r'.targets.get = targetAfter operation config r.targets :=
      funext fun k ↦ (congrArg (Dict.get · k) heq).trans (htargets k)
    exact hnot (hget ▸ hu.targets)
  obtain ⟨_ | _, b⟩ := x
  · dsimp only [thenDo]
    rw [whenRaised_error]
    exact iff_of_false (hno rfl) fun hall ↦ nomatch hok.mpr hall.1.1
  · have hfirst := hok.mp rfl
    dsimp only [thenDo] at hfaults hno ⊢
    rcases b.saveTargets_cases with ⟨hsecond, heq⟩ | ⟨hhead, heq⟩ | ⟨hhead, heq⟩
    · rw [hfaults] at hsecond
      rw [heq]
      dsimp only
      cases targetListValue b.targets with
      | ok text => exact iff_of_true whenRaised_ok ⟨⟨hfirst, hsecond⟩, text, rfl⟩
      | error e =>
          rw [whenRaised_error]
          exact iff_of_false (hno rfl) fun hall ↦ nomatch hall.2.choose_spec
    · rw [hfaults] at hhead
      rw [heq]
      dsimp only
      rw [whenRaised_error]
      exact iff_of_false (hno rfl) fun hall ↦ hall.1.2 ⟨_, hhead⟩
    · rw [hfaults] at hhead
      rw [heq]
      dsimp only
      rw [whenRaised_error]
      exact iff_of_false (hno rfl) fun hall ↦ hall.1.2 ⟨_, hhead⟩

/-- **A write to the target list is all or nothing exactly when it finds one of the three.** -/
theorem hapTargetListWrite_unchanged_iff (hfit : r.IdentifiersFit) (value : PyStr)
    (client : Option ClientAddr) (admin : Bool) :
    WhenRaised (r.hapTargetListWrite json value client admin) r.Unchanged ↔
      r.WriteHolds value client admin := by
  by_cases hstarted : r.accessory = none
  · refine iff_of_true ?_ (.inl hstarted)
    rw [hapTargetListWrite, if_pos (Option.isNone_iff_eq_none.mpr hstarted), whenRaised_error]
    exact .refl r
  by_cases hadmin : (client.isNone || !admin) = true
  · refine iff_of_true ?_ (.inr ?_)
    · rw [hapTargetListWrite, if_neg (mt Option.isNone_iff_eq_none.mp hstarted), if_pos hadmin,
        whenRaised_error]
      exact .refl r
    · rcases Bool.or_eq_true _ _ |>.mp hadmin with hclient | hno
      · exact .inl (Option.isNone_iff_eq_none.mp hclient)
      · exact .inr (.inl (Bool.not_eq_true' _ |>.mp hno))
  have hholds : r.WriteHolds value client admin ↔
      ∀ operation config, parseTargetWrite value = .ok (operation, config) →
        r.Refused operation config ∨
        (r.SavesReturn operation config ∧ ∀ k t, targetAfter operation config r.targets k = some t →
          ∃ bytes, targetValue t = .ok bytes) ∨
        (r.NothingToChange operation config ∧ r.FileStays) := by
    refine ⟨fun h ↦ ?_, fun h ↦ .inr (.inr (.inr h))⟩
    rcases h with h | rfl | rfl | h
    · exact absurd h hstarted
    · exact absurd rfl hadmin
    · exact absurd (Bool.or_true _) hadmin
    · exact h
  rw [hholds, hapTargetListWrite, if_neg (mt Option.isNone_iff_eq_none.mp hstarted), if_neg hadmin]
  cases hparse : parseTargetWrite value with
  | error e => exact iff_of_true (whenRaised_error.mpr (.refl r)) (by rintro _ _ ⟨⟩)
  | ok p =>
      obtain ⟨operation, config⟩ := p
      have hwf : ∀ c, config = some c → c.WellFormed := fun c hc ↦ parseTargetWrite_ok hparse hc
      have hgoal : (∀ operation' config', (Except.ok (operation, config) :
          Except PyErr (TargetOperation × Option TargetConfiguration)) = .ok (operation', config') →
            r.Refused operation' config' ∨
            (r.SavesReturn operation' config' ∧ ∀ k t,
              targetAfter operation' config' r.targets k = some t →
              ∃ bytes, targetValue t = .ok bytes) ∨
            (r.NothingToChange operation' config' ∧ r.FileStays)) ↔
          (r.Refused operation config ∨
            (r.SavesReturn operation config ∧ ∀ k t,
              targetAfter operation config r.targets k = some t →
              ∃ bytes, targetValue t = .ok bytes) ∨
            (r.NothingToChange operation config ∧ r.FileStays)) := by
        refine ⟨fun h ↦ h _ _ rfl, fun h operation' config' heq ↦ ?_⟩
        cases heq
        exact h
      rw [hgoal]
      dsimp only
      by_cases hrefused : r.Refused operation config
      · obtain ⟨e, heq⟩ := targetOperation_of_refused json hrefused
        refine iff_of_true ?_ (.inl hrefused)
        rw [heq]
        exact whenRaised_error.mpr (.refl r)
      by_cases hremoves : r.RemovesSelected operation config
      · obtain ⟨htargets, hfaults, hok⟩ :=
          targetOperation_removesSelected json hwf hfit hrefused hremoves
        have hnot := not_unchanged_of_removesSelected hrefused hremoves
        rw [removalBehind_iff hnot htargets hfaults hok, targetListValue_after htargets]
        constructor
        · rintro ⟨⟨hfirst, hsecond⟩, hlist⟩
          exact .inr (.inl ⟨⟨hfirst, fun _ ↦ hsecond⟩, hlist⟩)
        · rintro (h | ⟨⟨hfirst, hsecond⟩, hlist⟩ | ⟨⟨-, hsame⟩, -⟩)
          · exact absurd h hrefused
          · exact ⟨⟨hfirst, hsecond hremoves⟩, hlist⟩
          · exact absurd hsame hnot
      · obtain ⟨b, heq, hb⟩ :=
          targetOperation_applied json hwf hstarted hrefused hremoves
        rw [heq]
        dsimp only [thenDo]
        have hbehind := writeBehind_iff hb
        dsimp only [thenDo] at hbehind
        rw [hbehind, targetListValue_after hb.targets]
        constructor
        · rintro (⟨hfirst, hlist⟩ | h)
          · exact .inr (.inl ⟨⟨hfirst, fun h ↦ absurd h hremoves⟩, hlist⟩)
          · exact .inr (.inr h)
        · rintro (h | ⟨⟨hfirst, -⟩, hlist⟩ | h)
          · exact absurd h hrefused
          · exact .inl ⟨hfirst, hlist⟩
          · exact .inr h

/-- A selection is all or nothing exactly when it does not switch to a save that fails. -/
theorem setActiveIdentifier_unchanged_iff (identifier : Int) :
    WhenRaised (r.setActiveIdentifier json identifier) r.Unchanged ↔
      ¬(r.Switches identifier ∧ SaveFails r.saveFaults) := by
  by_cases hswitches : r.Switches identifier
  · obtain ⟨hswitched, hfails, hsucceeds⟩ := setActiveIdentifier_of_switches hswitches
    by_cases hf : SaveFails r.saveFaults
    · refine iff_of_false (fun hall ↦ ?_) (not_not.mpr ⟨hswitches, hf⟩)
      have hu := hall _ _ (Prod.ext (hfails hf) rfl)
      exact hswitches.2.2 (hswitched.activeIdentifier.symm.trans hu.activeIdentifier)
    · refine iff_of_true (fun e r' hr' ↦ ?_) fun h ↦ hf h.2
      have hok := hsucceeds hf
      rw [hr'] at hok
      cases hok
  · refine iff_of_true (fun e r' hr' ↦ ?_) fun h ↦ hswitches h.1
    have hsame := (setActiveIdentifier_of_not_switches hswitches).1
    rw [hr'] at hsame
    exact hsame ▸ .refl r

end

end AppleTVHomeKitRemote

open AppleTVHomeKitRemote

/-- **In every state that is reached, a call that raises has changed nothing exactly when**
it was refused, or could not raise behind the change, or had nothing to change and left the
file; a selection, exactly when it did not switch to a save that fails. -/
theorem unchanged_iff {ε : Type} (json : JsonText) (opus : OpusEncoder ε) (file : Option json.Text)
    (r : AppleTVHomeKitRemote ε json.Text) (h : (remotes json opus file).Reachable r) :
    (∀ value client admin,
      WhenRaised (r.hapTargetListWrite json value client admin) r.Unchanged ↔
        r.WriteHolds value client admin) ∧
    ∀ identifier, WhenRaised (r.setActiveIdentifier json identifier) r.Unchanged ↔
      ¬(r.Switches identifier ∧ SaveFails r.saveFaults) :=
  ⟨hapTargetListWrite_unchanged_iff (identifiersFit_of_reachable h),
    setActiveIdentifier_unchanged_iff⟩

/-- The controller has started, and the next save fails. -/
def fullDisk : List Label := [.start, .saveFaults [some .replace]]

/-- The value that adds a target without a name. -/
def firstTarget : PyStr := .ofString "AQECAgYBBAEAAAA="

/-- The value that asks for the list. -/
def listTargets : PyStr := .ofString "AQEB"

/-- A write that only reads the list, and a selection that is refused, are all or nothing when the
disk is full. -/
theorem unchanged_iff_fullDisk :
    ∃ r : AppleTVHomeKitRemote Unit Obj,
      (remotes .documents .verbatim none).exec (.new .documents none) fullDisk = some r ∧
      SaveFails r.saveFaults ∧
      (r.hapTargetListWrite .documents listTargets (some ⟨"hub", 1⟩) true).1.toOption = none ∧
      WhenRaised (r.hapTargetListWrite .documents listTargets (some ⟨"hub", 1⟩) true)
        r.Unchanged ∧
      ¬ r.Switches 2 ∧ WhenRaised (r.setActiveIdentifier .documents 2) r.Unchanged := by
  have hfull : ((remotes .documents .verbatim none).exec (.new .documents none) fullDisk).map
      (fun r ↦ (r.saveFaults, decide (r.Switches 2),
        (r.hapTargetListWrite .documents listTargets (some ⟨"hub", 1⟩) true).1.toOption)) =
          some ([some .replace], false, none) := by
    decide
  obtain ⟨r, hr, hcase⟩ := Option.map_eq_some_iff.mp hfull
  simp only [Prod.mk.injEq] at hcase
  obtain ⟨hfaults, hswitches, hraised⟩ := hcase
  have hstays := of_decide_eq_false hswitches
  have hreachable : (remotes .documents .verbatim none).Reachable r :=
    .exec (.init rfl) hr
  obtain ⟨hwrite, hselect⟩ := unchanged_iff .documents .verbatim none r hreachable
  have hholds : r.WriteHolds listTargets (some ⟨"hub", 1⟩) true := by
    refine .inr (.inr (.inr fun operation config hparse ↦ .inr (.inr ?_)))
    have hlist : parseTargetWrite listTargets = .ok (.list, none) := rfl
    rw [hlist] at hparse
    obtain ⟨rfl, rfl⟩ := Prod.mk.inj (Except.ok.inj hparse)
    exact ⟨⟨trivial, .refl _⟩, .inl (congrArg List.head? hfaults)⟩
  refine ⟨r, hr, ⟨_, congrArg List.head? hfaults⟩, hraised, (hwrite _ _ _).mpr hholds, hstays, ?_⟩
  exact (hselect 2).mpr fun h ↦ hstays h.1

/-- A target that could not be saved stays in memory, although the write raised. -/
theorem not_unchanged_fullDisk :
    ¬ ∀ r : AppleTVHomeKitRemote Unit Obj, (remotes .documents .verbatim none).Reachable r →
      ∀ value client admin,
        WhenRaised (r.hapTargetListWrite .documents value client admin) r.Unchanged := by
  intro hall
  have hwrite : ((remotes .documents .verbatim none).exec (.new .documents none) fullDisk).map
      (fun r ↦ ((r.targets.get 1).isSome,
        (r.hapTargetListWrite .documents firstTarget (some ⟨"hub", 1⟩) true).1.toOption.isSome,
        ((r.hapTargetListWrite .documents firstTarget (some ⟨"hub", 1⟩) true).2.targets.get
          1).isSome)) = some (false, false, true) := by
    decide
  obtain ⟨r, hr, hcase⟩ := Option.map_eq_some_iff.mp hwrite
  simp only [Prod.mk.injEq] at hcase
  obtain ⟨hbefore, hraised, hafter⟩ := hcase
  have hunchanged := hall r (.exec (.init rfl) hr) firstTarget (some ⟨"hub", 1⟩) true
  rcases hresult : r.hapTargetListWrite .documents firstTarget (some ⟨"hub", 1⟩) true with
    ⟨_ | _, r'⟩
  · have hsame := (hunchanged _ _ hresult).targets 1
    rw [hresult] at hafter
    rw [Option.isSome_eq_false_iff, Option.isNone_iff_eq_none] at hbefore
    rw [hbefore] at hsame
    cases hget : r'.targets.get 1 with
    | none =>
        rw [hget] at hafter
        cases hafter
    | some t =>
        rw [hget] at hsame
        cases hsame
  · rw [hresult] at hraised
    cases hraised

end AtvRemote.Remote
