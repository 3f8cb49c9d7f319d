import AtvRemote.Remote.Registry
import Mathlib

/-!
# The target file refines the targets in memory

What `_save_targets` writes is read back by `_load_targets` as the same targets under the
same selection (`fileRefinesMemory`).  The keys of a JSON object are strings, sorted as strings, so
that the targets and the buttons come back in another order, each under the identifier
that its entry carries.

`Saved` is what holds of the file between two steps: it has the targets and the selection,
or there is neither a file nor a target.
-/

namespace AtvRemote.Remote

open Lib Audio

/-! ## Sorted trees -/

theorem sortItems_eq (items : List (Obj × Obj)) :
    sortItems items = items.map fun p ↦ (p.1, sortKeys p.2) := by
  induction items with
  | nil => rfl
  | cons p items ih => rw [sortItems, ih, List.map_cons]

theorem sortKeys_dict (items : List (Obj × Obj)) : ∃ items', sortKeys (.dict items) = .dict items' ∧
    (items.map fun p ↦ (p.1, sortKeys p.2)).Perm items' := by
  refine ⟨_, rfl, ?_⟩
  rw [sortItems_eq]
  exact (List.perm_insertionSort _ _).symm

/-- The items of a plain dictionary. -/
structure PlainItems (items : List (Obj × Obj)) : Prop where
  keys : (items.map Prod.fst).Nodup
  str : ∀ p ∈ items, ∃ s : PyStr, p.1 = .str s ∧ s.Scalar
  values : ∀ p ∈ items, p.2.Plain

theorem PlainItems.plain {items : List (Obj × Obj)} (h : PlainItems items) :
    (Obj.dict items).Plain :=
  .dict items h.keys h.str h.values

/-- Sorting the keys keeps a tree plain. -/
theorem plain_sortKeys {x : Obj} (h : x.Plain) : (sortKeys x).Plain := by
  induction h with
  | none => exact .none
  | int n h => exact .int n h
  | str s h => exact .str s h
  | dict items hkeys hstr _ ih =>
      obtain ⟨items', heq, hperm⟩ := sortKeys_dict items
      have hfst : (items.map fun p ↦ (p.1, sortKeys p.2)).map Prod.fst = items.map Prod.fst := by
        rw [List.map_map]
        rfl
      have hmem : ∀ p ∈ items', ∃ q ∈ items, (q.1, sortKeys q.2) = p :=
        fun p hp ↦ List.mem_map.mp (hperm.mem_iff.mpr hp)
      rw [heq]
      refine .dict items' ?_ ?_ ?_
      · rw [← (hperm.map Prod.fst).nodup_iff, hfst]
        exact hkeys
      · intro p hp
        obtain ⟨q, hq, rfl⟩ := hmem p hp
        exact hstr q hq
      · intro p hp
        obtain ⟨q, hq, rfl⟩ := hmem p hp
        exact ih q hq

/-- A sorted object has the sorted values under the same keys. -/
theorem lookup_sortKeys {items items' : List (Obj × Obj)} (h : PlainItems items)
    (hsorted : sortKeys (.dict items) = .dict items') (key : String) :
    Obj.lookup items' (.text key) = (Obj.lookup items (.text key)).map sortKeys := by
  obtain ⟨_, heq, hperm⟩ := sortKeys_dict items
  rw [hsorted] at heq
  obtain rfl := Obj.dict.inj heq
  have hfst : (items.map fun p ↦ (p.1, sortKeys p.2)).map Prod.fst = items.map Prod.fst := by
    rw [List.map_map]
    rfl
  rw [Obj.text, Obj.lookup_of_perm hperm (hfst ▸ h.keys)]
  · rw [Obj.lookup, List.find?_map, Option.map_map, Obj.lookup, Option.map_map]
    rfl
  · intro p hp
    obtain ⟨q, hq, rfl⟩ := List.mem_map.mp hp
    obtain ⟨s, hs, -⟩ := h.str q hq
    exact ⟨s, hs⟩

/-! ## Loading entries -/

section

variable {α : Type} {load : Obj → Obj → Except PyErr α} {identifier : α → Int}

/-- A loop whose entries all load stores what they load as, one after the other. -/
theorem loadItems_ok {items : List (Obj × Obj)} {xs : List α}
    (h : List.Forall₂ (fun p x ↦ load p.1 p.2 = .ok x) items xs) (loaded : Dict Int α) :
    loadItems load identifier loaded items =
      .ok (loaded.update (xs.map fun x ↦ (identifier x, x))) := by
  induction h generalizing loaded with
  | nil => rfl
  | @cons p x items xs hload _ ih =>
      simp only [loadItems, hload, bind_ok]
      exact ih _

theorem exists_forall₂ {β : Type} {R : α → β → Prop} {xs : List α} (h : ∀ x ∈ xs, ∃ y, R x y) :
    ∃ ys, List.Forall₂ R xs ys := by
  induction xs with
  | nil => exact ⟨[], .nil⟩
  | cons x xs ih =>
      obtain ⟨y, hy⟩ := h x (List.mem_cons_self ..)
      obtain ⟨ys, hys⟩ := ih fun x' hx' ↦ h x' (List.mem_cons_of_mem _ hx')
      exact ⟨y :: ys, .cons hy hys⟩

theorem exists_mem_of_forall₂ {β : Type} {R : α → β → Prop} {xs : List α} {ys : List β}
    (h : List.Forall₂ R xs ys) {x : α} (hx : x ∈ xs) : ∃ y ∈ ys, R x y := by
  induction h with
  | nil => cases hx
  | @cons x' y' xs ys hR _ ih =>
      rcases List.mem_cons.mp hx with rfl | hx
      · exact ⟨y', List.mem_cons_self .., hR⟩
      · obtain ⟨y, hy, hxy⟩ := ih hx
        exact ⟨y, List.mem_cons_of_mem _ hy, hxy⟩

/-- **Entries that are sorted as strings load as a dictionary with a like value under each
identifier.** -/
theorem loadItems_entries {f : α → Obj} {d : Dict Int α} {items : List (Obj × Obj)}
    {R : α → α → Prop} (hsorted : sortKeys (.dict (entries f d)) = .dict items)
    (hload : ∀ k x, d.get k = some x →
      ∃ y, (∀ key, load key (sortKeys (f x)) = .ok y) ∧ identifier y = k ∧ R x y) :
    ∃ d', loadItems load identifier .empty items = .ok d' ∧
      ∀ k, Option.Rel R (d.get k) (d'.get k) := by
  obtain ⟨ys, hys⟩ : ∃ ys, List.Forall₂ (fun (p : Int × α) y ↦
      (∀ key, load key (sortKeys (f p.2)) = .ok y) ∧ identifier y = p.1 ∧ R p.2 y) d.items ys :=
    exists_forall₂ fun p hp ↦ hload p.1 p.2 (Dict.get_eq_some_iff.mpr hp)
  -- the entries are the items, in another order
  obtain ⟨_, heq, hperm⟩ := sortKeys_dict (entries f d)
  rw [hsorted] at heq
  obtain rfl := Obj.dict.inj heq
  have hitems : items.Perm (d.items.map fun p ↦ (Obj.str (strOfInt p.1), sortKeys (f p.2))) := by
    refine hperm.symm.trans ?_
    rw [entries, List.map_map]
    exact (List.perm_insertionSort _ _).map _
  have hall : List.Forall₂ (fun (q : Obj × Obj) y ↦ load q.1 q.2 = .ok y)
      (d.items.map fun p ↦ (Obj.str (strOfInt p.1), sortKeys (f p.2))) ys :=
    List.forall₂_map_left_iff.mpr (hys.imp fun p y h ↦ h.1 _)
  obtain ⟨zs, hzs, hperm'⟩ := List.perm_comp_forall₂ hitems hall
  have hkeys : ys.map identifier = d.items.map Prod.fst := by
    have hkey : List.Forall₂ (· = ·) (ys.map identifier) (d.items.map Prod.fst) :=
      List.forall₂_map_left_iff.mpr (List.forall₂_map_right_iff.mpr
        (hys.flip.imp fun y p h ↦ h.2.1))
    rwa [List.forall₂_eq_eq_eq] at hkey
  have hnodup : ((zs.map fun z ↦ (identifier z, z)).map Prod.fst).Nodup := by
    rw [List.map_map]
    refine (hperm'.map identifier).nodup_iff.mpr ?_
    rw [hkeys]
    exact d.nodup
  refine ⟨_, loadItems_ok hzs .empty, fun k ↦ ?_⟩
  have hget : ∀ y, (Dict.empty.update (zs.map fun z ↦ (identifier z, z))).get k = some y ↔
      y ∈ ys ∧ identifier y = k := by
    intro y
    rw [← hperm'.mem_iff]
    refine (Dict.get_ofItems_eq_some_iff hnodup).trans ?_
    rw [List.mem_map]
    constructor
    · rintro ⟨z, hz, heq⟩
      obtain ⟨rfl, rfl⟩ := Prod.mk.inj heq
      exact ⟨hz, rfl⟩
    · rintro ⟨hy, rfl⟩
      exact ⟨y, hy, rfl⟩
  cases hd : d.get k with
  | some x =>
      obtain ⟨y, hy, hR⟩ := exists_mem_of_forall₂ hys (Dict.get_eq_some_iff.mp hd)
      rw [(hget y).mpr ⟨hy, hR.2.1⟩]
      exact .some hR.2.2
  | none =>
      cases hd' : (Dict.empty.update (zs.map fun z ↦ (identifier z, z))).get k with
      | none => exact .none
      | some y =>
          obtain ⟨hy, hid⟩ := (hget y).mp hd'
          obtain ⟨p, hp, hR⟩ := exists_mem_of_forall₂ hys.flip hy
          have hpk : d.get k = some p.2 := by
            rw [← hid, hR.2.1]
            exact Dict.get_eq_some_iff.mpr hp
          rw [hd] at hpk
          cases hpk

end

/-- The entries of a dictionary are a plain object. -/
theorem plainItems_entries {α : Type} {f : α → Obj} {d : Dict Int α}
    (h : ∀ k x, d.get k = some x → (f x).Plain) : PlainItems (entries f d) := by
  have hperm := (List.perm_insertionSort (fun p q : Int × α ↦ p.1 ≤ q.1) d.items).map
    fun p ↦ (Obj.str (strOfInt p.1), f p.2)
  constructor
  · refine (hperm.map Prod.fst).nodup_iff.mpr ?_
    rw [List.map_map]
    have hkeys := d.nodup.map (f := fun k ↦ Obj.str (strOfInt k)) fun m n hmn ↦
      Int.repr_injective (PyStr.ofString_injective (Obj.str.inj hmn))
    rw [List.map_map] at hkeys
    exact hkeys
  · intro p hp
    obtain ⟨q, -, rfl⟩ := List.mem_map.mp (hperm.mem_iff.mp hp)
    exact ⟨_, rfl, PyStr.scalar_ofString _⟩
  · intro p hp
    obtain ⟨q, hq, rfl⟩ := List.mem_map.mp (hperm.mem_iff.mp hp)
    exact h q.1 q.2 (Dict.get_eq_some_iff.mpr hq)

/-! ## Loading what was saved -/

theorem NameOk.plain {name : Obj} (h : NameOk name) : name.Plain := by
  cases name with
  | none => exact .none
  | str s => exact .str s h
  | _ => exact h.elim

theorem NameOk.sortKeys {name : Obj} (h : NameOk name) : Remote.sortKeys name = name := by
  cases name with
  | none => rfl
  | str s => rfl
  | _ => exact h.elim

/-- An object whose keys are written out. -/
theorem plainItems_object (l : List (String × Obj)) (hkeys : (l.map Prod.fst).Nodup)
    (hvalues : ∀ p ∈ l, p.2.Plain) : PlainItems (l.map fun p ↦ (Obj.text p.1, p.2)) where
  keys := by
    have hnodup := hkeys.map (f := Obj.text) fun s t hst ↦
      PyStr.ofString_injective (Obj.str.inj hst)
    rwa [List.map_map] at hnodup ⊢
  str p hp := by
    obtain ⟨q, -, rfl⟩ := List.mem_map.mp hp
    exact ⟨_, rfl, PyStr.scalar_ofString _⟩
  values p hp := by
    obtain ⟨q, hq, rfl⟩ := List.mem_map.mp hp
    exact hvalues q hq

theorem plainItems_buttonToDict {b : ButtonConfiguration} (h : b.WellFormed) :
    PlainItems [(.text "button_id", .int b.buttonId), (.text "button_type", .int b.buttonType),
      (.text "button_name", b.buttonName)] := by
  refine plainItems_object [("button_id", .int b.buttonId), ("button_type", .int b.buttonType),
    ("button_name", b.buttonName)] (by simp) ?_
  simp only [List.forall_mem_cons, List.not_mem_nil, false_imp_iff, implies_true, and_true]
  have hid := h.buttonId
  have htype := h.buttonType
  exact ⟨.int _ (by omega), .int _ (by omega), h.buttonName.plain⟩

/-- A button loads as it was saved. -/
theorem loadButton_buttonToDict {b : ButtonConfiguration} (h : b.WellFormed) (key : Obj) :
    loadButton key (sortKeys (buttonToDict b)) = .ok b := by
  obtain ⟨items, hsorted, -⟩ := sortKeys_dict [(.text "button_id", .int b.buttonId),
    (.text "button_type", .int b.buttonType), (.text "button_name", b.buttonName)]
  have hlookup := lookup_sortKeys (plainItems_buttonToDict h) hsorted
  have hid : Obj.lookup items (.text "button_id") = some (.int b.buttonId) := hlookup _
  have htype : Obj.lookup items (.text "button_type") = some (.int b.buttonType) := hlookup _
  have hname : Obj.lookup items (.text "button_name") = some b.buttonName :=
    (hlookup _).trans (congrArg some h.buttonName.sortKeys)
  have hidRange := h.buttonId
  have htypeRange := h.buttonType
  have hrange : 0 ≤ b.buttonId ∧ b.buttonId ≤ 255 ∧ 0 ≤ b.buttonType ∧ b.buttonType ≤ 0xFFFF := by
    omega
  rw [buttonToDict, hsorted]
  simp only [loadButton, getD, hid, htype, hname, Option.getD_some, Obj.toInt, bind_ok, hrange,
    and_self, if_true]

theorem plainItems_targetToDict {t : TargetConfiguration} (h : t.WellFormed) :
    PlainItems [(.text "target_identifier", .int t.targetIdentifier),
      (.text "target_name", t.targetName),
      (.text "target_category", (t.targetCategory.map Obj.int).getD .none),
      (.text "buttons", .dict (entries buttonToDict t.buttons))] := by
  refine plainItems_object [("target_identifier", .int t.targetIdentifier),
    ("target_name", t.targetName),
    ("target_category", (t.targetCategory.map Obj.int).getD .none),
    ("buttons", .dict (entries buttonToDict t.buttons))] (by simp) ?_
  simp only [List.forall_mem_cons, List.not_mem_nil, false_imp_iff, implies_true, and_true]
  have hid := h.targetIdentifier
  refine ⟨.int _ (by omega), h.targetName.nameOk.plain, ?_, ?_⟩
  · cases hcategory : t.targetCategory with
    | none => exact .none
    | some n =>
        have hn := h.targetCategory n hcategory
        exact .int n (by omega)
  · exact (plainItems_entries fun k b hb ↦
      (plainItems_buttonToDict (h.buttons k b hb).2).plain).plain

/-- **A target loads as it was saved.** -/
theorem loadTarget_targetToDict {t : TargetConfiguration} (h : t.WellFormed) :
    ∃ t', (∀ key, loadTarget key (sortKeys (targetToDict t)) = .ok t') ∧ t.Same t' := by
  obtain ⟨items, hsorted, -⟩ := sortKeys_dict [(.text "target_identifier", .int t.targetIdentifier),
    (.text "target_name", t.targetName),
    (.text "target_category", (t.targetCategory.map Obj.int).getD .none),
    (.text "buttons", .dict (entries buttonToDict t.buttons))]
  have hlookup := lookup_sortKeys (plainItems_targetToDict h) hsorted
  have hid : Obj.lookup items (.text "target_identifier") = some (.int t.targetIdentifier) :=
    hlookup _
  have hname : Obj.lookup items (.text "target_name") = some t.targetName :=
    (hlookup _).trans (congrArg some h.targetName.nameOk.sortKeys)
  have hcategory : loadCategory items = .ok t.targetCategory := by
    have hraw : Obj.lookup items (.text "target_category") =
        some (sortKeys ((t.targetCategory.map Obj.int).getD .none)) := hlookup _
    rw [loadCategory, getD, hraw]
    cases t.targetCategory <;> rfl
  obtain ⟨rawButtons, hbuttons, -⟩ := sortKeys_dict (entries buttonToDict t.buttons)
  have hraw : Obj.lookup items (.text "buttons") = some (.dict rawButtons) :=
    (hlookup _).trans (congrArg some hbuttons)
  obtain ⟨buttons, hload, hsame⟩ := loadItems_entries (R := fun b b' ↦ b' = b) hbuttons
    fun k b hb ↦ ⟨b, loadButton_buttonToDict (h.buttons k b hb).2, (h.buttons k b hb).1, rfl⟩
  refine ⟨⟨t.targetIdentifier, t.targetName, t.targetCategory, buttons⟩, fun key ↦ ?_,
    rfl, rfl, rfl, fun k ↦ ?_⟩
  · rw [targetToDict, hsorted]
    simp only [loadTarget, getD, hid, hname, hraw, hcategory, Option.getD_some, Obj.toInt, bind_ok,
      h.targetIdentifier, and_self, if_true, loadButtons, hload]
  · have hk := hsame k
    revert hk
    generalize t.buttons.get k = x
    generalize buttons.get k = y
    rintro (heq | _)
    · exact congrArg some heq
    · rfl

/-! ## Loading the file -/

/-- The targets in order, under the identifiers that they carry. -/
theorem plain_targetsPayload {targets : Dict Int TargetConfiguration}
    (h : ∀ k t, targets.get k = some t → t.WellFormed) {activeIdentifier : Int}
    (hactive : activeIdentifier.natAbs < 2 ^ 64) :
    PlainItems [(.text "version", .int 1), (.text "active_identifier", .int activeIdentifier),
      (.text "targets", .dict (entries targetToDict targets))] := by
  refine plainItems_object [("version", .int 1), ("active_identifier", .int activeIdentifier),
    ("targets", .dict (entries targetToDict targets))] (by simp) ?_
  simp only [List.forall_mem_cons, List.not_mem_nil, false_imp_iff, implies_true, and_true]
  exact ⟨.int 1 (by decide), .int _ hactive, (plainItems_entries fun k t ht ↦
    (plainItems_targetToDict (h k t ht)).plain).plain⟩

/-- What is loaded is what was in memory: the selection, and the same target under each
identifier. -/
structure Reloads (targets : Dict Int TargetConfiguration) (activeIdentifier : Int)
    (loaded : Loaded) : Prop where
  quarantined : loaded.quarantined = false
  activeIdentifier : loaded.activeIdentifier = activeIdentifier
  targets : ∀ k, Option.Rel TargetConfiguration.Same (targets.get k) (loaded.targets.get k)

/-- **The text of targets that are in order loads as the same targets.** -/
theorem loadTargets_targetsText {json : JsonText} (hjson : json.RoundTrips)
    {targets : Dict Int TargetConfiguration} {activeIdentifier : Int}
    (hsize : targets.size ≤ maxTargets)
    (htargets : ∀ k t, targets.get k = some t → t.targetIdentifier = k ∧ t.WellFormed)
    (hactive : activeIdentifier = 0 ∨ targets.contains activeIdentifier = true) :
    Reloads targets activeIdentifier
      (loadTargets json (some (targetsText json targets activeIdentifier))) := by
  have hrange : activeIdentifier.natAbs < 2 ^ 64 := by
    rcases hactive with rfl | hin
    · decide
    · obtain ⟨t, ht⟩ := Option.isSome_iff_exists.mp hin
      obtain ⟨rfl, hwf⟩ := htargets _ t ht
      have hid := hwf.targetIdentifier
      omega
  have hitems := plain_targetsPayload (fun k t ht ↦ (htargets k t ht).2) hrange
  obtain ⟨root, hsorted, -⟩ := sortKeys_dict [(.text "version", .int 1),
    (.text "active_identifier", .int activeIdentifier),
    (.text "targets", .dict (entries targetToDict targets))]
  have hlookup := lookup_sortKeys hitems hsorted
  obtain ⟨rawTargets, hraw, hperm⟩ := sortKeys_dict (entries targetToDict targets)
  have hrawTargets : Obj.lookup root (.text "targets") = some (.dict rawTargets) :=
    (hlookup _).trans (congrArg some hraw)
  have hrawActive : Obj.lookup root (.text "active_identifier") = some (.int activeIdentifier) :=
    hlookup _
  have hlength : rawTargets.length ≤ maxTargets := by
    rw [← hperm.length_eq, List.length_map, entries, List.length_map, List.length_insertionSort]
    exact hsize
  obtain ⟨loaded, hload, hsame⟩ := loadItems_entries hraw fun k t ht ↦ by
    obtain ⟨t', ht', hlike⟩ := loadTarget_targetToDict (htargets k t ht).2
    exact ⟨t', ht', hlike.targetIdentifier.trans (htargets k t ht).1, hlike⟩
  -- the selection names a target that was loaded
  have hknown : ¬(activeIdentifier ≠ 0 ∧ loaded.contains activeIdentifier = false) := by
    rintro ⟨hne, hmissing⟩
    have hin := hactive.resolve_left hne
    have hrel := hsame activeIdentifier
    rw [Dict.contains_eq_false_iff.mp hmissing] at hrel
    obtain ⟨t, ht⟩ := Option.isSome_iff_exists.mp hin
    rw [ht] at hrel
    cases hrel
  have hpayload : loadPayload (.dict root) = .ok (loaded, activeIdentifier) := by
    simp only [loadPayload, getD, hrawTargets, hrawActive, Option.getD_some, Nat.not_lt.mpr hlength,
      if_false, loadTargetItems, hload, bind_ok, Obj.toInt, if_neg hknown]
  have hloads : json.loads (targetsText json targets activeIdentifier) = .ok (.dict root) := by
    rw [targetsText, targetsPayload, hjson _ (plain_sortKeys hitems.plain), hsorted]
  rw [loadTargets, hloads, bind_ok, hpayload]
  exact ⟨rfl, rfl, hsame⟩

/-! ## Runs -/

namespace AppleTVHomeKitRemote

variable {ε : Type} {json : JsonText} {opus : OpusEncoder ε}

/-- The file has the targets and the selection, or there is neither a file nor a target. -/
def Saved (r : AppleTVHomeKitRemote ε json.Text) : Prop :=
  r.Written ∨ (r.targetsFile = none ∧ r.targets = .empty ∧ r.activeIdentifier = 0)

/-- A step that advances the registry keeps the file up to date. -/
theorem Advances.saved {r r' : AppleTVHomeKitRemote ε json.Text} (h : Advances r r')
    (hr : r.Saved) : r'.Saved := by
  rcases h.file with hwritten | ⟨htargets, hactive, hfile⟩
  · exact .inl hwritten
  · rw [Saved, Written, htargets, hactive, hfile]
    exact hr

/-- What is on file loads as what is in memory. -/
theorem Saved.reloads {r : AppleTVHomeKitRemote ε json.Text} (hsaved : r.Saved)
    (hjson : json.RoundTrips) (hr : r.Registry) :
    Reloads r.targets r.activeIdentifier (loadTargets json r.targetsFile) := by
  rcases hsaved with hwritten | ⟨hfile, htargets, hactive⟩
  · rw [show r.targetsFile = _ from hwritten]
    exact loadTargets_targetsText hjson hr.size hr.targets hr.activeIdentifier
  · rw [hfile, htargets, hactive]
    exact ⟨rfl, rfl, fun _ ↦ .none⟩

end AppleTVHomeKitRemote

open AppleTVHomeKitRemote

/-- **The file refines memory**: in every state of a run that starts without a file, a
controller that is constructed on the file has the same targets and the same selection, and
the file stays in its place. -/
theorem fileRefinesMemory {ε : Type} (json : JsonText) (opus : OpusEncoder ε)
    (r : AppleTVHomeKitRemote ε json.Text) (hjson : json.RoundTrips)
    (h : (remotes json opus none).ReachableVia (fun _ a ↦ a.lenient = true) r) :
    Reloads r.targets r.activeIdentifier (loadTargets json r.targetsFile) ∧
      (new json r.targetsFile : AppleTVHomeKitRemote ε json.Text).targetsFile = r.targetsFile := by
  have hboth : r.Registry ∧ r.Saved := by
    refine h.invariant (I := fun r ↦ r.Registry ∧ r.Saved) ?_ ?_
    · rintro r rfl
      exact ⟨registry_new, .inr ⟨rfl, rfl, rfl⟩⟩
    · rintro r r' a ⟨hr, hsaved⟩ ha hstep
      have hadvances := step_advances hr ha hstep
      exact ⟨hadvances.registry, hadvances.saved hsaved⟩
  have hloads := hboth.2.reloads hjson hboth.1
  refine ⟨hloads, ?_⟩
  rw [new, hloads.quarantined]
  rfl

/-- Two targets are added, the second selected, and the first removed. -/
def secondLeft : List Label :=
  [.start, .targetListWrite (.ofString "AQECAhIBBAEAAAACAUEEBwEBBQICAQA=") (some ⟨"hub", 1⟩) true,
    .targetListWrite (.ofString "AQECAhIBBAIAAAACAUEEBwEBBQICAQA=") (some ⟨"hub", 1⟩) true,
    .targetListWrite (.ofString "AQEDAgYBBAEAAAA=") (some ⟨"hub", 1⟩) true]

/-- The file with the second target. -/
theorem fileRefinesMemory_secondLeft :
    ∃ r, (remotes .documents .verbatim none).exec (.new .documents none) secondLeft = some r ∧
      r.activeIdentifier = 2 ∧
      Reloads r.targets r.activeIdentifier (loadTargets .documents r.targetsFile) := by
  have hactive : ((remotes .documents .verbatim none).exec (.new .documents none)
      secondLeft).map (fun r ↦ r.activeIdentifier) = some 2 := by decide
  obtain ⟨r, hr, htwo⟩ := Option.map_eq_some_iff.mp hactive
  have hinit : (remotes .documents .verbatim none).Run [] (.new .documents none) := .init rfl
  have hok : ∀ p ∈ (remotes .documents .verbatim none).trace (.new .documents none) secondLeft,
      p.2.lenient = true := by decide
  have h := fileRefinesMemory .documents .verbatim r JsonText.documents_roundTrips
    ((hinit.exec hr).reachableVia hok)
  exact ⟨r, hr, htwo, h.1⟩

end AtvRemote.Remote
