import AtvRemote.Remote.Store

/-!
# What is loaded

`_load_targets` checks the identifiers and the buttons of a document, and takes names and
categories as they are.  What it leaves is usable exactly when those fields are in order
too, in every entry that counts: an entry is replaced by a later one with its identifier
(`usable_iff`).
-/

namespace AtvRemote.Remote

open Lib

/-! ## Usable state -/

/-- What the controller relies on about the targets and the selection. -/
structure Usable (l : Loaded) : Prop where
  size : l.targets.size ≤ maxTargets
  targetIdentifier : ∀ k t, l.targets.get k = some t →
    t.targetIdentifier = k ∧ 1 ≤ k ∧ k ≤ 0xFFFFFFFF
  targetName : ∀ k t, l.targets.get k = some t → TargetNameOk t.targetName
  targetCategory : ∀ k t, l.targets.get k = some t →
    ∀ n, t.targetCategory = some n → 0 ≤ n ∧ n < 2 ^ 16
  buttons : ∀ k t, l.targets.get k = some t → ∀ j b, t.buttons.get j = some b →
    b.buttonId = j ∧ (0 ≤ j ∧ j ≤ 0xFF) ∧ (0 ≤ b.buttonType ∧ b.buttonType < 2 ^ 16) ∧
      (b.buttonName = .none ∨ ∃ s, b.buttonName = .str s)
  activeIdentifier : l.activeIdentifier = 0 ∨ l.targets.contains l.activeIdentifier = true
  /-- `target_list_value` does not raise. -/
  value : ∃ text, targetListValue l.targets = .ok text
  quarantined : l.quarantined = true → l.targets = .empty ∧ l.activeIdentifier = 0

/-! ## The fields of a document -/

section

variable {α κ : Type}

/-- No item behind `x` has the key of `x`. -/
def Stands (key : α → κ) (xs : List α) (x : α) : Prop :=
  ∃ front back, xs = front ++ x :: back ∧ ∀ y ∈ back, key y ≠ key x

theorem stands_cons {key : α → κ} {x y : α} {xs : List α} :
    Stands key (x :: xs) y ↔ (y = x ∧ ∀ z ∈ xs, key z ≠ key x) ∨ Stands key xs y := by
  constructor
  · rintro ⟨front, back, hsplit, hback⟩
    cases front with
    | nil =>
        obtain ⟨rfl, rfl⟩ := List.cons.inj hsplit
        exact .inl ⟨rfl, hback⟩
    | cons z front =>
        obtain ⟨rfl, rfl⟩ := List.cons.inj hsplit
        exact .inr ⟨front, back, rfl, hback⟩
  · rintro (⟨rfl, hback⟩ | ⟨front, back, rfl, hback⟩)
    · exact ⟨[], xs, rfl, hback⟩
    · exact ⟨x :: front, back, rfl, hback⟩

theorem Stands.mem {key : α → κ} {x : α} {xs : List α} (h : Stands key xs x) : x ∈ xs := by
  obtain ⟨front, back, rfl, -⟩ := h
  exact List.mem_append_right _ (List.mem_cons_self ..)

end

/-- The key under which the loops of `_load_targets` store an entry. -/
def entryIdentifier (field : String) (p : Obj × Obj) : Except PyErr Int :=
  match p.2 with
  | .dict items => (getD items field p.1).toInt
  | _ => .error (.valueError "entry must be an object")

/-- The name of a button is absent, or a string that has an encoding. -/
def RawButtonOk (raw : Obj) : Prop :=
  ∀ items, raw = .dict items → NameOk (getD items "button_name" .none)

/-- The name of a target is absent, or a string of at most 255 bytes that is not empty; its
category is absent or a `uint16`; and the names of its buttons are in order. -/
structure RawTargetOk (items : List (Obj × Obj)) : Prop where
  targetName : TargetNameOk (getD items "target_name" .none)
  targetCategory : ∀ n, loadCategory items = .ok (some n) → 0 ≤ n ∧ n < 2 ^ 16
  buttons : ∀ raws, getD items "buttons" (.dict []) = .dict raws →
    ∀ p, Stands (entryIdentifier "button_id") raws p → RawButtonOk p.2

/-- The targets of a document that count are in order. -/
def FieldsOk (doc : Obj) : Prop :=
  ∀ root raws, doc = .dict root → getD root "targets" (.dict []) = .dict raws →
    ∀ p, Stands (entryIdentifier "target_identifier") raws p →
      ∀ items, p.2 = .dict items → RawTargetOk items

/-! ## Loops -/

section

variable {α : Type} {load : Obj → Obj → Except PyErr α} {identifier : α → Int}

/-- An entry that loads is stored under its key. -/
theorem loadItems_cons {loaded d : Dict Int α} {p : Obj × Obj} {items : List (Obj × Obj)}
    (h : loadItems load identifier loaded (p :: items) = .ok d) :
    ∃ x, load p.1 p.2 = .ok x ∧
      loadItems load identifier (loaded.set (identifier x) x) items = .ok d := by
  obtain ⟨x, hx, h⟩ := bind_eq_ok.mp h
  exact ⟨x, hx, h⟩

/-- Every entry loads. -/
theorem loadItems_mem {loaded d : Dict Int α} {items : List (Obj × Obj)}
    (h : loadItems load identifier loaded items = .ok d) :
    ∀ p ∈ items, ∃ x, load p.1 p.2 = .ok x := by
  induction items generalizing loaded with
  | nil => exact nofun
  | cons p items ih =>
      obtain ⟨x, hx, h⟩ := loadItems_cons h
      exact List.forall_mem_cons.mpr ⟨⟨x, hx⟩, ih h⟩

/-- A loop whose entries all load returns. -/
theorem loadItems_isOk (loaded : Dict Int α) {items : List (Obj × Obj)}
    (h : ∀ p ∈ items, ∃ x, load p.1 p.2 = .ok x) :
    ∃ d, loadItems load identifier loaded items = .ok d := by
  induction items generalizing loaded with
  | nil => exact ⟨loaded, rfl⟩
  | cons p items ih =>
      obtain ⟨x, hx⟩ := h p (List.mem_cons_self ..)
      obtain ⟨d, hd⟩ := ih (loaded.set (identifier x) x) fun q hq ↦ h q (List.mem_cons_of_mem _ hq)
      exact ⟨d, bind_eq_ok.mpr ⟨x, hx, hd⟩⟩

theorem size_loadItems {loaded d : Dict Int α} {items : List (Obj × Obj)}
    (h : loadItems load identifier loaded items = .ok d) :
    d.size ≤ loaded.size + items.length := by
  induction items generalizing loaded with
  | nil =>
      cases h
      exact Nat.le_refl _
  | cons p items ih =>
      obtain ⟨x, -, h⟩ := loadItems_cons h
      have hset := Dict.size_set_le loaded (identifier x) x
      have hle := ih h
      rw [List.length_cons]
      omega

/-- What is stored under a key is what the last entry with the key loads as, if there is one. -/
theorem loadItems_get {field : String} {loaded d : Dict Int α} {items : List (Obj × Obj)}
    (hkey : ∀ p x, load p.1 p.2 = .ok x → entryIdentifier field p = .ok (identifier x))
    (h : loadItems load identifier loaded items = .ok d) (k : Int) (x : α) :
    d.get k = some x ↔
      (identifier x = k ∧ ∃ p, Stands (entryIdentifier field) items p ∧ load p.1 p.2 = .ok x) ∨
      ((∀ p ∈ items, entryIdentifier field p ≠ .ok k) ∧ loaded.get k = some x) := by
  induction items generalizing loaded with
  | nil =>
      cases h
      constructor
      · exact fun hget ↦ .inr ⟨nofun, hget⟩
      · rintro (⟨-, p, hp, -⟩ | ⟨-, hget⟩)
        · exact absurd hp.mem List.not_mem_nil
        · exact hget
  | cons p items ih =>
      obtain ⟨y, hy, h⟩ := loadItems_cons h
      have hp := hkey p y hy
      rw [ih h, Dict.get_set]
      constructor
      · rintro (⟨hx, q, hq, hload⟩ | ⟨hnone, hget⟩)
        · exact .inl ⟨hx, q, stands_cons.mpr (.inr hq), hload⟩
        · split at hget
          · next hk =>
            cases hget
            refine .inl ⟨hk.symm, p, stands_cons.mpr (.inl ⟨rfl, fun q hq ↦ ?_⟩), hy⟩
            rw [hp, ← hk]
            exact hnone q hq
          · next hk =>
            refine .inr ⟨List.forall_mem_cons.mpr ⟨?_, hnone⟩, hget⟩
            rw [hp]
            exact fun heq ↦ hk (Except.ok.inj heq).symm
      · rintro (⟨hx, q, hq, hload⟩ | ⟨hnone, hget⟩)
        · rcases stands_cons.mp hq with ⟨rfl, hback⟩ | hq
          · obtain rfl := Except.ok.inj (hy.symm.trans hload)
            refine .inr ⟨fun q hq ↦ ?_, if_pos hx.symm⟩
            rw [← hx, ← hp]
            exact hback q hq
          · exact .inl ⟨hx, q, hq, hload⟩
        · obtain ⟨hne, hnone⟩ := List.forall_mem_cons.mp hnone
          refine .inr ⟨hnone, ?_⟩
          rw [if_neg fun hk ↦ hne (by rw [hp, hk])]
          exact hget

end

/-! ## Entries -/

/-- What the loader checks of a button. -/
def CheckedButton (p : Obj × Obj) : Prop :=
  ∃ items raw j n, p.2 = .dict items ∧ (getD items "button_id" p.1).toInt = .ok j ∧
    Obj.lookup items (.text "button_type") = some raw ∧ raw.toInt = .ok n ∧
    0 ≤ j ∧ j ≤ 255 ∧ 0 ≤ n ∧ n ≤ 0xFFFF

/-- What the loader checks of a target. -/
def CheckedTarget (p : Obj × Obj) : Prop :=
  ∃ items raws k category, p.2 = .dict items ∧
    (getD items "target_identifier" p.1).toInt = .ok k ∧ (1 ≤ k ∧ k ≤ 0xFFFFFFFF) ∧
    getD items "buttons" (.dict []) = .dict raws ∧ (∀ q ∈ raws, CheckedButton q) ∧
    loadCategory items = .ok category

/-- What the loader checks of a document. -/
def Checked (doc : Obj) : Prop :=
  ∃ root raws n, doc = .dict root ∧ getD root "targets" (.dict []) = .dict raws ∧
    raws.length ≤ maxTargets ∧ (∀ p ∈ raws, CheckedTarget p) ∧
    (getD root "active_identifier" (.int 0)).toInt = .ok n

theorem loadButton_eq_ok {key raw : Obj} {b : ButtonConfiguration} :
    loadButton key raw = .ok b ↔ ∃ items rawType, raw = .dict items ∧
      (getD items "button_id" key).toInt = .ok b.buttonId ∧
      Obj.lookup items (.text "button_type") = some rawType ∧ rawType.toInt = .ok b.buttonType ∧
      (0 ≤ b.buttonId ∧ b.buttonId ≤ 255 ∧ 0 ≤ b.buttonType ∧ b.buttonType ≤ 0xFFFF) ∧
      b.buttonName = getD items "button_name" .none := by
  constructor
  · intro h
    cases raw with
    | dict items =>
        obtain ⟨j, hj, h⟩ := bind_eq_ok.mp h
        dsimp only at h
        split at h
        · next rawType hraw =>
          obtain ⟨n, hn, h⟩ := bind_eq_ok.mp h
          split at h
          · next hrange =>
            cases h
            exact ⟨items, rawType, rfl, hj, hraw, hn, hrange, rfl⟩
          · cases h
        · cases h
    | _ => cases h
  · rintro ⟨items, rawType, rfl, hj, hraw, hn, hrange, hname⟩
    simp only [loadButton, hj, hraw, hn, bind_ok, if_pos hrange, ← hname]

theorem loadTarget_eq_ok {key raw : Obj} {t : TargetConfiguration} :
    loadTarget key raw = .ok t ↔ ∃ items raws, raw = .dict items ∧
      (getD items "target_identifier" key).toInt = .ok t.targetIdentifier ∧
      (1 ≤ t.targetIdentifier ∧ t.targetIdentifier ≤ 0xFFFFFFFF) ∧
      getD items "buttons" (.dict []) = .dict raws ∧ loadButtons raws = .ok t.buttons ∧
      loadCategory items = .ok t.targetCategory ∧
      t.targetName = getD items "target_name" .none := by
  constructor
  · intro h
    cases raw with
    | dict items =>
        obtain ⟨k, hk, h⟩ := bind_eq_ok.mp h
        split at h
        · next hrange =>
          split at h
          · next raws hraws =>
            obtain ⟨buttons, hbuttons, h⟩ := bind_eq_ok.mp h
            obtain ⟨category, hcategory, h⟩ := bind_eq_ok.mp h
            cases h
            exact ⟨items, raws, rfl, hk, hrange, hraws, hbuttons, hcategory, rfl⟩
          · cases h
        · cases h
    | _ => cases h
  · rintro ⟨items, raws, rfl, hk, hrange, hraws, hbuttons, hcategory, hname⟩
    simp only [loadTarget, hk, bind_ok, if_pos hrange, hraws, hbuttons, hcategory, ← hname]

theorem entryIdentifier_of_loadButton (p : Obj × Obj) (b : ButtonConfiguration)
    (h : loadButton p.1 p.2 = .ok b) : entryIdentifier "button_id" p = .ok b.buttonId := by
  obtain ⟨items, -, hitems, hj, -⟩ := loadButton_eq_ok.mp h
  simp only [entryIdentifier, hitems, hj]

theorem entryIdentifier_of_loadTarget (p : Obj × Obj) (t : TargetConfiguration)
    (h : loadTarget p.1 p.2 = .ok t) :
    entryIdentifier "target_identifier" p = .ok t.targetIdentifier := by
  obtain ⟨items, -, hitems, hk, -⟩ := loadTarget_eq_ok.mp h
  simp only [entryIdentifier, hitems, hk]

/-- The buttons of a target that is loaded. -/
theorem loadButtons_get {raws : List (Obj × Obj)} {buttons : Dict Int ButtonConfiguration}
    (h : loadButtons raws = .ok buttons) (j : Int) (b : ButtonConfiguration) :
    buttons.get j = some b ↔ b.buttonId = j ∧
      ∃ p, Stands (entryIdentifier "button_id") raws p ∧ loadButton p.1 p.2 = .ok b := by
  rw [loadItems_get entryIdentifier_of_loadButton h, Dict.get_empty]
  simp

/-- The targets of a document that is loaded. -/
theorem loadTargetItems_get {raws : List (Obj × Obj)} {targets : Dict Int TargetConfiguration}
    (h : loadTargetItems raws = .ok targets) (k : Int) (t : TargetConfiguration) :
    targets.get k = some t ↔ t.targetIdentifier = k ∧
      ∃ p, Stands (entryIdentifier "target_identifier") raws p ∧ loadTarget p.1 p.2 = .ok t := by
  rw [loadItems_get entryIdentifier_of_loadTarget h, Dict.get_empty]
  simp

/-! ## What the loader accepts -/

theorem loadButton_isOk_iff {p : Obj × Obj} :
    (∃ b, loadButton p.1 p.2 = .ok b) ↔ CheckedButton p := by
  constructor
  · rintro ⟨b, h⟩
    obtain ⟨items, raw, hitems, hj, hraw, hn, ⟨h₁, h₂, h₃, h₄⟩, -⟩ := loadButton_eq_ok.mp h
    exact ⟨items, raw, _, _, hitems, hj, hraw, hn, h₁, h₂, h₃, h₄⟩
  · rintro ⟨items, raw, j, n, hitems, hj, hraw, hn, hrange⟩
    exact ⟨⟨j, n, _⟩, loadButton_eq_ok.mpr ⟨items, raw, hitems, hj, hraw, hn, hrange, rfl⟩⟩

theorem loadTarget_isOk_iff {p : Obj × Obj} :
    (∃ t, loadTarget p.1 p.2 = .ok t) ↔ CheckedTarget p := by
  constructor
  · rintro ⟨t, h⟩
    obtain ⟨items, raws, hitems, hk, hrange, hraws, hbuttons, hcategory, -⟩ :=
      loadTarget_eq_ok.mp h
    exact ⟨items, raws, _, _, hitems, hk, hrange, hraws,
      fun q hq ↦ loadButton_isOk_iff.mp (loadItems_mem hbuttons q hq), hcategory⟩
  · rintro ⟨items, raws, k, category, hitems, hk, hrange, hraws, hall, hcategory⟩
    obtain ⟨buttons, hbuttons⟩ : ∃ buttons, loadButtons raws = .ok buttons :=
      loadItems_isOk .empty fun q hq ↦ loadButton_isOk_iff.mpr (hall q hq)
    exact ⟨⟨k, _, category, buttons⟩, loadTarget_eq_ok.mpr
      ⟨items, raws, hitems, hk, hrange, hraws, hbuttons, hcategory, rfl⟩⟩

/-- A document that is accepted, and what is made of it. -/
theorem loadPayload_eq_ok {doc : Obj} {targets : Dict Int TargetConfiguration} {active : Int}
    (h : loadPayload doc = .ok (targets, active)) :
    ∃ root raws, doc = .dict root ∧ getD root "targets" (.dict []) = .dict raws ∧
      raws.length ≤ maxTargets ∧ loadTargetItems raws = .ok targets ∧
      (∃ n, (getD root "active_identifier" (.int 0)).toInt = .ok n) ∧
      (active = 0 ∨ targets.contains active = true) := by
  unfold loadPayload at h
  split at h
  · next root =>
    split at h
    · next raws hraws =>
      split at h
      · cases h
      · next hlen =>
        obtain ⟨loaded, hloaded, h⟩ := bind_eq_ok.mp h
        obtain ⟨n, hn, h⟩ := bind_eq_ok.mp h
        refine ⟨root, raws, rfl, hraws, Nat.not_lt.mp hlen, ?_⟩
        split at h
        · cases h
          exact ⟨hloaded, ⟨n, hn⟩, firstIdentifier_cases targets⟩
        · next hactive =>
          cases h
          refine ⟨hloaded, ⟨_, hn⟩, ?_⟩
          rcases Decidable.em (active = 0) with hzero | hzero
          · exact .inl hzero
          · exact .inr (Bool.of_not_eq_false fun hc ↦ hactive ⟨hzero, hc⟩)
    · cases h
  · cases h

/-- The loader accepts exactly the documents whose checked fields are in order. -/
theorem loadPayload_isOk_iff {doc : Obj} : (∃ r, loadPayload doc = .ok r) ↔ Checked doc := by
  constructor
  · rintro ⟨⟨targets, active⟩, h⟩
    obtain ⟨root, raws, hdoc, hraws, hlen, hloaded, ⟨n, hn⟩, -⟩ := loadPayload_eq_ok h
    exact ⟨root, raws, n, hdoc, hraws, hlen,
      fun p hp ↦ loadTarget_isOk_iff.mp (loadItems_mem hloaded p hp), hn⟩
  · rintro ⟨root, raws, n, rfl, hraws, hlen, hall, hn⟩
    obtain ⟨targets, htargets⟩ : ∃ targets, loadTargetItems raws = .ok targets :=
      loadItems_isOk .empty fun p hp ↦ loadTarget_isOk_iff.mpr (hall p hp)
    simp only [loadPayload, hraws, if_neg (Nat.not_lt.mpr hlen), htargets, hn, bind_ok]
    split
    · exact ⟨_, rfl⟩
    · exact ⟨_, rfl⟩

/-! ## Names -/

/-- Only a string without surrogates can be an entry. -/
theorem scalar_of_encode {tag : UInt8} {s : PyStr} {bytes : Bytes}
    (h : Tlv8.encode [(tag, .str s)] = .ok bytes) : s.Scalar := by
  obtain ⟨parts, hparts, -⟩ := bind_eq_ok.mp h
  obtain ⟨part, -, hpart, -⟩ := mapM_cons_eq_ok.mp hparts
  obtain ⟨value, hvalue, -⟩ := bind_eq_ok.mp hpart
  simp only [Tlv8.normalizeValue] at hvalue
  split at hvalue
  · next b hb => exact PyStr.scalar_of_decodeUtf8 (PyStr.decodeUtf8_of_encodeUtf8 hb)
  · cases hvalue

theorem scalar_of_buttonValue {b : ButtonConfiguration} {bytes : Bytes} {s : PyStr}
    (h : buttonValue b = .ok bytes) (hs : b.buttonName = .str s) : s.Scalar := by
  obtain ⟨buttonType, -, h⟩ := bind_eq_ok.mp h
  obtain ⟨one, -, h⟩ := bind_eq_ok.mp h
  dsimp only at h
  rw [hs] at h
  split at h
  · obtain ⟨name, hname, -⟩ := bind_eq_ok.mp h
    exact scalar_of_encode hname
  · next hempty =>
    cases s with
    | nil => exact fun _ hp ↦ nomatch hp
    | cons => exact absurd rfl hempty

/-- A target list that can be read has the names of its buttons. -/
theorem scalar_of_targetListValue {targets : Dict Int TargetConfiguration} {text : PyStr}
    (h : targetListValue targets = .ok text) {k j : Int} {t : TargetConfiguration}
    {b : ButtonConfiguration} (ht : targets.get k = some t) (hb : t.buttons.get j = some b)
    {s : PyStr} (hs : b.buttonName = .str s) : s.Scalar := by
  have hmem := Dict.get_eq_some_iff.mp ht
  have hmem' := Dict.get_eq_some_iff.mp hb
  obtain ⟨parts, hparts, -⟩ := bind_eq_ok.mp h
  obtain ⟨value, hvalue⟩ := mapM_mem hparts t
    ((List.mem_insertionSort _).mpr (List.mem_map.mpr ⟨_, hmem, rfl⟩))
  obtain ⟨identifier, -, hvalue⟩ := bind_eq_ok.mp hvalue
  obtain ⟨part, -, hvalue⟩ := bind_eq_ok.mp hvalue
  obtain ⟨name, -, hvalue⟩ := bind_eq_ok.mp hvalue
  obtain ⟨category, -, hvalue⟩ := bind_eq_ok.mp hvalue
  obtain ⟨buttons, hbuttons, -⟩ := bind_eq_ok.mp hvalue
  unfold buttonsValue at hbuttons
  split at hbuttons
  · next hempty =>
    rw [List.isEmpty_iff.mp hempty] at hmem'
    exact absurd hmem' List.not_mem_nil
  · obtain ⟨entries, hentries, -⟩ := bind_eq_ok.mp hbuttons
    obtain ⟨bytes, hbytes⟩ := mapM_mem hentries b
      ((List.mem_insertionSort _).mpr (List.mem_map.mpr ⟨_, hmem', rfl⟩))
    exact scalar_of_buttonValue hbytes hs

/-! ## Usable exactly when the fields are in order -/

/-- A target of a document whose fields are in order is well formed. -/
theorem wellFormed_of_loadTarget {key raw : Obj} {t : TargetConfiguration}
    (h : loadTarget key raw = .ok t) (hfields : ∀ items, raw = .dict items → RawTargetOk items) :
    t.WellFormed := by
  obtain ⟨items, raws, hitems, -, hrange, hraws, hbuttons, hcategory, hname⟩ :=
    loadTarget_eq_ok.mp h
  have hok := hfields items hitems
  refine ⟨hrange, hname ▸ hok.targetName, fun n hn ↦ hok.targetCategory n (hn ▸ hcategory), ?_⟩
  intro j b hb
  obtain ⟨hid, p, hp, hload⟩ := (loadButtons_get hbuttons j b).mp hb
  obtain ⟨bitems, -, hbitems, -, -, -, ⟨h₁, h₂, h₃, h₄⟩, hbname⟩ := loadButton_eq_ok.mp hload
  refine ⟨hid, ⟨h₁, h₂⟩, ⟨h₃, Int.lt_of_le_sub_one h₄⟩, ?_⟩
  rw [hbname]
  exact hok.buttons raws hraws p hp bitems hbitems

theorem usable_of_fieldsOk {doc : Obj} {targets : Dict Int TargetConfiguration} {active : Int}
    (h : loadPayload doc = .ok (targets, active)) (hfields : FieldsOk doc) :
    Usable ⟨targets, active, false⟩ := by
  obtain ⟨root, raws, hdoc, hraws, hlen, hloaded, -, hactive⟩ := loadPayload_eq_ok h
  have hwf : ∀ k t, targets.get k = some t → t.targetIdentifier = k ∧ t.WellFormed := by
    intro k t ht
    obtain ⟨hid, p, hp, hload⟩ := (loadTargetItems_get hloaded k t).mp ht
    exact ⟨hid, wellFormed_of_loadTarget hload (hfields root raws hdoc hraws p hp)⟩
  exact
    { size := by simpa using (size_loadItems hloaded).trans (by simpa using hlen)
      targetIdentifier := fun k t ht ↦ by
        obtain ⟨hid, hok⟩ := hwf k t ht
        exact ⟨hid, hid ▸ hok.targetIdentifier⟩
      targetName := fun k t ht ↦ (hwf k t ht).2.targetName
      targetCategory := fun k t ht ↦ (hwf k t ht).2.targetCategory
      buttons := fun k t ht j b hb ↦ by
        obtain ⟨hid, hok⟩ := (hwf k t ht).2.buttons j b hb
        refine ⟨hid, hid ▸ hok.buttonId, hok.buttonType, ?_⟩
        have hname := hok.buttonName
        generalize b.buttonName = name at hname ⊢
        cases name with
        | none => exact .inl rfl
        | str s => exact .inr ⟨s, rfl⟩
        | _ => exact hname.elim
      activeIdentifier := hactive
      value := targetListValue_isOk fun k t ht ↦ (hwf k t ht).2
      quarantined := nofun }

theorem fieldsOk_of_usable {doc : Obj} {targets : Dict Int TargetConfiguration} {active : Int}
    (h : loadPayload doc = .ok (targets, active)) (husable : Usable ⟨targets, active, false⟩) :
    FieldsOk doc := by
  obtain ⟨root, raws, hdoc, hraws, -, hloaded, -⟩ := loadPayload_eq_ok h
  rintro root' raws' hdoc' hraws' p hp items hitems
  obtain rfl := Obj.dict.inj (hdoc.symm.trans hdoc')
  obtain rfl := Obj.dict.inj (hraws.symm.trans hraws')
  obtain ⟨t, hload⟩ := loadItems_mem hloaded p hp.mem
  have ht : targets.get t.targetIdentifier = some t :=
    (loadTargetItems_get hloaded _ t).mpr ⟨rfl, p, hp, hload⟩
  obtain ⟨items', rawButtons, hitems', -, -, hrawButtons, hbuttons, hcategory, hname⟩ :=
    loadTarget_eq_ok.mp hload
  obtain rfl := Obj.dict.inj (hitems.symm.trans hitems')
  refine ⟨hname ▸ husable.targetName _ t ht, fun n hn ↦ ?_,
    fun raws' hraws' q hq bitems hbitems ↦ ?_⟩
  · exact husable.targetCategory _ t ht n (Except.ok.inj (hcategory.symm.trans hn))
  · obtain rfl := Obj.dict.inj (hrawButtons.symm.trans hraws')
    obtain ⟨b, hb⟩ := loadItems_mem hbuttons q hq.mem
    have hget : t.buttons.get b.buttonId = some b :=
      (loadButtons_get hbuttons _ b).mpr ⟨rfl, q, hq, hb⟩
    obtain ⟨bitems', -, hbitems', -, -, -, -, hbname⟩ := loadButton_eq_ok.mp hb
    obtain rfl := Obj.dict.inj (hbitems.symm.trans hbitems')
    obtain ⟨text, htext⟩ := husable.value
    rw [← hbname]
    rcases (husable.buttons _ t ht _ b hget).2.2.2 with hnone | ⟨s, hs⟩
    · rw [hnone]
      trivial
    · rw [hs]
      exact scalar_of_targetListValue htext ht hget hs

/-- The empty state is usable. -/
theorem usable_empty (quarantined : Bool) : Usable ⟨.empty, 0, quarantined⟩ where
  size := Nat.zero_le _
  targetIdentifier := nofun
  targetName := nofun
  targetCategory := nofun
  buttons := nofun
  activeIdentifier := .inl rfl
  value := ⟨_, rfl⟩
  quarantined _ := ⟨rfl, rfl⟩

/-- **What is loaded is usable exactly when the fields that the loader takes as they are are in
order** in every entry that counts, or a field that it checks is not. -/
theorem usable_iff (json : JsonText) (file : Option json.Text) :
    Usable (loadTargets json file) ↔
      ∀ text doc, file = some text → json.loads text = .ok doc → Checked doc → FieldsOk doc := by
  cases file with
  | none => exact ⟨(fun _ _ _ htext ↦ nomatch htext), fun _ ↦ usable_empty false⟩
  | some text =>
      cases hdoc : json.loads text with
      | error e =>
          have hload : loadTargets json (some text) = ⟨.empty, 0, true⟩ := by
            simp only [loadTargets, hdoc, bind_error]
          rw [hload]
          refine ⟨fun _ text' doc htext hok ↦ ?_, fun _ ↦ usable_empty true⟩
          cases htext
          rw [hdoc] at hok
          cases hok
      | ok doc =>
          cases hpayload : loadPayload doc with
          | error e =>
              have hload : loadTargets json (some text) = ⟨.empty, 0, true⟩ := by
                simp only [loadTargets, hdoc, bind_ok, hpayload]
              rw [hload]
              refine ⟨fun _ text' doc' htext hok hchecked ↦ ?_, fun _ ↦ usable_empty true⟩
              cases htext
              obtain rfl := Except.ok.inj (hdoc.symm.trans hok)
              obtain ⟨r, hr⟩ := loadPayload_isOk_iff.mpr hchecked
              rw [hpayload] at hr
              cases hr
          | ok r =>
              obtain ⟨targets, active⟩ := r
              have hload : loadTargets json (some text) = ⟨targets, active, false⟩ := by
                simp only [loadTargets, hdoc, bind_ok, hpayload]
              rw [hload]
              constructor
              · rintro husable text' doc' htext hok -
                cases htext
                obtain rfl := Except.ok.inj (hdoc.symm.trans hok)
                exact fieldsOk_of_usable hpayload husable
              · intro h
                have hchecked := loadPayload_isOk_iff.mp ⟨_, hpayload⟩
                exact usable_of_fieldsOk hpayload (h text doc rfl hdoc hchecked)

/-- A document whose only target has a category that is no `uint16`. -/
def wideCategory : Obj :=
  .dict [(.text "targets", .dict [(.text "1", .dict [(.text "target_identifier", .int 1),
    (.text "target_category", .int 70000)])])]

/-- A category that is too wide is loaded, and then `target_list_value` raises. -/
theorem not_usable_wideCategory :
    (∃ targets active, loadTargets .documents (some wideCategory) = ⟨targets, active, false⟩ ∧
      targetListValue targets = .error (.overflowError "int too big to convert")) ∧
    ¬ Usable (loadTargets .documents (some wideCategory)) := by
  refine ⟨⟨_, _, rfl, rfl⟩, fun husable ↦ ?_⟩
  obtain ⟨text, htext⟩ := husable.value
  cases htext

end AtvRemote.Remote
