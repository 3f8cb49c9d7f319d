import AtvRemote.Remote.Targets
import Mathlib.Data.List.Lex

/-!
# The target file

What `_save_targets` writes and `_load_targets` reads, as trees of objects.  Between a
tree and the text in the file stands `json`, which is a parameter (`JsonText`); what is
known of it is that it gives back a tree of strings, integers, nulls and objects
(`JsonText.RoundTrips`).
-/

namespace AtvRemote

open Lib

/-- Trees of strings, integers, nulls and objects.  The strings have no surrogates, which
JSON would join to pairs, and the integers are of a length that Python writes out. -/
inductive Obj.Plain : Obj → Prop where
  | none : Plain .none
  | int (n : Int) (h : n.natAbs < 2 ^ 64) : Plain (.int n)
  | str (s : PyStr) (h : s.Scalar) : Plain (.str s)
  | dict (items : List (Obj × Obj)) (hkeys : (items.map Prod.fst).Nodup)
      (hstr : ∀ p ∈ items, ∃ s : PyStr, p.1 = .str s ∧ s.Scalar) (hitems : ∀ p ∈ items, Plain p.2) :
      Plain (.dict items)

/-- In a dictionary of pairwise distinct strings an item is found under its key. -/
theorem Obj.lookup_eq_some_iff {items : List (Obj × Obj)}
    (hkeys : (items.map Prod.fst).Nodup) (hstr : ∀ p ∈ items, ∃ s, p.1 = .str s) {s : PyStr}
    {v : Obj} : Obj.lookup items (.str s) = some v ↔ (.str s, v) ∈ items := by
  induction items with
  | nil => exact ⟨nofun, nofun⟩
  | cons p items ih =>
      obtain ⟨k, w⟩ := p
      obtain ⟨t, rfl⟩ := hstr _ (List.mem_cons_self ..)
      rw [List.map_cons, List.nodup_cons] at hkeys
      have ih := ih hkeys.2 fun p hp ↦ hstr p (List.mem_cons_of_mem _ hp)
      rw [Obj.lookup_cons, Obj.pyEq_str, List.mem_cons]
      by_cases hts : t = s
      · subst hts
        have hnot : ((.str t, v) : Obj × Obj) ∉ items :=
          fun hmem ↦ hkeys.1 (List.mem_map.mpr ⟨_, hmem, rfl⟩)
        simp [hnot, eq_comm]
      · simp [hts, Ne.symm hts, ih]

/-- The order of the items of a dictionary does not matter. -/
theorem Obj.lookup_of_perm {items items' : List (Obj × Obj)} (hperm : items.Perm items')
    (hkeys : (items.map Prod.fst).Nodup) (hstr : ∀ p ∈ items, ∃ s, p.1 = .str s) (s : PyStr) :
    Obj.lookup items' (.str s) = Obj.lookup items (.str s) := by
  apply Option.ext
  intro v
  rw [Obj.lookup_eq_some_iff hkeys hstr, Obj.lookup_eq_some_iff
    ((hperm.map Prod.fst).nodup_iff.mp hkeys) fun p hp ↦ hstr p (hperm.mem_iff.mpr hp)]
  exact hperm.mem_iff.symm

namespace Remote

/-! ## JSON text -/

/-- Strings are ordered by code point. -/
def keyLe : Obj → Obj → Bool
  | .str s, .str t => decide (s.map CodePoint.toNat ≤ t.map CodePoint.toNat)
  | _, _ => true

mutual

/-- What `sort_keys=True` makes of a tree. -/
def sortKeys : Obj → Obj
  | .dict items => .dict ((sortItems items).insertionSort fun p q ↦ keyLe p.1 q.1)
  | .seq k xs => .seq k (sortElements xs)
  | x => x

/-- `sortKeys` under the keys of a dictionary. -/
def sortItems : List (Obj × Obj) → List (Obj × Obj)
  | [] => []
  | (k, v) :: items => (k, sortKeys v) :: sortItems items

/-- `sortKeys` on the elements of a list. -/
def sortElements : List Obj → List Obj
  | [] => []
  | x :: xs => sortKeys x :: sortElements xs

end

/-- `json.dump` and `json.loads`. -/
structure JsonText where
  /-- The content of a file. -/
  Text : Type
  /-- The text of a tree. -/
  dumps : Obj → Text
  /-- The tree of a text. -/
  loads : Text → Except PyErr Obj

/-- JSON text gives back strings, integers, nulls and objects. -/
def JsonText.RoundTrips (json : JsonText) : Prop :=
  ∀ v, v.Plain → json.loads (json.dumps v) = .ok v

/-- The documents themselves as their text. -/
def JsonText.documents : JsonText := ⟨Obj, id, .ok⟩

theorem JsonText.documents_roundTrips : JsonText.documents.RoundTrips := fun _ _ ↦ rfl

/-! ## Saving -/

/-- `asdict(button)` -/
def buttonToDict (b : ButtonConfiguration) : Obj :=
  .dict [(.text "button_id", .int b.buttonId), (.text "button_type", .int b.buttonType),
    (.text "button_name", b.buttonName)]

/-- `{str(k): f(v) for k, v in sorted(d.items())}` -/
def entries {α : Type} (f : α → Obj) (d : Dict Int α) : List (Obj × Obj) :=
  (d.items.insertionSort fun p q ↦ p.1 ≤ q.1).map fun p ↦ (.str (strOfInt p.1), f p.2)

/-- `_target_to_dict` -/
def targetToDict (t : TargetConfiguration) : Obj :=
  .dict [(.text "target_identifier", .int t.targetIdentifier),
    (.text "target_name", t.targetName),
    (.text "target_category", (t.targetCategory.map Obj.int).getD .none),
    (.text "buttons", .dict (entries buttonToDict t.buttons))]

/-- The payload of `_save_targets`. -/
def targetsPayload (targets : Dict Int TargetConfiguration) (activeIdentifier : Int) : Obj :=
  .dict [(.text "version", .int 1), (.text "active_identifier", .int activeIdentifier),
    (.text "targets", .dict (entries targetToDict targets))]

/-- The text that `_save_targets` writes. -/
def targetsText (json : JsonText) (targets : Dict Int TargetConfiguration)
    (activeIdentifier : Int) : json.Text :=
  json.dumps (sortKeys (targetsPayload targets activeIdentifier))

/-! ## Loading -/

/-- `raw.get(key, default)` -/
def getD (items : List (Obj × Obj)) (key : String) (dflt : Obj) : Obj :=
  (Obj.lookup items (.text key)).getD dflt

/-- One button of `_load_targets`. -/
def loadButton (key button : Obj) : Except PyErr ButtonConfiguration :=
  match button with
  | .dict items => do
      let buttonId ← (getD items "button_id" key).toInt
      let buttonType ← match Obj.lookup items (.text "button_type") with
        | some raw => raw.toInt
        | none => .error (.keyError "button_type")
      if 0 ≤ buttonId ∧ buttonId ≤ 255 ∧ 0 ≤ buttonType ∧ buttonType ≤ 0xFFFF then
        .ok ⟨buttonId, buttonType, getD items "button_name" .none⟩
      else .error (.valueError "persisted button is out of range")
  | _ => .error (.valueError "persisted button entry must be an object")

/-- A loop of `_load_targets`: each entry is loaded and stored under its own identifier. -/
def loadItems {α : Type} (load : Obj → Obj → Except PyErr α) (identifier : α → Int)
    (loaded : Dict Int α) : List (Obj × Obj) → Except PyErr (Dict Int α)
  | [] => .ok loaded
  | (key, raw) :: rest => do
      let x ← load key raw
      loadItems load identifier (loaded.set (identifier x) x) rest

/-- The loop over the buttons of `_load_targets`. -/
def loadButtons : List (Obj × Obj) → Except PyErr (Dict Int ButtonConfiguration) :=
  loadItems loadButton ButtonConfiguration.buttonId .empty

/-- The category of a target of `_load_targets`. -/
def loadCategory (items : List (Obj × Obj)) : Except PyErr (Option Int) :=
  match getD items "target_category" .none with
  | .none => .ok none
  | raw => raw.toInt.map some

/-- One target of `_load_targets`. -/
def loadTarget (key raw : Obj) : Except PyErr TargetConfiguration :=
  match raw with
  | .dict items => do
      let identifier ← (getD items "target_identifier" key).toInt
      if 1 ≤ identifier ∧ identifier ≤ 0xFFFFFFFF then
        match getD items "buttons" (.dict []) with
        | .dict rawButtons => do
            let buttons ← loadButtons rawButtons
            let category ← loadCategory items
            .ok ⟨identifier, getD items "target_name" .none, category, buttons⟩
        | _ => .error (.valueError "persisted button mapping must be an object")
      else .error (.valueError "persisted target identifier is out of range")
  | _ => .error (.valueError "target entry must be an object")

/-- The loop over the targets of `_load_targets`. -/
def loadTargetItems : List (Obj × Obj) → Except PyErr (Dict Int TargetConfiguration) :=
  loadItems loadTarget TargetConfiguration.targetIdentifier .empty

/-- `next(iter(sorted(targets)), 0)` -/
def firstIdentifier (targets : Dict Int TargetConfiguration) : Int :=
  (targets.keys.insertionSort (· ≤ ·)).head?.getD 0

/-- `next(iter(sorted(targets)), 0)` is a target, or there is none. -/
theorem firstIdentifier_cases (targets : Dict Int TargetConfiguration) :
    firstIdentifier targets = 0 ∨ targets.contains (firstIdentifier targets) = true := by
  unfold firstIdentifier
  cases hhead : (targets.keys.insertionSort (· ≤ ·)).head? with
  | none => exact .inl rfl
  | some k =>
      refine .inr (Dict.contains_iff.mpr ?_)
      exact (List.mem_insertionSort _).mp (List.mem_of_head? hhead)

/-- The body of the `try` block of `_load_targets`. -/
def loadPayload (payload : Obj) : Except PyErr (Dict Int TargetConfiguration × Int) :=
  match payload with
  | .dict root => match getD root "targets" (.dict []) with
      | .dict rawTargets =>
          if maxTargets < rawTargets.length then .error (.valueError "invalid target state")
          else do
            let loaded ← loadTargetItems rawTargets
            let active ← (getD root "active_identifier" (.int 0)).toInt
            if active ≠ 0 ∧ loaded.contains active = false then .ok (loaded, firstIdentifier loaded)
            else .ok (loaded, active)
      | _ => .error (.valueError "invalid target state")
  | _ => .error (.valueError "target state root must be an object")

/-- What `_load_targets` leaves. -/
structure Loaded where
  /-- `targets` -/
  targets : Dict Int TargetConfiguration
  /-- `active_identifier` -/
  activeIdentifier : Int
  /-- The file was found invalid and moved out of the way. -/
  quarantined : Bool

/-- `_load_targets` -/
def loadTargets (json : JsonText) : Option json.Text → Loaded
  | none => ⟨.empty, 0, false⟩
  | some text => match json.loads text >>= loadPayload with
      | .ok (targets, active) => ⟨targets, active, false⟩
      | .error _ => ⟨.empty, 0, true⟩

end Remote

end AtvRemote
