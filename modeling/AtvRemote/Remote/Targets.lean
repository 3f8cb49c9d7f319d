import AtvRemote.Constants
import AtvRemote.Lib.Base64
import AtvRemote.Tlv8
import Mathlib.Data.List.Sort

/-!
# Targets

The configuration of an Apple TV as `remote` keeps it, the TLV text that a controller
writes (`_parse_target`), and the one that it reads back (`target_list_value`).

The fields are as wide as the source's: an integer is any integer, and a name is any
object, since `_load_targets` takes names from its file unchecked.  What
`hap_target_list_write` keeps of them is `TargetConfiguration.WellFormed`; it holds of
every configuration that `_parse_target` returns, and makes `target_list_value` return.
-/

namespace AtvRemote.Remote

open Lib

/-- `_MAX_TARGETS` -/
def maxTargets : Nat := 10

/-- `_MAX_TARGET_NAME_BYTES` -/
def maxTargetNameBytes : Nat := 255

/-- `ButtonConfiguration` -/
structure ButtonConfiguration where
  /-- `button_id` -/
  buttonId : Int
  /-- `button_type` -/
  buttonType : Int
  /-- `button_name` -/
  buttonName : Obj
deriving Repr

/-- `TargetConfiguration` -/
structure TargetConfiguration where
  /-- `target_identifier` -/
  targetIdentifier : Int
  /-- `target_name` -/
  targetName : Obj
  /-- `target_category` -/
  targetCategory : Option Int
  /-- `buttons` -/
  buttons : Dict Int ButtonConfiguration

/-- The same target, with its buttons in any order. -/
structure TargetConfiguration.Same (t t' : TargetConfiguration) : Prop where
  targetIdentifier : t'.targetIdentifier = t.targetIdentifier
  targetName : t'.targetName = t.targetName
  targetCategory : t'.targetCategory = t.targetCategory
  buttons : t'.buttons.Equiv t.buttons

theorem TargetConfiguration.Same.refl (t : TargetConfiguration) : t.Same t :=
  ⟨rfl, rfl, rfl, .refl _⟩

/-! ## Well-formedness -/

/-- A name is absent, or a string that has a UTF-8 encoding. -/
def NameOk : Obj → Prop
  | .none => True
  | .str s => s.Scalar
  | _ => False

/-- A target's name is not empty, and its encoding not too long. -/
def TargetNameOk : Obj → Prop
  | .none => True
  | .str s => s.Scalar ∧ s ≠ [] ∧ ∃ b, s.encodeUtf8 = some b ∧ b.length ≤ maxTargetNameBytes
  | _ => False

/-- `uint8` identifier, `uint16` type. -/
structure ButtonConfiguration.WellFormed (b : ButtonConfiguration) : Prop where
  buttonId : 0 ≤ b.buttonId ∧ b.buttonId ≤ 0xFF
  buttonType : 0 ≤ b.buttonType ∧ b.buttonType < 2 ^ 16
  buttonName : NameOk b.buttonName

/-- A nonzero `uint32` identifier, a `uint16` category, and buttons under their own
identifiers. -/
structure TargetConfiguration.WellFormed (t : TargetConfiguration) : Prop where
  targetIdentifier : 1 ≤ t.targetIdentifier ∧ t.targetIdentifier ≤ 0xFFFFFFFF
  targetName : TargetNameOk t.targetName
  targetCategory : ∀ n, t.targetCategory = some n → 0 ≤ n ∧ n < 2 ^ 16
  buttons : ∀ k b, t.buttons.get k = some b → b.buttonId = k ∧ b.WellFormed

theorem TargetNameOk.nameOk {name : Obj} (h : TargetNameOk name) : NameOk name := by
  cases name with
  | none => trivial
  | str => exact h.1
  | _ => exact h.elim

/-! ## Reading what a controller writes -/

/-- `_decode_b64` -/
def decodeB64 (value : PyStr) (label : String) : Except PyErr Bytes :=
  match (value.mapM CodePoint.char?).bind Base64.decode with
  | some b => .ok b
  | none => .error (.valueError s!"{label} is not valid base64")

/-- `_required` -/
def required (mapping : Dict UInt8 Bytes) (tag : UInt8) (label : String) : Except PyErr Bytes :=
  match mapping.get tag with
  | none => .error (.valueError s!"missing {label}")
  | some [] => .error (.valueError s!"empty {label}")
  | some value => .ok value

/-- `_one_byte` -/
def oneByte (mapping : Dict UInt8 Bytes) (tag : UInt8) (label : String) : Except PyErr UInt8 := do
  match ← required mapping tag label with
  | [byte] => return byte
  | _ => throw (.valueError s!"{label} must be one byte")

/-- A name that is written as UTF-8. -/
def decodeName (raw : Bytes) (label : String) : Except PyErr PyStr :=
  match PyStr.decodeUtf8 raw with
  | some name => .ok name
  | none => .error (.valueError s!"{label} name is not valid UTF-8")

/-- The name of `_parse_target`. -/
def parseTargetName (data : Dict UInt8 Bytes) : Except PyErr Obj :=
  match data.get targetNameTag with
  | none => .ok .none
  | some raw => do
      let name ← decodeName raw "target"
      -- the string came from UTF-8, so that encoding it again gives `raw`
      if name.isEmpty || maxTargetNameBytes < (name.encodeUtf8.getD []).length then
        throw (.valueError "target name is empty or too long")
      else return .str name

/-- The category of `_parse_target`. -/
def parseTargetCategory (data : Dict UInt8 Bytes) : Except PyErr (Option Int) :=
  match data.get targetCategoryTag with
  | none => .ok none
  | some raw => do return some (← Tlv8.readU16 raw)

/-- The button name of `_parse_target`. -/
def parseButtonName (entry : Dict UInt8 Bytes) : Except PyErr Obj :=
  match entry.get buttonConfigurationNameTag with
  | none => .ok .none
  | some raw => do return .str (← decodeName raw "button")

/-- One button of `_parse_target`. -/
def parseButton (entry : Dict UInt8 Bytes) : Except PyErr ButtonConfiguration := do
  match ← required entry buttonConfigurationIdTag "button id" with
  | [buttonId] =>
      let buttonType ← Tlv8.readU16 (← required entry buttonConfigurationTypeTag "button type")
      let buttonName ← parseButtonName entry
      return ⟨buttonId.toNat, buttonType, buttonName⟩
  | _ => throw (.valueError "button id must be one byte")

/-- The loop over the buttons of `_parse_target`. -/
def parseButtons (buttons : Dict Int ButtonConfiguration) :
    List (Dict UInt8 Bytes) → Except PyErr (Dict Int ButtonConfiguration)
  | [] => .ok buttons
  | entry :: rest => do
      let button ← parseButton entry
      parseButtons (buttons.set button.buttonId button) rest

/-- The items that `_parse_target` reads its buttons from. -/
def buttonEntries (data : Dict UInt8 Bytes) : Except PyErr (List (Dict UInt8 Bytes)) :=
  match data.get targetButtonConfigurationTag with
  | none => .ok []
  | some raw => Tlv8.decodeList raw buttonConfigurationIdTag

/-- `_parse_target` -/
def parseTarget : Option Bytes → Except PyErr (Option TargetConfiguration)
  | none => .ok none
  | some raw => do
      let data ← Tlv8.decode raw
      let identifier ← Tlv8.readU32 (← required data targetIdentifierTag "target identifier")
      if identifier = 0 then throw (.valueError "target identifier 0 is reserved")
      else
        let name ← parseTargetName data
        let category ← parseTargetCategory data
        let buttons ← parseButtons .empty (← buttonEntries data)
        return some ⟨identifier, name, category, buttons⟩

theorem decodeName_ok {raw : Bytes} {label : String} {name : PyStr}
    (h : decodeName raw label = .ok name) : PyStr.decodeUtf8 raw = some name := by
  unfold decodeName at h
  split at h
  · next hname =>
    cases h
    exact hname
  · cases h

theorem parseTargetName_ok {data : Dict UInt8 Bytes} {name : Obj}
    (h : parseTargetName data = .ok name) : TargetNameOk name := by
  unfold parseTargetName at h
  split at h
  · cases h
    trivial
  · next raw _ =>
    obtain ⟨s, hs, h⟩ := bind_eq_ok.mp h
    have hdecode := decodeName_ok hs
    have hencode := PyStr.encodeUtf8_of_decodeUtf8 hdecode
    split at h
    · cases h
    · next hok =>
      cases h
      simp only [hencode, Option.getD_some, Bool.or_eq_true, List.isEmpty_iff, decide_eq_true_eq,
        not_or, Nat.not_lt] at hok
      exact ⟨PyStr.scalar_of_decodeUtf8 hdecode, hok.1, raw, hencode, hok.2⟩

theorem parseButtonName_ok {entry : Dict UInt8 Bytes} {name : Obj}
    (h : parseButtonName entry = .ok name) : NameOk name := by
  unfold parseButtonName at h
  split at h
  · cases h
    trivial
  · obtain ⟨s, hs, h⟩ := bind_eq_ok.mp h
    cases h
    exact PyStr.scalar_of_decodeUtf8 (decodeName_ok hs)

theorem parseTargetCategory_ok {data : Dict UInt8 Bytes} {category : Option Int}
    (h : parseTargetCategory data = .ok category) {n : Int} (hn : category = some n) :
    0 ≤ n ∧ n < 2 ^ 16 := by
  unfold parseTargetCategory at h
  split at h
  · cases h
    cases hn
  · obtain ⟨m, hm, h⟩ := bind_eq_ok.mp h
    cases h
    cases hn
    exact Tlv8.readU16_range hm

/-- A button that is written is well formed. -/
theorem parseButton_ok {entry : Dict UInt8 Bytes} {button : ButtonConfiguration}
    (h : parseButton entry = .ok button) : button.WellFormed := by
  obtain ⟨idRaw, -, h⟩ := bind_eq_ok.mp h
  split at h
  · next _ buttonId =>
    obtain ⟨typeRaw, -, h⟩ := bind_eq_ok.mp h
    obtain ⟨buttonType, htype, h⟩ := bind_eq_ok.mp h
    obtain ⟨buttonName, hname, h⟩ := bind_eq_ok.mp h
    cases h
    refine ⟨?_, Tlv8.readU16_range htype, parseButtonName_ok hname⟩
    have := buttonId.toNat_lt
    simp only
    omega
  · cases h

theorem parseButtons_ok {entries : List (Dict UInt8 Bytes)}
    {buttons result : Dict Int ButtonConfiguration}
    (hbuttons : ∀ k b, buttons.get k = some b → b.buttonId = k ∧ b.WellFormed)
    (h : parseButtons buttons entries = .ok result) :
    ∀ k b, result.get k = some b → b.buttonId = k ∧ b.WellFormed := by
  induction entries generalizing buttons with
  | nil =>
      cases h
      exact hbuttons
  | cons entry rest ih =>
      obtain ⟨button, hbutton, h⟩ := bind_eq_ok.mp h
      refine ih (fun k b hb ↦ ?_) h
      rw [Dict.get_set] at hb
      split at hb
      · next hk =>
        cases hb
        exact ⟨hk.symm, parseButton_ok hbutton⟩
      · exact hbuttons k b hb

/-- **A target that is written is well formed.** -/
theorem parseTarget_ok {raw : Option Bytes} {t : TargetConfiguration}
    (h : parseTarget raw = .ok (some t)) : t.WellFormed := by
  cases raw with
  | none => cases h
  | some raw =>
      obtain ⟨data, -, h⟩ := bind_eq_ok.mp h
      obtain ⟨identifierRaw, -, h⟩ := bind_eq_ok.mp h
      obtain ⟨identifier, hidentifier, h⟩ := bind_eq_ok.mp h
      split at h
      · cases h
      · next hnonzero =>
        obtain ⟨name, hname, h⟩ := bind_eq_ok.mp h
        obtain ⟨category, hcategory, h⟩ := bind_eq_ok.mp h
        obtain ⟨entries, -, h⟩ := bind_eq_ok.mp h
        obtain ⟨buttons, hbuttons, h⟩ := bind_eq_ok.mp h
        cases h
        have hrange := Tlv8.readU32_range hidentifier
        refine ⟨?_, parseTargetName_ok hname, fun n hn ↦ parseTargetCategory_ok hcategory hn,
          parseButtons_ok (fun k b hb ↦ ?_) hbuttons⟩
        · simp only
          omega
        · rw [Dict.get_empty] at hb
          cases hb

/-! ## Writing what a controller reads -/

/-- `sorted(buttons.values(), key=button_id)` -/
def sortedButtons (buttons : Dict Int ButtonConfiguration) : List ButtonConfiguration :=
  buttons.values.insertionSort fun a b ↦ a.buttonId ≤ b.buttonId

/-- `sorted(targets.values(), key=target_identifier)` -/
def sortedTargets (targets : Dict Int TargetConfiguration) : List TargetConfiguration :=
  targets.values.insertionSort fun a b ↦ a.targetIdentifier ≤ b.targetIdentifier

/-- One button of `target_list_value`. -/
def buttonValue (b : ButtonConfiguration) : Except PyErr Bytes := do
  let buttonType ← Tlv8.u16 b.buttonType
  let one ← Tlv8.encode [(buttonConfigurationIdTag, .int b.buttonId),
    (buttonConfigurationTypeTag, .bytes .bytes buttonType)]
  let name ← if b.buttonName.truthy then Tlv8.encode [(buttonConfigurationNameTag, b.buttonName)]
    else pure []
  return one ++ name

/-- The buttons of a target in `target_list_value`. -/
def buttonsValue (buttons : Dict Int ButtonConfiguration) : Except PyErr Bytes :=
  if buttons.items.isEmpty then .ok []
  else do
    let parts ← (sortedButtons buttons).mapM buttonValue
    Tlv8.encode [(targetButtonConfigurationTag, .bytes .bytes parts.flatten)]

/-- The name of a target in `target_list_value`. -/
def nameValue : Obj → Except PyErr Bytes
  | .none => .ok []
  | name => Tlv8.encode [(targetNameTag, name)]

/-- The category of a target in `target_list_value`. -/
def categoryValue : Option Int → Except PyErr Bytes
  | none => .ok []
  | some category => do
      Tlv8.encode [(targetCategoryTag, .bytes .bytes (← Tlv8.u16 category))]

/-- One target of `target_list_value`. -/
def targetValue (t : TargetConfiguration) : Except PyErr Bytes := do
  let identifier ← Tlv8.u32 t.targetIdentifier
  let part ← Tlv8.encode [(targetIdentifierTag, .bytes .bytes identifier)]
  let name ← nameValue t.targetName
  let category ← categoryValue t.targetCategory
  let buttons ← buttonsValue t.buttons
  Tlv8.encode [(tcListTargetConfiguration, .bytes .bytes (part ++ name ++ category ++ buttons))]

/-- `target_list_value` -/
def targetListValue (targets : Dict Int TargetConfiguration) : Except PyErr PyStr := do
  let parts ← (sortedTargets targets).mapM targetValue
  return (Base64.encode parts.flatten).map .char

/-- A loop whose steps all return returns. -/
theorem mapM_isOk {α β : Type} (f : α → Except PyErr β) (xs : List α)
    (h : ∀ x ∈ xs, ∃ y, f x = .ok y) : ∃ ys, xs.mapM f = .ok ys := by
  induction xs with
  | nil => exact ⟨[], rfl⟩
  | cons x xs ih =>
      obtain ⟨y, hy⟩ := h x (List.mem_cons_self ..)
      obtain ⟨ys, hys⟩ := ih fun x' hx' ↦ h x' (List.mem_cons_of_mem _ hx')
      exact ⟨y :: ys, by rw [List.mapM_cons, hy, hys]; rfl⟩

theorem encode_bytes_isOk (tag : UInt8) (b : Bytes) :
    ∃ bytes, Tlv8.encode [(tag, .bytes .bytes b)] = .ok bytes := by
  refine Tlv8.encode_isOk fun e he ↦ ?_
  rw [List.mem_singleton.mp he]
  exact Tlv8.encodeEntry_bytes tag b

theorem encode_name_isOk (tag : UInt8) {name : Obj} (h : NameOk name) (hne : name ≠ .none) :
    ∃ b, Tlv8.encode [(tag, name)] = .ok b := by
  refine Tlv8.encode_isOk fun e he ↦ ?_
  rw [List.mem_singleton.mp he]
  cases name with
  | none => exact (hne rfl).elim
  | str s => exact Tlv8.encodeEntry_str tag h
  | _ => exact h.elim

theorem buttonValue_isOk {b : ButtonConfiguration} (h : b.WellFormed) :
    ∃ bytes, buttonValue b = .ok bytes := by
  obtain ⟨one, hone⟩ : ∃ bytes, Tlv8.encode [(buttonConfigurationIdTag, .int b.buttonId),
      (buttonConfigurationTypeTag, .bytes .bytes (toLE 2 b.buttonType.toNat))] = .ok bytes := by
    refine Tlv8.encode_isOk fun e he ↦ ?_
    rcases List.mem_cons.mp he with rfl | he
    · exact Tlv8.encodeEntry_int _ h.buttonId
    · rw [List.mem_singleton.mp he]
      exact Tlv8.encodeEntry_bytes _ _
  unfold buttonValue
  simp only [Tlv8.u16_ok h.buttonType, bind_ok, hone]
  split
  · next htruthy =>
    have hne : b.buttonName ≠ .none := by
      intro hnone
      rw [hnone] at htruthy
      cases htruthy
    obtain ⟨name, hname⟩ := encode_name_isOk buttonConfigurationNameTag h.buttonName hne
    exact ⟨one ++ name, by rw [hname]; rfl⟩
  · exact ⟨one ++ [], rfl⟩

theorem buttonsValue_isOk {buttons : Dict Int ButtonConfiguration}
    (h : ∀ k b, buttons.get k = some b → b.buttonId = k ∧ b.WellFormed) :
    ∃ bytes, buttonsValue buttons = .ok bytes := by
  unfold buttonsValue
  split
  · exact ⟨[], rfl⟩
  · obtain ⟨parts, hparts⟩ := mapM_isOk buttonValue (sortedButtons buttons)
      fun b hb ↦ by
        obtain ⟨⟨k, b'⟩, hmem, rfl⟩ := List.mem_map.mp (List.mem_insertionSort _ |>.mp hb)
        exact buttonValue_isOk (h k b' (Dict.get_eq_some_iff.mpr hmem)).2
    rw [hparts]
    exact encode_bytes_isOk _ _

theorem nameValue_isOk {name : Obj} (h : NameOk name) : ∃ bytes, nameValue name = .ok bytes := by
  cases name with
  | none => exact ⟨[], rfl⟩
  | str s => exact encode_name_isOk targetNameTag h nofun
  | _ => exact h.elim

theorem categoryValue_isOk {category : Option Int}
    (h : ∀ n, category = some n → 0 ≤ n ∧ n < 2 ^ 16) :
    ∃ bytes, categoryValue category = .ok bytes := by
  cases category with
  | none => exact ⟨[], rfl⟩
  | some n =>
      simp only [categoryValue, Tlv8.u16_ok (h n rfl), bind_ok]
      exact encode_bytes_isOk _ _

/-- A well-formed target can be written. -/
theorem targetValue_isOk {t : TargetConfiguration} (h : t.WellFormed) :
    ∃ bytes, targetValue t = .ok bytes := by
  have hidentifier : 0 ≤ t.targetIdentifier ∧ t.targetIdentifier < 2 ^ 32 := by
    have := h.targetIdentifier
    omega
  obtain ⟨part, hpart⟩ := encode_bytes_isOk targetIdentifierTag (toLE 4 t.targetIdentifier.toNat)
  obtain ⟨name, hname⟩ := nameValue_isOk h.targetName.nameOk
  obtain ⟨category, hcategory⟩ := categoryValue_isOk h.targetCategory
  obtain ⟨buttons, hbuttons⟩ := buttonsValue_isOk h.buttons
  obtain ⟨bytes, hall⟩ := encode_bytes_isOk tcListTargetConfiguration
    (part ++ name ++ category ++ buttons)
  refine ⟨bytes, ?_⟩
  simp only [targetValue, Tlv8.u32_ok hidentifier, bind_ok, hpart, hname, hcategory, hbuttons, hall]

/-- **The target list of well-formed targets can be read.** -/
theorem targetListValue_isOk {targets : Dict Int TargetConfiguration}
    (h : ∀ k t, targets.get k = some t → t.WellFormed) :
    ∃ text, targetListValue targets = .ok text := by
  obtain ⟨parts, hparts⟩ := mapM_isOk targetValue (sortedTargets targets)
    fun t ht ↦ by
      obtain ⟨⟨k, t'⟩, hmem, rfl⟩ := List.mem_map.mp (List.mem_insertionSort _ |>.mp ht)
      exact targetValue_isOk (h k t' (Dict.get_eq_some_iff.mpr hmem))
  exact ⟨_, by rw [targetListValue, hparts]; rfl⟩

end AtvRemote.Remote
