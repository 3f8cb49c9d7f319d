import AtvRemote.Remote.AllOrNothing
import AtvRemote.Remote.TargetList
import AtvRemote.Tlv8.RoundTrip

/-!
# Writing back a target that was read

A target is three levels of TLV8: the target, the list of its buttons and the button.  No two
entries of one level have one type, and a button begins with an identifier of one byte, so
each level is read as it was written, however long it is, and `_parse_target` gives back the
configuration that `target_list_value` wrote.  A controller that adds an entry which it read
leaves everything as it is, unless no target was selected: then the `ADD` selects this one
(`parseTarget_targetBody`).
-/

namespace AtvRemote.Remote

open Lib

/-- The name of a button is absent, or a string that is not empty. -/
def ButtonNameOk : Obj → Prop
  | .none => True
  | .str s => s ≠ []
  | _ => False

/-- The buttons that can be written back: a `uint8` identifier, a `uint16` type, and a name that
is absent or a string that is not empty. -/
structure ButtonConfiguration.Writable (b : ButtonConfiguration) : Prop where
  buttonId : 0 ≤ b.buttonId ∧ b.buttonId ≤ 0xFF
  buttonType : 0 ≤ b.buttonType ∧ b.buttonType < 2 ^ 16
  buttonName : ButtonNameOk b.buttonName

/-- The configurations that can be written back: a nonzero `uint32` identifier, a name of at
most 255 bytes, a `uint16` category, and buttons under their own identifiers. -/
structure TargetConfiguration.Writable (t : TargetConfiguration) : Prop where
  targetIdentifier : 1 ≤ t.targetIdentifier ∧ t.targetIdentifier ≤ 0xFFFFFFFF
  targetName : TargetNameOk t.targetName
  targetCategory : ∀ n, t.targetCategory = some n → 0 ≤ n ∧ n < 2 ^ 16
  buttons : ∀ k b, t.buttons.get k = some b → b.buttonId = k ∧ b.Writable

/-! ## The entries that are written -/

/-- The bytes of several entries. -/
def written (values : List (UInt8 × Bytes)) : Bytes :=
  (Tlv8.entrySegments values).flatMap Tlv8.TLVSegment.toBytes

theorem written_append (xs ys : List (UInt8 × Bytes)) :
    written (xs ++ ys) = written xs ++ written ys := by
  rw [written, Tlv8.entrySegments, List.flatMap_append, List.flatMap_append]
  rfl

theorem encode_eq_written {entries : List (UInt8 × Obj)} {b : Bytes}
    (h : Tlv8.encode entries = .ok b) :
    ∃ values, Tlv8.normalizeEntries entries = .ok values ∧ b = written values := by
  rw [Tlv8.encode_eq] at h
  obtain ⟨values, hvalues, rfl⟩ := map_eq_ok.mp h
  exact ⟨values, hvalues, rfl⟩

theorem encode_bytes {tag : UInt8} {value b : Bytes}
    (h : Tlv8.encode [(tag, .bytes .bytes value)] = .ok b) : b = written [(tag, value)] := by
  obtain ⟨values, hvalues, rfl⟩ := encode_eq_written h
  cases hvalues
  rfl

theorem encode_str {tag : UInt8} {s : PyStr} {b : Bytes} (h : Tlv8.encode [(tag, .str s)] = .ok b) :
    ∃ raw, s.encodeUtf8 = some raw ∧ b = written [(tag, raw)] := by
  rw [encode_one, Tlv8.normalizeValue] at h
  cases hraw : s.encodeUtf8 with
  | none =>
      rw [hraw] at h
      cases h
  | some raw =>
      rw [hraw] at h
      refine ⟨raw, rfl, (Except.ok.inj h).symm.trans ?_⟩
      rw [written, Tlv8.entrySegments, List.flatMap_singleton]

/-- The name that is read of an entry with an optional string. -/
inductive NameEntry (tag : UInt8) : Obj → List (UInt8 × Bytes) → Prop
  | none : NameEntry tag .none []
  | str (s : PyStr) (raw : Bytes) : s.encodeUtf8 = some raw → NameEntry tag (.str s) [(tag, raw)]

theorem decodeName_raw {s : PyStr} {raw : Bytes} (h : s.encodeUtf8 = some raw) (label : String) :
    decodeName raw label = .ok s := by
  rw [decodeName, PyStr.decodeUtf8_of_encodeUtf8 h]

/-! ## Buttons -/

/-- The entries of a button, with those of its name. -/
def buttonItem (b : ButtonConfiguration) (name : List (UInt8 × Bytes)) : List (UInt8 × Bytes) :=
  [(buttonConfigurationIdTag, [UInt8.ofNat b.buttonId.toNat]),
    (buttonConfigurationTypeTag, toLE 2 b.buttonType.toNat)] ++ name

theorem encode_button {b : ButtonConfiguration} {one : Bytes} (h : b.Writable)
    (hone : Tlv8.encode [(buttonConfigurationIdTag, .int b.buttonId),
      (buttonConfigurationTypeTag, .bytes .bytes (toLE 2 b.buttonType.toNat))] = .ok one) :
    one = written (buttonItem b []) := by
  have hvalue : Tlv8.normalizeValue (.int b.buttonId) = .ok [UInt8.ofNat b.buttonId.toNat] :=
    if_pos h.buttonId
  obtain ⟨values, hvalues, rfl⟩ := encode_eq_written hone
  rw [Tlv8.normalizeEntries, List.mapM_cons, hvalue] at hvalues
  cases hvalues
  rfl

theorem buttonValue_eq_written {b : ButtonConfiguration} {bytes : Bytes} (hb : b.Writable)
    (h : buttonValue b = .ok bytes) :
    ∃ name, NameEntry buttonConfigurationNameTag b.buttonName name ∧
      bytes = written (buttonItem b name) := by
  rw [buttonValue, Tlv8.u16_ok hb.buttonType, bind_ok] at h
  obtain ⟨one, hone, h⟩ := bind_eq_ok.mp h
  have hone := encode_button hb hone
  have hname := hb.buttonName
  dsimp only at h
  cases hcase : b.buttonName with
  | none =>
      rw [hcase] at h
      cases h
      exact ⟨[], .none, by rw [List.append_nil, hone]⟩
  | str s =>
      rw [hcase] at h hname
      have htruthy : (Obj.str s).truthy = true := by
        rw [Obj.truthy, Bool.not_eq_true', ← Bool.not_eq_true, List.isEmpty_iff]
        exact hname
      rw [if_pos htruthy] at h
      obtain ⟨name, hencode, h⟩ := bind_eq_ok.mp h
      cases h
      obtain ⟨raw, hraw, rfl⟩ := encode_str hencode
      refine ⟨_, .str s raw hraw, ?_⟩
      rw [hone, ← written_append]
      rfl
  | _ =>
      rw [hcase] at hname
      exact hname.elim

/-- A button is an item of the list. -/
theorem isItem_button {b : ButtonConfiguration} {name : List (UInt8 × Bytes)}
    (h : NameEntry buttonConfigurationNameTag b.buttonName name) :
    Tlv8.IsItem buttonConfigurationIdTag (buttonItem b name) := by
  generalize b.buttonName = x at h
  refine ⟨⟨_, _, rfl⟩, ?_, fun value heq ↦ ?_⟩
  · cases h with
    | none => exact (by decide : ([1, 2] : List UInt8).Nodup)
    | str => exact (by decide : ([1, 2, 3] : List UInt8).Nodup)
  · cases h <;> cases heq

/-- The name that is read of a button. -/
theorem parseButtonName_item {b : ButtonConfiguration} {name : List (UInt8 × Bytes)}
    (h : NameEntry buttonConfigurationNameTag b.buttonName name) :
    parseButtonName (Dict.ofItems (buttonItem b name)) = .ok b.buttonName := by
  rw [parseButtonName, Dict.get_ofItems (isItem_button h).distinct]
  generalize b.buttonName = x at h
  cases h with
  | none => rfl
  | str s raw hraw =>
      show (decodeName raw "button" >>= fun s ↦ pure (Obj.str s)) = .ok (.str s)
      rw [decodeName_raw hraw]
      rfl

/-- What is read of a button is the button. -/
theorem parseButton_item {b : ButtonConfiguration} (hb : b.Writable)
    {name : List (UInt8 × Bytes)} (h : NameEntry buttonConfigurationNameTag b.buttonName name) :
    parseButton (Dict.ofItems (buttonItem b name)) = .ok b := by
  have hget := fun tag ↦ Dict.get_ofItems (isItem_button h).distinct tag
  have hid : ((UInt8.ofNat b.buttonId.toNat).toNat : Int) = b.buttonId := by
    have := hb.buttonId
    rw [UInt8.toNat_ofNat']
    omega
  have htype : Tlv8.readU16 (toLE 2 b.buttonType.toNat) = .ok b.buttonType := by
    have := hb.buttonType
    rw [Tlv8.readU16, if_neg (by simp), ofLE_toLE (by omega), Int.toNat_of_nonneg this.1]
  have hidRaw : required (Dict.ofItems (buttonItem b name)) buttonConfigurationIdTag "button id" =
      .ok [UInt8.ofNat b.buttonId.toNat] := by
    rw [required, hget]
    rfl
  have htypeRaw : required (Dict.ofItems (buttonItem b name)) buttonConfigurationTypeTag
      "button type" = .ok (toLE 2 b.buttonType.toNat) := by
    rw [required, hget]
    rfl
  rw [parseButton, hidRaw, bind_ok]
  simp only [htypeRaw, bind_ok, htype, parseButtonName_item h, pure_eq_ok, hid]

/-! ## The list of buttons -/

/-- The buttons that are read are assigned one after the other. -/
theorem parseButtons_items {bs : List ButtonConfiguration} {items : List (Dict UInt8 Bytes)}
    (h : List.Forall₂ (fun item b ↦ parseButton item = .ok b) items bs)
    (buttons : Dict Int ButtonConfiguration) :
    parseButtons buttons items = .ok (buttons.update (bs.map fun b ↦ (b.buttonId, b))) := by
  induction h generalizing buttons with
  | nil => rfl
  | cons hb _ ih =>
      rw [parseButtons, hb, bind_ok, ih]
      rfl

/-- The bytes of several buttons. -/
theorem buttons_eq_written {bs : List ButtonConfiguration} {parts : List Bytes}
    (hbs : ∀ b ∈ bs, b.Writable) (h : bs.mapM buttonValue = .ok parts) :
    ∃ items : List (List (UInt8 × Bytes)),
      parts.flatten = (items.flatMap Tlv8.entrySegments).flatMap Tlv8.TLVSegment.toBytes ∧
      (∀ item ∈ items, Tlv8.IsItem buttonConfigurationIdTag item) ∧
      List.Forall₂ (fun item b ↦ parseButton item = .ok b) (items.map Dict.ofItems) bs := by
  induction bs generalizing parts with
  | nil =>
      cases h
      exact ⟨[], rfl, List.forall_mem_nil _, .nil⟩
  | cons b bs ih =>
      obtain ⟨hb, hbs⟩ := List.forall_mem_cons.mp hbs
      obtain ⟨part, parts, hpart, hparts, rfl⟩ := mapM_cons_eq_ok.mp h
      obtain ⟨name, hname, rfl⟩ := buttonValue_eq_written hb hpart
      obtain ⟨items, hflatten, hitems, hparse⟩ := ih hbs hparts
      refine ⟨buttonItem b name :: items, ?_,
        List.forall_mem_cons.mpr ⟨isItem_button hname, hitems⟩,
        .cons (parseButton_item hb hname) hparse⟩
      rw [List.flatten_cons, hflatten, List.flatMap_cons, List.flatMap_append, written]

/-- Assigning the buttons in any order gives all of them back. -/
theorem update_sortedButtons {buttons : Dict Int ButtonConfiguration}
    (h : ∀ k b, buttons.get k = some b → b.buttonId = k) :
    (Dict.empty.update ((sortedButtons buttons).map fun b ↦ (b.buttonId, b))).Equiv buttons := by
  have hperm : ((sortedButtons buttons).map fun b ↦ (b.buttonId, b)).Perm buttons.items := by
    refine ((List.perm_insertionSort _ buttons.values).map _).trans (.of_eq ?_)
    rw [Dict.values, List.map_map]
    refine (List.map_congr_left fun p hp ↦ ?_).trans (List.map_id _)
    exact Prod.ext (h p.1 p.2 (Dict.get_eq_some_iff.mpr hp)) rfl
  have hnd : (((sortedButtons buttons).map fun b ↦ (b.buttonId, b)).map Prod.fst).Nodup :=
    (hperm.map Prod.fst).nodup_iff.mpr buttons.nodup
  intro k
  apply Option.ext
  intro b
  exact (Dict.get_ofItems_eq_some_iff hnd).trans (hperm.mem_iff.trans Dict.get_eq_some_iff.symm)

/-! ## Targets -/

/-- The entries of a target, with those of its name, its category and its buttons. -/
def targetItem (t : TargetConfiguration) (name category buttons : List (UInt8 × Bytes)) :
    List (UInt8 × Bytes) :=
  [(targetIdentifierTag, toLE 4 t.targetIdentifier.toNat)] ++ name ++ category ++ buttons

/-- The entry of an optional category. -/
inductive CategoryEntry : Option Int → List (UInt8 × Bytes) → Prop
  | none : CategoryEntry none []
  | some (n : Int) : 0 ≤ n ∧ n < 2 ^ 16 →
      CategoryEntry (some n) [(targetCategoryTag, toLE 2 n.toNat)]

/-- The entry of buttons that are read as `buttons`. -/
inductive ButtonsEntry (buttons : Dict Int ButtonConfiguration) : List (UInt8 × Bytes) → Prop
  | none : buttons.items = [] → ButtonsEntry buttons []
  | some (raw : Bytes) (items : List (Dict UInt8 Bytes)) :
      Tlv8.decodeList raw buttonConfigurationIdTag = .ok items →
      (∃ result, parseButtons .empty items = .ok result ∧ result.Equiv buttons) →
      ButtonsEntry buttons [(targetButtonConfigurationTag, raw)]

theorem nameValue_eq_written {name : Obj} {bytes : Bytes} (hname : TargetNameOk name)
    (h : nameValue name = .ok bytes) :
    ∃ es, NameEntry targetNameTag name es ∧ bytes = written es := by
  cases name with
  | none =>
      cases h
      exact ⟨[], .none, rfl⟩
  | str s =>
      obtain ⟨raw, hraw, rfl⟩ := encode_str h
      exact ⟨_, .str s raw hraw, rfl⟩
  | _ => exact hname.elim

theorem categoryValue_eq_written {category : Option Int} {bytes : Bytes}
    (hcategory : ∀ n, category = some n → 0 ≤ n ∧ n < 2 ^ 16)
    (h : categoryValue category = .ok bytes) :
    ∃ es, CategoryEntry category es ∧ bytes = written es := by
  cases category with
  | none =>
      cases h
      exact ⟨[], .none, rfl⟩
  | some n =>
      have hn := hcategory n rfl
      rw [categoryValue, Tlv8.u16_ok hn] at h
      exact ⟨_, .some n hn, encode_bytes h⟩

theorem buttonsValue_eq_written {buttons : Dict Int ButtonConfiguration} {bytes : Bytes}
    (hbuttons : ∀ k b, buttons.get k = some b → b.buttonId = k ∧ b.Writable)
    (h : buttonsValue buttons = .ok bytes) :
    ∃ es, ButtonsEntry buttons es ∧ bytes = written es := by
  rw [buttonsValue] at h
  split at h
  · next hempty =>
    cases h
    exact ⟨[], .none (List.isEmpty_iff.mp hempty), rfl⟩
  · obtain ⟨parts, hparts, h⟩ := bind_eq_ok.mp h
    have hall : ∀ b ∈ sortedButtons buttons, b.Writable := by
      intro b hb
      obtain ⟨⟨k, b'⟩, hmem, rfl⟩ := List.mem_map.mp (List.mem_insertionSort _ |>.mp hb)
      exact (hbuttons k b' (Dict.get_eq_some_iff.mpr hmem)).2
    obtain ⟨items, hflatten, hitems, hparse⟩ := buttons_eq_written hall hparts
    refine ⟨_, .some _ (items.map Dict.ofItems) ?_ ⟨_, parseButtons_items hparse .empty, ?_⟩,
      encode_bytes h⟩
    · rw [hflatten]
      exact Tlv8.decodeList_items hitems
    · exact update_sortedButtons fun k b hb ↦ (hbuttons k b hb).1

theorem targetBody_eq_written {t : TargetConfiguration} {body : Bytes} (ht : t.Writable)
    (h : targetBody t = .ok body) :
    ∃ name category buttons, NameEntry targetNameTag t.targetName name ∧
      CategoryEntry t.targetCategory category ∧ ButtonsEntry t.buttons buttons ∧
      body = written (targetItem t name category buttons) := by
  have hidentifier : 0 ≤ t.targetIdentifier ∧ t.targetIdentifier < 2 ^ 32 := by
    have := ht.targetIdentifier
    omega
  rw [targetBody, Tlv8.u32_ok hidentifier, bind_ok] at h
  obtain ⟨part, hpart, h⟩ := bind_eq_ok.mp h
  obtain ⟨name, hname, h⟩ := bind_eq_ok.mp h
  obtain ⟨category, hcategory, h⟩ := bind_eq_ok.mp h
  obtain ⟨buttons, hbuttons, h⟩ := bind_eq_ok.mp h
  obtain rfl := Except.ok.inj h
  obtain ⟨ns, hns, rfl⟩ := nameValue_eq_written ht.targetName hname
  obtain ⟨cs, hcs, rfl⟩ := categoryValue_eq_written ht.targetCategory hcategory
  obtain ⟨bs, hbs, rfl⟩ := buttonsValue_eq_written
    (fun k b hb ↦ ⟨(ht.buttons k b hb).1, (ht.buttons k b hb).2⟩) hbuttons
  refine ⟨ns, cs, bs, hns, hcs, hbs, ?_⟩
  rw [targetItem, written_append, written_append, written_append, encode_bytes hpart]

/-- The entries of a target have types of their own. -/
theorem nodup_targetItem {t : TargetConfiguration} {name category buttons : List (UInt8 × Bytes)}
    (hname : NameEntry targetNameTag t.targetName name)
    (hcategory : CategoryEntry t.targetCategory category)
    (hbuttons : ButtonsEntry t.buttons buttons) :
    ((targetItem t name category buttons).map Prod.fst).Nodup := by
  have hns : name.map Prod.fst = [] ∨ name.map Prod.fst = [targetNameTag] := by
    generalize t.targetName = x at hname
    cases hname <;> simp
  have hcs : category.map Prod.fst = [] ∨ category.map Prod.fst = [targetCategoryTag] := by
    generalize t.targetCategory = x at hcategory
    cases hcategory <;> simp
  have hbs : buttons.map Prod.fst = [] ∨ buttons.map Prod.fst = [targetButtonConfigurationTag] := by
    cases hbuttons <;> simp
  have hmap : (targetItem t name category buttons).map Prod.fst =
      [targetIdentifierTag] ++ name.map Prod.fst ++ category.map Prod.fst ++
        buttons.map Prod.fst := by
    rw [targetItem, List.map_append, List.map_append, List.map_append]
    rfl
  rw [hmap]
  rcases hns with hns | hns <;> rcases hcs with hcs | hcs <;> rcases hbs with hbs | hbs <;>
    rw [hns, hcs, hbs] <;> decide

section

variable {t : TargetConfiguration} {name category buttons : List (UInt8 × Bytes)}
  (hname : NameEntry targetNameTag t.targetName name)
  (hcategory : CategoryEntry t.targetCategory category) (hbuttons : ButtonsEntry t.buttons buttons)

include hname hcategory hbuttons

/-- What stands under the four types of a target. -/
theorem get_targetItem :
    (Dict.ofItems (targetItem t name category buttons)).get targetIdentifierTag =
        some (toLE 4 t.targetIdentifier.toNat) ∧
      (Dict.ofItems (targetItem t name category buttons)).get targetNameTag =
        name.head?.map Prod.snd ∧
      (Dict.ofItems (targetItem t name category buttons)).get targetCategoryTag =
        category.head?.map Prod.snd ∧
      (Dict.ofItems (targetItem t name category buttons)).get targetButtonConfigurationTag =
        buttons.head?.map Prod.snd := by
  have hget := fun tag ↦ Dict.get_ofItems (nodup_targetItem hname hcategory hbuttons) tag
  rw [hget, hget, hget, hget, targetItem]
  generalize t.targetName = x at hname
  generalize t.targetCategory = y at hcategory
  cases hname <;> cases hcategory <;> cases hbuttons <;> exact ⟨rfl, rfl, rfl, rfl⟩

theorem parseTargetName_item (ht : TargetNameOk t.targetName) :
    parseTargetName (Dict.ofItems (targetItem t name category buttons)) = .ok t.targetName := by
  rw [parseTargetName, (get_targetItem hname hcategory hbuttons).2.1]
  clear hcategory hbuttons
  generalize t.targetName = x at hname ht
  cases hname with
  | none => rfl
  | str s raw hraw =>
      obtain ⟨-, hne, raw', hraw', hlength⟩ := ht
      obtain rfl := Option.some.inj (hraw.symm.trans hraw')
      have hempty : (s.isEmpty || decide (maxTargetNameBytes < raw.length)) = false := by
        rw [Bool.or_eq_false_iff, decide_eq_false_iff_not, Nat.not_lt, ← Bool.not_eq_true,
          List.isEmpty_iff]
        exact ⟨hne, hlength⟩
      simp only [List.head?_cons, Option.map_some, decodeName_raw hraw, bind_ok, hraw,
        Option.getD_some, hempty, Bool.false_eq_true, if_false, pure_eq_ok]

theorem parseTargetCategory_item :
    parseTargetCategory (Dict.ofItems (targetItem t name category buttons)) =
      .ok t.targetCategory := by
  rw [parseTargetCategory, (get_targetItem hname hcategory hbuttons).2.2.1]
  clear hname hbuttons
  generalize t.targetCategory = x at hcategory
  cases hcategory with
  | none => rfl
  | some n hn =>
      have hread : Tlv8.readU16 (toLE 2 n.toNat) = .ok n := by
        rw [Tlv8.readU16, if_neg (by simp), ofLE_toLE (by omega), Int.toNat_of_nonneg hn.1]
      simp only [List.head?_cons, Option.map_some, hread, bind_ok, pure_eq_ok]

theorem parseButtons_item :
    ∃ items result, buttonEntries (Dict.ofItems (targetItem t name category buttons)) = .ok items ∧
      parseButtons .empty items = .ok result ∧ result.Equiv t.buttons := by
  rw [buttonEntries, (get_targetItem hname hcategory hbuttons).2.2.2]
  cases hbuttons with
  | none hempty =>
      refine ⟨[], .empty, rfl, rfl, fun k ↦ ?_⟩
      rw [Dict.get, Dict.get, hempty]
      rfl
  | some raw items hitems hparse =>
      obtain ⟨result, hresult, hequiv⟩ := hparse
      exact ⟨items, result, hitems, hresult, hequiv⟩

end

/-- **A target that was written is read back.** -/
theorem parseTarget_of_targetBody {t : TargetConfiguration} {body : Bytes} (ht : t.Writable)
    (h : targetBody t = .ok body) :
    ∃ t', parseTarget (some body) = .ok (some t') ∧ t.Same t' := by
  obtain ⟨name, category, buttons, hname, hcategory, hbuttons, rfl⟩ := targetBody_eq_written ht h
  obtain ⟨items, result, hitems, hresult, hequiv⟩ := parseButtons_item hname hcategory hbuttons
  have hidentifier := ht.targetIdentifier
  have hdecode : Tlv8.decode (written (targetItem t name category buttons)) =
      .ok (Dict.ofItems (targetItem t name category buttons)) :=
    Tlv8.decode_item (nodup_targetItem hname hcategory hbuttons)
  have hrequired : required (Dict.ofItems (targetItem t name category buttons)) targetIdentifierTag
      "target identifier" = .ok (toLE 4 t.targetIdentifier.toNat) := by
    rw [required, (get_targetItem hname hcategory hbuttons).1]
    rfl
  have hread : Tlv8.readU32 (toLE 4 t.targetIdentifier.toNat) = .ok t.targetIdentifier := by
    rw [Tlv8.readU32, if_neg (by simp), ofLE_toLE (by omega), Int.toNat_of_nonneg (by omega)]
  have hnonzero : t.targetIdentifier ≠ 0 := by omega
  refine ⟨⟨t.targetIdentifier, t.targetName, t.targetCategory, result⟩, ?_, rfl, rfl, rfl, hequiv⟩
  simp only [parseTarget, hdecode, bind_ok, hrequired, hread, if_neg hnonzero,
    parseTargetName_item hname hcategory hbuttons ht.targetName,
    parseTargetCategory_item hname hcategory hbuttons, hitems, hresult, pure_eq_ok]

/-! ## Writing back -/

/-- A body is an entry of the list that `target_list_value` returns: the list consists of the
bodies of the targets. -/
def IsEntry (targets : Dict Int TargetConfiguration) (value : PyStr) (body : Bytes) : Prop :=
  ∃ bodies, (sortedTargets targets).mapM targetBody = .ok bodies ∧ body ∈ bodies ∧
    decodeB64 value "TargetControlList" =
      .ok (written (bodies.map fun body ↦ (tcListTargetConfiguration, body)))

theorem mem_of_mapM {t : TargetConfiguration} {ts : List TargetConfiguration} {body : Bytes}
    {bodies : List Bytes} (ht : t ∈ ts) (hbody : targetBody t = .ok body)
    (h : ts.mapM targetBody = .ok bodies) : body ∈ bodies := by
  induction ts generalizing bodies with
  | nil => cases ht
  | cons t' ts ih =>
      obtain ⟨body', bodies', hbody', hbodies', rfl⟩ := mapM_cons_eq_ok.mp h
      rcases List.mem_cons.mp ht with rfl | ht
      · rw [Except.ok.inj (hbody.symm.trans hbody')]
        exact List.mem_cons_self
      · exact List.mem_cons_of_mem _ (ih ht hbodies')

/-- The body of a target is an entry of the list. -/
theorem isEntry_targetBody {targets : Dict Int TargetConfiguration} {t : TargetConfiguration}
    {k : Int} {value : PyStr} {body : Bytes} (hvalue : targetListValue targets = .ok value)
    (ht : targets.get k = some t) (hbody : targetBody t = .ok body) :
    IsEntry targets value body := by
  obtain ⟨parts, hparts, hvalue⟩ := bind_eq_ok.mp hvalue
  obtain rfl := Except.ok.inj hvalue
  obtain ⟨bodies, hbodies, hflatten⟩ := mapM_targetValue hparts
  have hmem : t ∈ sortedTargets targets :=
    (List.mem_insertionSort _).mpr (List.mem_map.mpr ⟨(k, t), Dict.get_eq_some_iff.mp ht, rfl⟩)
  refine ⟨bodies, hbodies, mem_of_mapM hmem hbody hbodies, ?_⟩
  rw [decodeB64_encode, hflatten, written, Tlv8.entrySegments, List.flatMap_map,
    List.flatMap_assoc]

/-- An `ADD` of a target as it was read. -/
def addBack (body : Bytes) : PyStr :=
  (Base64.encode (written [(tcListOperation, [2]), (tcListTargetConfiguration, body)])).map .char

theorem parseTargetWrite_addBack {body : Bytes} {t : TargetConfiguration}
    (h : parseTarget (some body) = .ok (some t)) :
    AppleTVHomeKitRemote.parseTargetWrite (addBack body) = .ok (.add, some t) := by
  let items : List (UInt8 × Bytes) := [(tcListOperation, [2]), (tcListTargetConfiguration, body)]
  have hnodup : (items.map Prod.fst).Nodup := (by decide : ([1, 2] : List UInt8).Nodup)
  have hdecode : Tlv8.decode (written items) = .ok (Dict.ofItems items) := Tlv8.decode_item hnodup
  have hoperation :
      required (Dict.ofItems items) tcListOperation "TargetControlList operation" = .ok [2] := by
    rw [required, Dict.get_ofItems hnodup]
    rfl
  have hconfig : (Dict.ofItems items).get tcListTargetConfiguration = some body := by
    rw [Dict.get_ofItems hnodup]
    rfl
  rw [AppleTVHomeKitRemote.parseTargetWrite, addBack, decodeB64_encode, bind_ok, hdecode, bind_ok,
    hoperation, bind_ok]
  simp only [hconfig, h, bind_ok, pure_eq_ok]
  rfl

section

variable {ε : Type} {json : JsonText} {r r' : AppleTVHomeKitRemote ε json.Text}

/-- What an `ADD` leaves that writes back a target which is there. -/
structure AddedBack (identifier : Int) (r r' : AppleTVHomeKitRemote ε json.Text) : Prop where
  /-- No target is changed. -/
  targets : SameUnder r.targets.get r'.targets.get
  /-- The target is selected if none was. -/
  activeIdentifier :
    r'.activeIdentifier = if r.activeIdentifier = 0 then identifier else r.activeIdentifier
  accessory : r'.accessory = if r.activeIdentifier = 0 then
      r.accessory.map fun a ↦ { a with activeIdentifierChar := identifier }
    else r.accessory
  /-- The file is left, or written with the targets that were there. -/
  targetsFile : r'.targetsFile = r.targetsFile ∨
    r'.targetsFile = some (targetsText json r.targets r'.activeIdentifier)
  /-- Nothing else is touched. -/
  rest : r' = { r with
    targets := r'.targets
    activeIdentifier := r'.activeIdentifier
    accessory := r'.accessory
    targetsFile := r'.targetsFile
    saveFaults := r'.saveFaults }

/-- Nothing is changed when a target was selected, and the file is in step with memory. -/
theorem AddedBack.unchanged {identifier : Int} (h : AddedBack identifier r r')
    (hactive : r.activeIdentifier ≠ 0) (hwritten : r.Written) : r.Unchanged r' := by
  have hidentifier := h.activeIdentifier
  have hchars := h.accessory
  rw [if_neg hactive] at hidentifier hchars
  refine ⟨h.targets, hidentifier, congrArg (·.activeClient) h.rest, hchars, ?_⟩
  rcases h.targetsFile with hfile | hfile
  · exact hfile
  · rw [hfile, hidentifier]
    exact hwritten.symm

/-- What is only read behind a call leaves the state of the call. -/
theorem thenDo_read {σ α β : Type} (x : Except PyErr α × σ) (f : σ → Except PyErr β) :
    (thenDo x fun _ s ↦ (f s, s)).2 = x.2 := by
  obtain ⟨_ | _, s⟩ := x <;> rfl

variable (json)

/-- Adding a target that is there selects it if none is selected, and changes nothing else. -/
theorem addTarget_addedBack {t t' : TargetConfiguration} (hsame : t.Same t')
    (ht : r.targets.get t.targetIdentifier = some t) :
    ∃ b, r.addTarget json (some t') = (.ok (), b) ∧ AddedBack t.targetIdentifier r b := by
  have hset : SameUnder r.targets.get (r.targets.set t'.targetIdentifier t').get := by
    intro k
    rw [Dict.get_set, hsame.targetIdentifier]
    split
    · next hk =>
      rw [hk, ht]
      exact .some hsame
    · exact SameUnder.refl _ k
  have hroom : ¬(r.targets.contains t'.targetIdentifier = false ∧ maxTargets ≤ r.targets.size) := by
    rintro ⟨hnone, -⟩
    rw [Dict.contains_eq_false_iff, hsame.targetIdentifier, ht] at hnone
    cases hnone
  simp only [AppleTVHomeKitRemote.addTarget, if_neg hroom]
  by_cases hactive : r.activeIdentifier = 0
  · rw [if_pos hactive]
    refine ⟨_, rfl, hset, ?_, ?_, .inl rfl, rfl⟩
    · rw [if_pos hactive]
      exact hsame.targetIdentifier
    · rw [if_pos hactive, ← hsame.targetIdentifier]
  · rw [if_neg hactive]
    refine ⟨_, rfl, hset, ?_, ?_, .inl rfl, rfl⟩
    · rw [if_neg hactive]
    · rw [if_neg hactive]

/-- A save behind it writes the targets that were there. -/
theorem AddedBack.saveTargets {identifier : Int} {b : AppleTVHomeKitRemote ε json.Text}
    (h : AddedBack identifier r b) : AddedBack identifier r (b.saveTargets json).2 := by
  have hrest : ∀ file faults,
      ({ b with targetsFile := file, saveFaults := faults } : AppleTVHomeKitRemote ε json.Text) =
        { r with
          targets := b.targets
          activeIdentifier := b.activeIdentifier
          accessory := b.accessory
          targetsFile := file
          saveFaults := faults } := by
    intro file faults
    rw [h.rest]
  have hwrites : AddedBack identifier r { b with
      targetsFile := some (targetsText json b.targets b.activeIdentifier)
      saveFaults := b.saveFaults.tail } := by
    refine ⟨h.targets, h.activeIdentifier, h.accessory, .inr ?_, hrest _ _⟩
    rw [targetsText_congr h.targets]
  rcases b.saveTargets_cases with ⟨-, heq⟩ | ⟨-, heq⟩ | ⟨-, heq⟩
  · rw [heq]
    exact hwrites
  · rw [heq]
    exact ⟨h.targets, h.activeIdentifier, h.accessory, h.targetsFile, hrest _ _⟩
  · rw [heq]
    exact hwrites

variable {json}

/-- **Writing back what was read**: a body that `target_list_value` builds is an entry of the list
and is parsed into an equal configuration.  A controller that adds it again changes no target; it
selects the target if none was selected, and changes nothing else. -/
theorem parseTarget_targetBody (t : TargetConfiguration) (ht : t.Writable) (body : Bytes)
    (hbody : targetBody t = .ok body) :
    (∃ t', parseTarget (some body) = .ok (some t') ∧ t.Same t') ∧
      ∀ (ε : Type) (json : JsonText) (r : AppleTVHomeKitRemote ε json.Text),
        r.targets.get t.targetIdentifier = some t →
        (∀ value, targetListValue r.targets = .ok value → IsEntry r.targets value body) ∧
        ∀ (client : Option ClientAddr) (admin : Bool) (r' : AppleTVHomeKitRemote ε json.Text),
          (r.hapTargetListWrite json (addBack body) client admin).2 = r' →
          (r.accessory = none ∨ client = none ∨ admin = false → r' = r) ∧
          (r.accessory ≠ none → client ≠ none → admin = true →
            AddedBack t.targetIdentifier r r') ∧
          (r.activeIdentifier ≠ 0 → r.Written → r.Unchanged r') := by
  obtain ⟨t', hparse, hsame⟩ := parseTarget_of_targetBody ht hbody
  refine ⟨⟨t', hparse, hsame⟩, fun ε json r hget ↦
    ⟨fun value hvalue ↦ isEntry_targetBody hvalue hget hbody, ?_⟩⟩
  rintro client admin r' rfl
  have hrefused : r.accessory = none ∨ client = none ∨ admin = false →
      (r.hapTargetListWrite json (addBack body) client admin).2 = r := by
    intro h
    rw [AppleTVHomeKitRemote.hapTargetListWrite]
    split
    · rfl
    · next hstarted =>
      rw [if_pos]
      rcases h with h | rfl | rfl
      · exact absurd (Option.isNone_iff_eq_none.mpr h) hstarted
      · rfl
      · exact Bool.or_true _
  have hadded : r.accessory ≠ none → client ≠ none → admin = true →
      AddedBack t.targetIdentifier r
        (r.hapTargetListWrite json (addBack body) client admin).2 := by
    rintro hstarted hclient rfl
    obtain ⟨b, heq, hb⟩ := addTarget_addedBack json hsame hget
    rw [AppleTVHomeKitRemote.hapTargetListWrite,
      if_neg (mt Option.isNone_iff_eq_none.mp hstarted), if_neg, parseTargetWrite_addBack hparse]
    · dsimp only [AppleTVHomeKitRemote.targetOperation]
      rw [heq]
      show AddedBack _ r (thenDo (b.saveTargets json) fun _ r ↦ (targetListValue r.targets, r)).2
      rw [thenDo_read]
      exact hb.saveTargets json
    · rw [Bool.not_true, Bool.or_false]
      exact mt Option.isNone_iff_eq_none.mp hclient
  refine ⟨hrefused, hadded, fun hactive hwritten ↦ ?_⟩
  by_cases h : r.accessory = none ∨ client = none ∨ admin = false
  · rw [hrefused h]
    exact .refl r
  · simp only [not_or] at h
    exact (hadded h.1 h.2.1 (Bool.not_eq_false _ ▸ h.2.2)).unchanged hactive hwritten

end

/-- A target with a name and a button without one. -/
def namedTarget : TargetConfiguration :=
  ⟨7, .text "TV", some 24, Dict.empty.set 1 ⟨1, 2, .none⟩⟩

theorem writable_namedTarget : namedTarget.Writable where
  targetIdentifier := by decide
  targetName := ⟨PyStr.scalar_ofString _, by decide, _, rfl, by decide⟩
  targetCategory n hn := by
    cases hn
    decide
  buttons k b hb := by
    rw [namedTarget, Dict.get_set] at hb
    split at hb
    · next hk =>
      cases hb
      exact ⟨hk.symm, by decide, by decide, trivial⟩
    · cases hb

/-- The entries of the target, in the order in which they are written. -/
def namedBody : Bytes := [1, 4, 7, 0, 0, 0, 2, 2, 0x54, 0x56, 3, 2, 24, 0, 4, 7, 1, 1, 1, 2, 2, 2, 0]

/-- The target is added, and is selected with it. -/
def namedAdded : List AppleTVHomeKitRemote.Label :=
  [.start, .targetListWrite (addBack namedBody) (some ⟨"hub", 1⟩) true]

/-- The target is added, and another controller selects none. -/
def namedDeselected : List AppleTVHomeKitRemote.Label := namedAdded ++ [.setActiveIdentifier 0]

/-- Adding back the target changes nothing when it is selected, and selects it when none is. -/
theorem parseTarget_targetBody_named :
    (∃ t', parseTarget (some namedBody) = .ok (some t') ∧ namedTarget.Same t') ∧
      (∃ r : AppleTVHomeKitRemote Unit Obj,
        (remotes .documents .verbatim none).exec (.new .documents none) namedAdded = some r ∧
        r.activeIdentifier = 7 ∧ r.Unchanged
          (r.hapTargetListWrite .documents (addBack namedBody) (some ⟨"hub", 1⟩) true).2) ∧
      ∃ r r' : AppleTVHomeKitRemote Unit Obj,
        (remotes .documents .verbatim none).exec (.new .documents none) namedDeselected = some r ∧
        (r.hapTargetListWrite .documents (addBack namedBody) (some ⟨"hub", 1⟩) true).2 = r' ∧
        SameUnder r.targets.get r'.targets.get ∧ r.activeIdentifier = 0 ∧
        r'.activeIdentifier = 7 := by
  obtain ⟨hparse, hback⟩ := parseTarget_targetBody namedTarget writable_namedTarget namedBody rfl
  obtain ⟨r, hrun, htarget, hactive, hwritten⟩ : ∃ r : AppleTVHomeKitRemote Unit Obj,
      (remotes .documents .verbatim none).exec (.new .documents none) namedAdded = some r ∧
      r.targets.get 7 = some namedTarget ∧ r.activeIdentifier = 7 ∧
      r.targetsFile = some (targetsText .documents r.targets r.activeIdentifier) :=
    ⟨_, rfl, rfl, rfl, rfl⟩
  obtain ⟨r₀, hrun₀, htarget₀, hactive₀, haccessory⟩ : ∃ r : AppleTVHomeKitRemote Unit Obj,
      (remotes .documents .verbatim none).exec (.new .documents none) namedDeselected = some r ∧
      r.targets.get 7 = some namedTarget ∧ r.activeIdentifier = 0 ∧ r.accessory = some ⟨0, 0⟩ :=
    ⟨_, rfl, rfl, rfl, rfl⟩
  refine ⟨hparse, ⟨r, hrun, hactive, ?_⟩, r₀, _, hrun₀, rfl, ?_⟩
  · obtain ⟨-, -, hunchanged⟩ := (hback Unit .documents r htarget).2 (some ⟨"hub", 1⟩) true _ rfl
    exact hunchanged (by rw [hactive]; decide) hwritten
  · obtain ⟨-, hadded, -⟩ := (hback Unit .documents r₀ htarget₀).2 (some ⟨"hub", 1⟩) true _ rfl
    have hadded := hadded (by rw [haccessory]; rintro ⟨⟩) (by rintro ⟨⟩) rfl
    exact ⟨hadded.targets, hactive₀, hadded.activeIdentifier.trans (if_pos hactive₀)⟩

/-- Adding back a target selects it when none is selected, and saves the selection. -/
theorem not_unchanged_addBack :
    ¬ ∀ (t : TargetConfiguration) (body : Bytes), t.Writable → targetBody t = .ok body →
      ∀ r : AppleTVHomeKitRemote Unit Obj, (remotes .documents .verbatim none).Reachable r →
        r.targets.get t.targetIdentifier = some t → r.Unchanged
          (r.hapTargetListWrite .documents (addBack body) (some ⟨"hub", 1⟩) true).2 := by
  intro hall
  obtain ⟨r, hrun, htarget, hbefore, hafter⟩ : ∃ r : AppleTVHomeKitRemote Unit Obj,
      (remotes .documents .verbatim none).exec (.new .documents none) namedDeselected = some r ∧
      r.targets.get 7 = some namedTarget ∧ r.activeIdentifier = 0 ∧
      (r.hapTargetListWrite .documents (addBack namedBody) (some ⟨"hub", 1⟩)
        true).2.activeIdentifier = 7 :=
    ⟨_, rfl, rfl, rfl, rfl⟩
  have hunchanged := hall namedTarget namedBody writable_namedTarget rfl r
    (.exec (.init rfl) hrun) htarget
  cases (hafter.symm.trans hunchanged.activeIdentifier).trans hbefore

end AtvRemote.Remote
