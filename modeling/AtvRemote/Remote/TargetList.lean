import AtvRemote.Remote.Controller
import AtvRemote.Tlv8.Lists

/-!
# Splitting the target list

What `decode_list` makes of the value that `target_list_value` returns.  All targets are
written under one type, with nothing between them, so the list can be split again exactly
when no target but the last one is written in a multiple of 255 bytes (`splits_iff`).
`bodySize` says how many bytes that are.
-/

namespace AtvRemote.Remote

open Lib

/-! ## Sizes -/

/-- The bytes that an entry with a value of `n` bytes takes. -/
def entrySize (n : Nat) : Nat := if n = 0 then 2 else n + 2 * ((n + 254) / 255)

/-- The bytes that an entry takes, if its value can be written. -/
def valueSize (raw : Obj) : Nat :=
  match Tlv8.normalizeValue raw with
  | .ok value => entrySize value.length
  | .error _ => 0

/-- The bytes of a button. -/
def buttonSize (b : ButtonConfiguration) : Nat :=
  7 + if b.buttonName.truthy then valueSize b.buttonName else 0

/-- The bytes of the name of a target. -/
def nameSize : Obj → Nat
  | .none => 0
  | name => valueSize name

/-- The bytes of the buttons of a target. -/
def buttonsSize (buttons : Dict Int ButtonConfiguration) : Nat :=
  if buttons.items.isEmpty then 0 else entrySize (buttons.values.map buttonSize).sum

/-- The bytes of a target. -/
def bodySize (t : TargetConfiguration) : Nat :=
  6 + nameSize t.targetName + (if t.targetCategory.isSome then 4 else 0) + buttonsSize t.buttons

/-- The parts of one target in `target_list_value`, joined. -/
def targetBody (t : TargetConfiguration) : Except PyErr Bytes := do
  let identifier ← Tlv8.u32 t.targetIdentifier
  let part ← Tlv8.encode [(targetIdentifierTag, .bytes .bytes identifier)]
  let name ← nameValue t.targetName
  let category ← categoryValue t.targetCategory
  let buttons ← buttonsValue t.buttons
  return part ++ name ++ category ++ buttons

/-- The value can be split into the bodies of the targets again, in ascending order. -/
def Splits (targets : Dict Int TargetConfiguration) (value : PyStr) : Prop :=
  ∃ data items bodies, decodeB64 value "TargetControlList" = .ok data ∧
    Tlv8.decodeList data tcListTargetConfiguration = .ok items ∧
    (sortedTargets targets).mapM targetBody = .ok bodies ∧
    items.map (·.get tcListTargetConfiguration) = bodies.map some

/-! ## The bytes of a target -/

/-- The entries of `encode`, one behind the other. -/
theorem encode_cons (tag : UInt8) (raw : Obj) (entries : List (UInt8 × Obj)) :
    Tlv8.encode ((tag, raw) :: entries) = (do
      let b ← Tlv8.encodeEntry tag raw
      let rest ← Tlv8.encode entries
      return b ++ rest) := by
  rw [Tlv8.encode, Tlv8.encode, List.mapM_cons]
  cases Tlv8.encodeEntry tag raw with
  | error e => rfl
  | ok b => cases entries.mapM fun e ↦ Tlv8.encodeEntry e.1 e.2 <;> rfl

/-- One entry. -/
theorem encode_one (tag : UInt8) (raw : Obj) :
    Tlv8.encode [(tag, raw)] = (Tlv8.normalizeValue raw).map fun value ↦
      (Tlv8.segmentsOf tag value).flatMap Tlv8.TLVSegment.toBytes := by
  rw [encode_cons, Tlv8.encodeEntry]
  cases Tlv8.normalizeValue raw with
  | error e => rfl
  | ok value => exact congrArg Except.ok (List.append_nil _)

/-- A target is one value of the list. -/
theorem targetValue_eq (t : TargetConfiguration) :
    targetValue t = (targetBody t).map fun body ↦
      (Tlv8.segmentsOf tcListTargetConfiguration body).flatMap Tlv8.TLVSegment.toBytes := by
  simp only [targetValue, targetBody, map_bind, encode_one]
  rfl

theorem length_entry (tag : UInt8) (value : Bytes) :
    ((Tlv8.segmentsOf tag value).flatMap Tlv8.TLVSegment.toBytes).length =
      entrySize value.length := by
  induction value using Tlv8.value_induction with
  | short v hle =>
      rw [Tlv8.segmentsOf_of_le tag hle, entrySize]
      simp only [List.flatMap_cons, List.flatMap_nil, Tlv8.TLVSegment.toBytes, List.length_append,
        List.length_cons, List.length_nil]
      split <;> omega
  | long v hlt ih =>
      rw [List.length_drop, entrySize, if_neg (by omega)] at ih
      rw [Tlv8.segmentsOf_of_lt tag hlt, List.flatMap_cons, List.length_append, ih, entrySize,
        if_neg (by omega), Tlv8.TLVSegment.toBytes]
      simp only [List.length_cons, List.length_take_of_le (Nat.le_of_lt hlt)]
      omega

theorem length_encode_one {tag : UInt8} {raw : Obj} {b : Bytes}
    (h : Tlv8.encode [(tag, raw)] = .ok b) : b.length = valueSize raw := by
  rw [encode_one] at h
  obtain ⟨value, hvalue, rfl⟩ := map_eq_ok.mp h
  rw [length_entry, valueSize, hvalue]

theorem length_u16 {n : Int} {b : Bytes} (h : Tlv8.u16 n = .ok b) : b.length = 2 := by
  rw [Tlv8.u16] at h
  split at h
  · cases h
  · split at h
    · cases h
      exact length_toLE 2 _
    · cases h

theorem length_u32 {n : Int} {b : Bytes} (h : Tlv8.u32 n = .ok b) : b.length = 4 := by
  rw [Tlv8.u32] at h
  split at h
  · cases h
  · split at h
    · cases h
      exact length_toLE 4 _
    · cases h

/-- The identifier and the type of a button take seven bytes. -/
theorem length_buttonOne {b : ButtonConfiguration} {buttonType one : Bytes}
    (htype : buttonType.length = 2)
    (h : Tlv8.encode [(buttonConfigurationIdTag, .int b.buttonId),
      (buttonConfigurationTypeTag, .bytes .bytes buttonType)] = .ok one) : one.length = 7 := by
  rw [encode_cons, Tlv8.encodeEntry] at h
  obtain ⟨identifier, hidentifier, h⟩ := bind_eq_ok.mp h
  obtain ⟨value, hvalue, hidentifier⟩ := bind_eq_ok.mp hidentifier
  obtain ⟨rest, hrest, h⟩ := bind_eq_ok.mp h
  have hlength : value.length = 1 := by
    rw [Tlv8.normalizeValue] at hvalue
    split at hvalue
    · cases hvalue
      rfl
    · cases hvalue
  obtain rfl := Except.ok.inj hidentifier
  obtain rfl := Except.ok.inj h
  rw [List.length_append, length_entry, length_encode_one hrest, hlength]
  show entrySize 1 + entrySize buttonType.length = 7
  rw [htype]
  rfl

theorem length_buttonValue {b : ButtonConfiguration} {bytes : Bytes}
    (h : buttonValue b = .ok bytes) : bytes.length = buttonSize b := by
  obtain ⟨buttonType, htype, h⟩ := bind_eq_ok.mp h
  obtain ⟨one, hone, h⟩ := bind_eq_ok.mp h
  have hlength := length_buttonOne (length_u16 htype) hone
  rw [buttonSize]
  dsimp only at h
  split at h
  · next htruthy =>
    obtain ⟨name, hname, h⟩ := bind_eq_ok.mp h
    obtain rfl := Except.ok.inj h
    rw [if_pos htruthy, List.length_append, hlength, length_encode_one hname]
  · next htruthy =>
    obtain rfl := Except.ok.inj h
    rw [if_neg htruthy, List.append_nil, hlength]

/-- The parts of a loop, joined. -/
theorem length_flatten_mapM {α : Type} {f : α → Except PyErr Bytes} {size : α → Nat}
    (hf : ∀ x b, f x = .ok b → b.length = size x) {xs : List α} {parts : List Bytes}
    (h : xs.mapM f = .ok parts) : parts.flatten.length = (xs.map size).sum := by
  induction xs generalizing parts with
  | nil =>
      cases h
      rfl
  | cons x xs ih =>
      obtain ⟨b, bs, hb, hbs, rfl⟩ := mapM_cons_eq_ok.mp h
      rw [List.flatten_cons, List.length_append, hf x b hb, ih hbs, List.map_cons, List.sum_cons]

theorem length_buttonsValue {buttons : Dict Int ButtonConfiguration} {bytes : Bytes}
    (h : buttonsValue buttons = .ok bytes) : bytes.length = buttonsSize buttons := by
  rw [buttonsValue] at h
  rw [buttonsSize]
  split at h
  · next hempty =>
    cases h
    rw [if_pos hempty]
    rfl
  · next hempty =>
    obtain ⟨parts, hparts, h⟩ := bind_eq_ok.mp h
    have hsum : ((sortedButtons buttons).map buttonSize).sum =
        (buttons.values.map buttonSize).sum :=
      ((List.perm_insertionSort _ _).map buttonSize).sum_nat
    rw [if_neg hempty, length_encode_one h, ← hsum,
      ← length_flatten_mapM (fun _ _ ↦ length_buttonValue) hparts]
    rfl

theorem length_nameValue {name : Obj} {bytes : Bytes} (h : nameValue name = .ok bytes) :
    bytes.length = nameSize name := by
  cases name with
  | none =>
      cases h
      rfl
  | _ => exact length_encode_one h

theorem length_categoryValue {category : Option Int} {bytes : Bytes}
    (h : categoryValue category = .ok bytes) :
    bytes.length = if category.isSome then 4 else 0 := by
  cases category with
  | none =>
      cases h
      rfl
  | some category =>
      obtain ⟨value, hvalue, h⟩ := bind_eq_ok.mp h
      rw [length_encode_one h, Option.isSome_some, if_pos rfl]
      show entrySize value.length = 4
      rw [length_u16 hvalue]
      rfl

/-- **A target is written in as many bytes as `bodySize` says.** -/
theorem length_targetBody {t : TargetConfiguration} {body : Bytes} (h : targetBody t = .ok body) :
    body.length = bodySize t := by
  obtain ⟨identifier, hidentifier, h⟩ := bind_eq_ok.mp h
  obtain ⟨part, hpart, h⟩ := bind_eq_ok.mp h
  obtain ⟨name, hname, h⟩ := bind_eq_ok.mp h
  obtain ⟨category, hcategory, h⟩ := bind_eq_ok.mp h
  obtain ⟨buttons, hbuttons, h⟩ := bind_eq_ok.mp h
  obtain rfl := Except.ok.inj h
  have hsix : part.length = 6 := by
    rw [length_encode_one hpart]
    show entrySize identifier.length = 6
    rw [length_u32 hidentifier]
    rfl
  rw [bodySize, List.length_append, List.length_append, List.length_append, hsix,
    length_nameValue hname, length_categoryValue hcategory, length_buttonsValue hbuttons]

/-! ## Splitting -/

/-- The list is the values of its targets. -/
theorem mapM_targetValue {ts : List TargetConfiguration} {parts : List Bytes}
    (h : ts.mapM targetValue = .ok parts) :
    ∃ bodies, ts.mapM targetBody = .ok bodies ∧
      parts.flatten = bodies.flatMap fun body ↦
        (Tlv8.segmentsOf tcListTargetConfiguration body).flatMap Tlv8.TLVSegment.toBytes := by
  induction ts generalizing parts with
  | nil =>
      cases h
      exact ⟨[], rfl, rfl⟩
  | cons t ts ih =>
      obtain ⟨part, parts, hpart, hparts, rfl⟩ := mapM_cons_eq_ok.mp h
      rw [targetValue_eq] at hpart
      obtain ⟨body, hbody, rfl⟩ := map_eq_ok.mp hpart
      obtain ⟨bodies, hbodies, heq⟩ := ih hparts
      exact ⟨body :: bodies, mapM_cons_eq_ok.mpr ⟨body, bodies, hbody, hbodies, rfl⟩,
        congrArg (_ ++ ·) heq⟩

/-- The bodies have the sizes of their targets. -/
theorem map_length_bodies {ts : List TargetConfiguration} {bodies : List Bytes}
    (h : ts.mapM targetBody = .ok bodies) : bodies.map List.length = ts.map bodySize := by
  induction ts generalizing bodies with
  | nil =>
      cases h
      rfl
  | cons t ts ih =>
      obtain ⟨body, bodies, hbody, hbodies, rfl⟩ := mapM_cons_eq_ok.mp h
      rw [List.map_cons, List.map_cons, length_targetBody hbody, ih hbodies]

/-- No target but the last one runs into the next. -/
theorem separated_bodies {ts : List TargetConfiguration} {bodies : List Bytes}
    (h : ts.mapM targetBody = .ok bodies) :
    Tlv8.Separated bodies ↔ ∀ t ∈ ts.dropLast, ¬255 ∣ bodySize t := by
  have hsizes : bodies.dropLast.map List.length = ts.dropLast.map bodySize := by
    rw [List.map_dropLast, List.map_dropLast, map_length_bodies h]
  rw [Tlv8.Separated, ← List.forall_mem_map (f := List.length) (P := fun n ↦ ¬255 ∣ n), hsizes,
    List.forall_mem_map]

/-- A body is not empty. -/
theorem bodies_ne_nil {ts : List TargetConfiguration} {bodies : List Bytes}
    (h : ts.mapM targetBody = .ok bodies) : ∀ body ∈ bodies, body ≠ [] := by
  intro body hbody hnil
  have hmem := List.mem_map_of_mem (f := List.length) hbody
  rw [map_length_bodies h] at hmem
  obtain ⟨t, -, hsize⟩ := List.mem_map.mp hmem
  rw [hnil, bodySize, List.length_nil] at hsize
  omega

/-- Decoding the text of some bytes. -/
theorem decodeB64_encode (data : Bytes) (label : String) :
    decodeB64 ((Base64.encode data).map .char) label = .ok data := by
  rw [decodeB64, PyStr.mapM_char?_eq_some.mpr rfl, Option.bind_some, Base64.decode_encode]

/-- The targets are written in ascending order, each of them once. -/
theorem sortedTargets_sorted (targets : Dict Int TargetConfiguration) :
    (sortedTargets targets).Perm targets.values ∧
      (sortedTargets targets).Pairwise fun a b ↦ a.targetIdentifier ≤ b.targetIdentifier := by
  refine ⟨List.perm_insertionSort _ _, ?_⟩
  have htotal : Std.Total fun a b : TargetConfiguration ↦ a.targetIdentifier ≤ b.targetIdentifier :=
    ⟨fun a b ↦ Int.le_total _ _⟩
  have htrans : IsTrans TargetConfiguration fun a b ↦ a.targetIdentifier ≤ b.targetIdentifier :=
    ⟨fun _ _ _ hab hbc ↦ Int.le_trans hab hbc⟩
  exact List.pairwise_insertionSort _ _

/-- **The list can be split into its targets again if and only if no target but the last one
takes a multiple of 255 bytes.** -/
theorem splits_iff (targets : Dict Int TargetConfiguration) (value : PyStr)
    (h : targetListValue targets = .ok value) :
    (sortedTargets targets).Perm targets.values ∧
      (sortedTargets targets).Pairwise (fun a b ↦ a.targetIdentifier ≤ b.targetIdentifier) ∧
      (Splits targets value ↔
        ∀ t ∈ (sortedTargets targets).dropLast, ¬255 ∣ bodySize t) := by
  obtain ⟨hperm, hsorted⟩ := sortedTargets_sorted targets
  obtain ⟨parts, hparts, h⟩ := bind_eq_ok.mp h
  obtain rfl := Except.ok.inj h
  obtain ⟨bodies, hbodies, hflatten⟩ := mapM_targetValue hparts
  have hdecode := Tlv8.decodeList_flatMap tcListTargetConfiguration (bodies_ne_nil hbodies)
  have hget : ∀ vs : List Bytes, (vs.map (Tlv8.single tcListTargetConfiguration)).map
      (·.get tcListTargetConfiguration) = vs.map some := by
    intro vs
    rw [List.map_map]
    exact List.map_congr_left fun v _ ↦ Tlv8.collect_segmentsOf _ v
  refine ⟨hperm, hsorted, ?_⟩
  rw [← separated_bodies hbodies, ← Tlv8.merged_eq_iff]
  constructor
  · rintro ⟨data, items, bodies', hdata, hitems, hbodies', heq⟩
    rw [decodeB64_encode] at hdata
    obtain rfl := Except.ok.inj hdata
    rw [hflatten, hdecode] at hitems
    obtain rfl := Except.ok.inj hitems
    obtain rfl := Except.ok.inj (hbodies.symm.trans hbodies')
    rw [hget] at heq
    exact List.map_injective_iff.mpr (Option.some_injective _) heq
  · intro hmerged
    refine ⟨_, _, bodies, decodeB64_encode _ _, hflatten ▸ hdecode, hbodies, ?_⟩
    rw [hget, hmerged]

/-- The `ADD` of a target with a name of the letter `A`. -/
def addNamed (identifier length : UInt8) : PyStr :=
  let config : Bytes := [1, 4, identifier, 0, 0, 0, 2, length] ++ .replicate length.toNat 0x41
  (Base64.encode ([1, 1, 2, 2, UInt8.ofNat config.length] ++ config)).map .char

/-- Two targets, of which the first has a name of 247 bytes, come back as one. -/
theorem not_splits_of_long_name :
    ∃ r value, (remotes .documents .verbatim none).exec (.new .documents none)
        [.start, .targetListWrite (addNamed 1 247) (some ⟨"hub", 1⟩) true,
          .targetListWrite (addNamed 2 4) (some ⟨"hub", 1⟩) true] = some r ∧
      targetListValue r.targets = .ok value ∧ ¬Splits r.targets value := by
  generalize hrun : (remotes .documents .verbatim none).exec (.new .documents none) _ = r
  have hr : r.map (fun r ↦ ((targetListValue r.targets).toOption.isSome,
      (targetListValue r.targets >>= (decodeB64 · "TargetControlList") >>=
        (Tlv8.decodeList · tcListTargetConfiguration)).toOption.map List.length,
      ((sortedTargets r.targets).mapM targetBody).toOption.map List.length)) =
      some (true, some 1, some 2) := by
    rw [← hrun]
    decide +kernel
  obtain ⟨r, rfl, hlist⟩ := Option.map_eq_some_iff.mp hr
  obtain ⟨hvalue, hcounts⟩ := Prod.mk.inj hlist
  obtain ⟨hitems, hbodies⟩ := Prod.mk.inj hcounts
  obtain ⟨value, hvalue⟩ := Option.isSome_iff_exists.mp hvalue
  obtain hvalue := toOption_eq_some.mp hvalue
  refine ⟨r, value, rfl, hvalue, ?_⟩
  rintro ⟨data, items, bodies, hdata, hsplit, hall, heq⟩
  -- one item, but two targets
  rw [hvalue, bind_ok, hdata, bind_ok, hsplit] at hitems
  rw [hall] at hbodies
  have hone : items.length = 1 := Option.some.inj hitems
  have htwo : bodies.length = 2 := Option.some.inj hbodies
  have hlength := congrArg List.length heq
  rw [List.length_map, List.length_map, hone, htwo] at hlength
  cases hlength

/-- Two targets with short names come back as two. -/
theorem splits_iff_short :
    ∃ r value, (remotes .documents .verbatim none).exec (.new .documents none)
        [.start, .targetListWrite (addNamed 2 3) (some ⟨"hub", 1⟩) true,
          .targetListWrite (addNamed 1 4) (some ⟨"hub", 1⟩) true] = some r ∧
      (sortedTargets r.targets).map bodySize = [12, 11] ∧
      (sortedTargets r.targets).Perm r.targets.values ∧
      (sortedTargets r.targets).Pairwise (fun a b ↦ a.targetIdentifier ≤ b.targetIdentifier) ∧
      (Splits r.targets value ↔
        ∀ t ∈ (sortedTargets r.targets).dropLast, ¬255 ∣ bodySize t) := by
  generalize hrun : (remotes .documents .verbatim none).exec (.new .documents none) _ = r
  have hr : r.map (fun r ↦ ((targetListValue r.targets).toOption.isSome,
      (sortedTargets r.targets).map bodySize)) = some (true, [12, 11]) := by
    rw [← hrun]
    decide +kernel
  obtain ⟨r, rfl, hlist⟩ := Option.map_eq_some_iff.mp hr
  obtain ⟨hvalue, hsizes⟩ := Prod.mk.inj hlist
  obtain ⟨value, hvalue⟩ := Option.isSome_iff_exists.mp hvalue
  exact ⟨r, value, rfl, hsizes, splits_iff r.targets value (toOption_eq_some.mp hvalue)⟩

end AtvRemote.Remote
