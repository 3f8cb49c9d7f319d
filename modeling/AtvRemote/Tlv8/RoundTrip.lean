import AtvRemote.Tlv8.Lists
import Mathlib.Data.List.Chain

/-!
# Round trips of TLV8

What is encoded is decoded (`decode_encode_entries`), and the items of a list are told apart
(`decodeList_encode_items`), as long as no value that ends in a full entry is followed by a
value of its type: an entry continues the one before it exactly when that one is full and of
its type.
-/

namespace AtvRemote.Tlv8

open Lib

/-! ## Entries -/

/-- The entries as the bytes that are written of them. -/
def normalizeEntries (entries : List (UInt8 × Obj)) : Except PyErr (List (UInt8 × Bytes)) :=
  entries.mapM fun e ↦ (normalizeValue e.2).map (e.1, ·)

/-- The segments of several entries. -/
def entrySegments (values : List (UInt8 × Bytes)) : List TLVSegment :=
  values.flatMap fun e ↦ segmentsOf e.1 e.2

/-- What stands in the last entry of a type. -/
def lastValue (values : List (UInt8 × Bytes)) (tag : UInt8) : Option Bytes :=
  (values.reverse.find? fun e ↦ e.1 = tag).map Prod.snd

/-- No value that ends in a full segment has a value of its type behind it. -/
def Apart (values : List (UInt8 × Bytes)) : Prop :=
  values.IsChain fun e e' ↦ ¬(EndsFull e.2 ∧ e'.1 = e.1)

theorem encode_eq (entries : List (UInt8 × Obj)) :
    encode entries = (normalizeEntries entries).map fun values ↦
      (entrySegments values).flatMap TLVSegment.toBytes := by
  have hentry : (fun e : UInt8 × Obj ↦ encodeEntry e.1 e.2) = fun e ↦
      ((normalizeValue e.2).map (e.1, ·)).map fun v ↦
        (segmentsOf v.1 v.2).flatMap TLVSegment.toBytes := by
    funext e
    rw [encodeEntry]
    cases normalizeValue e.2 <;> rfl
  rw [encode, hentry, mapM_map, normalizeEntries]
  cases entries.mapM fun e ↦ (normalizeValue e.2).map (e.1, ·) with
  | error err => rfl
  | ok values => exact congrArg Except.ok List.flatMap_assoc.symm

theorem length_entrySegments (values : List (UInt8 × Bytes)) :
    ∀ s ∈ entrySegments values, s.value.length ≤ 255 := by
  intro s hs
  obtain ⟨e, -, hs⟩ := List.mem_flatMap.mp hs
  exact length_segmentsOf s hs

theorem decode_entrySegments (values : List (UInt8 × Bytes)) :
    decode ((entrySegments values).flatMap TLVSegment.toBytes) =
      .ok (collect none .empty (entrySegments values)) := by
  rw [decode, segments_toBytes (length_entrySegments values)]
  rfl

/-! ## Collecting -/

/-- Behind a full segment of its type, a value is added to what there is. -/
theorem collect_more {tag : UInt8} (value before : Bytes) {p : TLVSegment} (hp : Full tag p)
    (result : Dict UInt8 Bytes) (rest : List TLVSegment) :
    ∃ last, last.tag = tag ∧ (last.value.length = tlvMaxChunk ↔ EndsFull value) ∧
      collect (some p) (result.set tag before) (segmentsOf tag value ++ rest) =
        collect (some last) (result.set tag (before ++ value)) rest := by
  induction value using value_induction generalizing p before with
  | short v hle =>
      refine ⟨⟨tag, v⟩, rfl, (endsFull_of_le hle).symm, ?_⟩
      rw [segmentsOf_of_le tag hle, List.singleton_append, collect]
      simp [hp.1, hp.2, Dict.set_set]
  | long v hlt ih =>
      have hfull : Full tag ⟨tag, v.take 255⟩ :=
        ⟨rfl, List.length_take_of_le (Nat.le_of_lt hlt)⟩
      obtain ⟨last, htag, hlast, heq⟩ := ih (before ++ v.take 255) hfull
      refine ⟨last, htag, hlast.trans (endsFull_drop hlt), ?_⟩
      rw [List.append_assoc, List.take_append_drop] at heq
      rw [segmentsOf_of_lt tag hlt, List.cons_append, collect, ← heq]
      simp [hp.1, hp.2, Dict.set_set]

/-- Behind anything else, a value replaces what there is. -/
theorem collect_entry (tag : UInt8) (value : Bytes) {previous : Option TLVSegment}
    (hprevious : ∀ p ∈ previous, ¬Full tag p) (result : Dict UInt8 Bytes)
    (rest : List TLVSegment) :
    ∃ last, last.tag = tag ∧ (last.value.length = tlvMaxChunk ↔ EndsFull value) ∧
      collect previous result (segmentsOf tag value ++ rest) =
        collect (some last) (result.set tag value) rest := by
  have hnot : (previous.any fun p ↦ tag = p.tag && p.value.length = tlvMaxChunk) = false := by
    cases previous with
    | none => rfl
    | some p =>
        have hp := hprevious p rfl
        rw [Option.any_some, ← Bool.decide_and]
        exact decide_eq_false fun h ↦ hp ⟨h.1.symm, h.2⟩
  rcases Nat.lt_or_ge 255 value.length with hlt | hle
  · have hfull : Full tag ⟨tag, value.take 255⟩ :=
      ⟨rfl, List.length_take_of_le (Nat.le_of_lt hlt)⟩
    obtain ⟨last, htag, hlast, heq⟩ := collect_more (value.drop 255)
      (value.take 255) hfull result rest
    refine ⟨last, htag, hlast.trans (endsFull_drop hlt), ?_⟩
    rw [List.take_append_drop] at heq
    rw [segmentsOf_of_lt tag hlt, List.cons_append, collect, ← heq]
    simp only [hnot]
  · refine ⟨⟨tag, value⟩, rfl, (endsFull_of_le hle).symm, ?_⟩
    rw [segmentsOf_of_le tag hle, List.singleton_append, collect]
    simp only [hnot]

/-- **Values that stand apart are collected one after the other.** -/
theorem collect_entries {values : List (UInt8 × Bytes)} (h : Apart values)
    {previous : Option TLVSegment} (hprevious : ∀ p ∈ previous, ∀ e ∈ values.head?, ¬Full e.1 p)
    (result : Dict UInt8 Bytes) :
    collect previous result (entrySegments values) = result.update values := by
  induction values generalizing previous result with
  | nil => rfl
  | cons e values ih =>
      obtain ⟨hhead, htail⟩ := List.isChain_cons.mp h
      obtain ⟨last, htag, hlast, heq⟩ := collect_entry e.1 e.2
        (fun p hp ↦ hprevious p hp e rfl) result (entrySegments values)
      rw [entrySegments, List.flatMap_cons]
      refine heq.trans (ih htail (fun p hp e' he' hfull ↦ ?_) _)
      obtain rfl : last = p := Option.some.inj hp
      exact hhead e' he' ⟨hlast.mp hfull.2, hfull.1.symm.trans htag⟩

/-- **What is encoded is decoded.**  When no value that ends in a full segment is followed by
one of its type, each type is given the value of its last entry, and no other type is given
one. -/
theorem decode_encode_entries (entries : List (UInt8 × Obj)) (values : List (UInt8 × Bytes))
    (hvalues : normalizeEntries entries = .ok values) (hapart : Apart values) :
    ∃ b d, encode entries = .ok b ∧ decode b = .ok d ∧
      ∀ tag, d.get tag = lastValue values tag := by
  refine ⟨_, _, by rw [encode_eq, hvalues]; rfl, decode_entrySegments values, fun tag ↦ ?_⟩
  rw [collect_entries hapart (fun p hp ↦ absurd hp (Option.not_mem_none p)), Dict.get_update_last,
    Dict.get_empty, Option.or_none, lastValue]

/-- An entry of 300 bytes, then two of one type, the last of which is empty. -/
theorem decode_encode_entries_long : ∃ b d,
    encode [(1, .bytes .bytes (List.replicate 300 7)), (2, .int 9), (2, .text "")] = .ok b ∧
      decode b = .ok d ∧ ∀ tag, d.get tag =
        lastValue [(1, List.replicate 300 7), (2, [9]), (2, [])] tag :=
  decode_encode_entries _ _ rfl (.cons_cons (fun h ↦ absurd h.2 (by decide))
    (.cons_cons (fun h ↦ absurd h.1.2 (by decide)) (.singleton _)))

/-! ## Items of a list -/

/-- An item of a list: an entry of the separator's type, then entries of other types, no two of
one type; and if there is nothing but the separator, it does not end in a full segment. -/
structure IsItem (separator : UInt8) (item : List (UInt8 × Bytes)) : Prop where
  first : ∃ value more, item = (separator, value) :: more
  distinct : (item.map Prod.fst).Nodup
  ends : ∀ value, item = [(separator, value)] → ¬EndsFull value

/-- Entries of distinct types stand apart. -/
theorem apart_of_nodup {item : List (UInt8 × Bytes)} (h : (item.map Prod.fst).Nodup) :
    Apart item := by
  have hpairwise := List.pairwise_map.mp h
  exact (hpairwise.imp fun hne hfull ↦ hne hfull.2.symm).isChain

/-- A value of another type goes into the group that is being read. -/
theorem groupItems_other {separator tag : UInt8} (htag : tag ≠ separator) (value : Bytes)
    (previous : Option TLVSegment) (current rest : List TLVSegment) :
    ∃ last, last.tag = tag ∧
      groupItems separator previous current (segmentsOf tag value ++ rest) =
        groupItems separator (some last) (current ++ segmentsOf tag value) rest := by
  induction value using value_induction generalizing previous current with
  | short v hle =>
      refine ⟨⟨tag, v⟩, rfl, ?_⟩
      rw [segmentsOf_of_le tag hle, List.singleton_append, groupItems]
      simp [htag]
  | long v hlt ih =>
      obtain ⟨last, hlast, heq⟩ := ih (some ⟨tag, v.take 255⟩) (current ++ [⟨tag, v.take 255⟩])
      refine ⟨last, hlast, ?_⟩
      rw [segmentsOf_of_lt tag hlt, List.cons_append, groupItems]
      simp only [htag, decide_false, Bool.false_and, Bool.false_eq_true, if_false]
      rw [heq, List.append_assoc]
      rfl

/-- So do several, and the group is then open for the next separator. -/
theorem groupItems_others {separator : UInt8} {more : List (UInt8 × Bytes)}
    (hmore : ∀ e ∈ more, e.1 ≠ separator) (last : TLVSegment)
    (hlast : more = [] → ¬Full separator last) (current rest : List TLVSegment) :
    ∃ last', ¬Full separator last' ∧
      groupItems separator (some last) current (entrySegments more ++ rest) =
        groupItems separator (some last') (current ++ entrySegments more) rest := by
  induction more generalizing last current with
  | nil => exact ⟨last, hlast rfl, by rw [entrySegments, List.flatMap_nil, List.append_nil]; rfl⟩
  | cons e more ih =>
      obtain ⟨he, hmore⟩ := List.forall_mem_cons.mp hmore
      obtain ⟨last₁, htag, heq⟩ := groupItems_other he e.2 (some last) current
        (entrySegments more ++ rest)
      obtain ⟨last₂, hlast₂, heq₂⟩ := ih hmore last₁ (fun _ hfull ↦ he (htag.symm.trans hfull.1))
        (current ++ segmentsOf e.1 e.2)
      refine ⟨last₂, hlast₂, ?_⟩
      have hcons : entrySegments (e :: more) = segmentsOf e.1 e.2 ++ entrySegments more :=
        List.flatMap_cons ..
      rw [hcons, List.append_assoc, heq, heq₂, List.append_assoc]

/-- An item is a group. -/
theorem groupItems_item {separator : UInt8} {item : List (UInt8 × Bytes)}
    (h : IsItem separator item) (previous : Option TLVSegment) (rest : List TLVSegment) :
    ∃ last, ¬Full separator last ∧
      groupItems separator previous [] (entrySegments item ++ rest) =
        groupItems separator (some last) (entrySegments item) rest := by
  obtain ⟨value, more, rfl⟩ := h.first
  have hcons : entrySegments ((separator, value) :: more) =
      segmentsOf separator value ++ entrySegments more := List.flatMap_cons ..
  have hothers : ∀ e ∈ more, e.1 ≠ separator := fun e he heq ↦
    (List.nodup_cons.mp h.distinct).1 (List.mem_map.mpr ⟨e, he, heq⟩)
  obtain ⟨last, hlast, heq⟩ := groupItems_begun separator value previous
    (entrySegments more ++ rest)
  obtain ⟨last', hlast', heq'⟩ := groupItems_others hothers last
    (fun hnil hfull ↦ h.ends value (by rw [hnil]) (hlast.mp hfull))
    (segmentsOf separator value) rest
  exact ⟨last', hlast', by rw [hcons, List.append_assoc, heq, heq']⟩

/-- The first segment of an item is of the separator's type. -/
theorem IsItem.entrySegments_eq {separator : UInt8} {item : List (UInt8 × Bytes)}
    (h : IsItem separator item) :
    ∃ s more, entrySegments item = s :: more ∧ s.tag = separator := by
  obtain ⟨value, more, rfl⟩ := h.first
  obtain ⟨s, rest, hcons, hs⟩ := segmentsOf_eq_cons separator value
  exact ⟨s, rest ++ entrySegments more, by
    rw [entrySegments, List.flatMap_cons, hcons, List.cons_append]; rfl, hs⟩

/-- **The items of a list are its groups.** -/
theorem groupItems_items {separator : UInt8} {items : List (List (UInt8 × Bytes))}
    (h : ∀ item ∈ items, IsItem separator item) :
    groupItems separator none [] (items.flatMap entrySegments) = items.map entrySegments := by
  induction items with
  | nil => rfl
  | cons item items ih =>
      obtain ⟨hitem, hitems⟩ := List.forall_mem_cons.mp h
      have ih := ih hitems
      obtain ⟨s₀, more₀, hcons₀, -⟩ := hitem.entrySegments_eq
      have hne : entrySegments item ≠ [] := by
        rw [hcons₀]
        exact List.cons_ne_nil s₀ more₀
      obtain ⟨last, hlast, heq⟩ := groupItems_item hitem none (items.flatMap entrySegments)
      rw [List.flatMap_cons, heq]
      cases items with
      | nil => exact if_neg fun hnil ↦ hne (List.isEmpty_iff.mp hnil)
      | cons next items =>
          obtain ⟨s, more, hcons, hs⟩ := (hitems next (List.mem_cons_self ..)).entrySegments_eq
          rw [List.flatMap_cons, hcons, List.cons_append] at ih ⊢
          rw [groupItems_split hlast hs hne, ih]
          rfl

theorem decode_item {item : List (UInt8 × Bytes)} (h : (item.map Prod.fst).Nodup) :
    decode ((entrySegments item).flatMap TLVSegment.toBytes) = .ok (Dict.ofItems item) := by
  rw [decode_entrySegments, collect_entries (apart_of_nodup h)
    (fun p hp ↦ absurd hp (Option.not_mem_none p))]
  rfl

/-- The bytes of several items are decoded to the items. -/
theorem decodeList_items {separator : UInt8} {items : List (List (UInt8 × Bytes))}
    (h : ∀ item ∈ items, IsItem separator item) :
    decodeList ((items.flatMap entrySegments).flatMap TLVSegment.toBytes) separator =
      .ok (items.map Dict.ofItems) := by
  have hlength : ∀ s ∈ items.flatMap entrySegments, s.value.length ≤ 255 := by
    intro s hs
    obtain ⟨item, -, hs⟩ := List.mem_flatMap.mp hs
    exact length_entrySegments item s hs
  rw [decodeList, segments_toBytes hlength, bind_ok, groupItems_items h]
  clear hlength
  induction items with
  | nil => rfl
  | cons item items ih =>
      obtain ⟨hitem, hitems⟩ := List.forall_mem_cons.mp h
      rw [List.map_cons, List.mapM_cons, decode_item hitem.distinct, ih hitems]
      rfl

/-- **The items of a list are told apart.**  Items that begin with an entry of the separator's
type, have entries of distinct types and are no separator alone that ends in a full segment
come back one by one, each as the mapping that it is. -/
theorem decodeList_encode_items (separator : UInt8) (items : List (List (UInt8 × Obj)))
    (values : List (List (UInt8 × Bytes))) (hvalues : items.mapM normalizeEntries = .ok values)
    (hitems : ∀ item ∈ values, IsItem separator item) :
    ∃ parts dicts, items.mapM encode = .ok parts ∧
      decodeList parts.flatten separator = .ok dicts ∧
      List.Forall₂ (fun d item ↦ ∀ tag, d.get tag = (item.find? fun e ↦ e.1 = tag).map Prod.snd)
        dicts values := by
  have hencode : items.mapM encode = .ok (values.map fun item ↦
      (entrySegments item).flatMap TLVSegment.toBytes) := by
    rw [funext encode_eq, mapM_map, hvalues]
    rfl
  have hflatten : (values.map fun item ↦ (entrySegments item).flatMap TLVSegment.toBytes).flatten =
      (values.flatMap entrySegments).flatMap TLVSegment.toBytes := List.flatMap_assoc.symm
  refine ⟨_, values.map Dict.ofItems, hencode, ?_, ?_⟩
  · rw [hflatten]
    exact decodeList_items hitems
  · rw [List.forall₂_map_left_iff]
    exact List.forall₂_same.mpr fun item hitem tag ↦
      Dict.get_ofItems (hitems item hitem).distinct tag

/-- Two items; the separator of the first one takes two segments. -/
theorem decodeList_encode_items_long : ∃ parts dicts,
    [[(1, .bytes .bytes (List.replicate 300 7)), (2, .int 9)], [(1, .int 8)]].mapM encode =
        .ok parts ∧ decodeList parts.flatten 1 = .ok dicts ∧
      List.Forall₂ (fun d item ↦ ∀ tag, d.get tag = (item.find? fun e ↦ e.1 = tag).map Prod.snd)
        dicts [[(1, List.replicate 300 7), (2, [9])], [(1, [8])]] := by
  refine decodeList_encode_items 1 _ _ rfl (List.forall_mem_cons.mpr ⟨⟨⟨_, _, rfl⟩, by decide, ?_⟩,
    List.forall_mem_singleton.mpr ⟨⟨_, _, rfl⟩, by decide, ?_⟩⟩)
  · rintro value h
    cases h
  · rintro value h ⟨-, hdvd⟩
    cases h
    exact absurd hdvd (by decide)

end AtvRemote.Tlv8
