import AtvRemote.Tlv8

/-!
# Lists under one type

What `decode_list` makes of values that `encode` wrote one behind the other under one type.
Nothing stands between two values, and an entry of 255 bytes is continued by the next one of
its type; so a value whose length is a multiple of 255 runs into the one behind it
(`merged`, `decodeList_flatMap`).
-/

namespace AtvRemote.Tlv8

open Lib

/-! ## The segments of a value -/

/-- A value of one entry. -/
theorem segmentsOf_of_le (tag : UInt8) {value : Bytes} (h : value.length ≤ 255) :
    segmentsOf tag value = [⟨tag, value⟩] := by
  cases value with
  | nil => rfl
  | cons b bs =>
      have hchunks : chunks tlvMaxChunk (b :: bs) = chunks 255 (b :: bs) := rfl
      rw [segmentsOf, List.isEmpty_cons, if_neg Bool.false_ne_true, hchunks]
      rcases Nat.lt_or_eq_of_le h with hlt | heq
      · rw [chunks_of_lt hlt]
        rfl
      · have hdrop : (b :: bs).drop 255 = [] := List.drop_of_length_le h
        have htake : (b :: bs).take 255 = b :: bs := List.take_of_length_le h
        rw [chunks_of_le (by decide) (Nat.le_of_eq heq.symm), hdrop]
        simp only [htake]
        rfl

/-- The first entry of a value of several. -/
theorem segmentsOf_of_lt (tag : UInt8) {value : Bytes} (h : 255 < value.length) :
    segmentsOf tag value = ⟨tag, value.take 255⟩ :: segmentsOf tag (value.drop 255) := by
  have hne : value.isEmpty = false := by
    cases value with
    | nil => cases h
    | cons => rfl
  have hdrop : (value.drop 255).isEmpty = false := by
    rw [← Bool.not_eq_true, List.isEmpty_iff]
    exact List.ne_nil_of_length_pos (by rw [List.length_drop]; omega)
  have hchunks : chunks tlvMaxChunk value = chunks 255 value := rfl
  rw [segmentsOf, segmentsOf, hne, hdrop, if_neg Bool.false_ne_true, if_neg Bool.false_ne_true,
    hchunks, chunks_of_le (by decide) (Nat.le_of_lt h)]
  rfl

/-- Induction along the entries of a value. -/
theorem value_induction {motive : Bytes → Prop} (short : ∀ v : Bytes, v.length ≤ 255 → motive v)
    (long : ∀ v : Bytes, 255 < v.length → motive (v.drop 255) → motive v) (v : Bytes) :
    motive v :=
  chunk_induction (Nat.succ_pos 254) short long v

/-- A value whose length is a multiple of 255 runs into the one behind it. -/
theorem segmentsOf_append (tag : UInt8) {v w : Bytes} (hv : v ≠ []) (hw : w ≠ [])
    (hdvd : 255 ∣ v.length) : segmentsOf tag (v ++ w) = segmentsOf tag v ++ segmentsOf tag w := by
  induction v using value_induction with
  | short v hle =>
      have hpos := List.length_pos_iff.mpr hv
      have heq : v.length = 255 := Nat.le_antisymm hle (Nat.le_of_dvd hpos hdvd)
      have hlong : 255 < (v ++ w).length := by
        have hpos := List.length_pos_iff.mpr hw
        rw [List.length_append]
        omega
      rw [segmentsOf_of_lt tag hlong, segmentsOf_of_le tag hle, List.take_left' heq,
        List.drop_left' heq]
      rfl
  | long v hlt ih =>
      have hlong : 255 < (v ++ w).length := by
        rw [List.length_append]
        omega
      have hdrop : v.drop 255 ≠ [] :=
        List.ne_nil_of_length_pos (by rw [List.length_drop]; omega)
      have hrest : 255 ∣ (v.drop 255).length := by
        rw [List.length_drop]
        exact Nat.dvd_sub hdvd (Nat.dvd_refl _)
      rw [segmentsOf_of_lt tag hlong, segmentsOf_of_lt tag hlt,
        List.take_append_of_le_length (Nat.le_of_lt hlt),
        List.drop_append_of_le_length (Nat.le_of_lt hlt), ih hdrop hrest]
      rfl

/-- No entry is longer than its length byte can say. -/
theorem length_segmentsOf {tag : UInt8} {value : Bytes} :
    ∀ s ∈ segmentsOf tag value, s.value.length ≤ 255 := by
  induction value using value_induction with
  | short v hle =>
      rw [segmentsOf_of_le tag hle]
      exact List.forall_mem_singleton.mpr hle
  | long v hlt ih =>
      rw [segmentsOf_of_lt tag hlt]
      refine List.forall_mem_cons.mpr ⟨?_, ih⟩
      exact List.length_take_le _ _

/-- The last segment of a value is full. -/
def EndsFull (value : Bytes) : Prop := value ≠ [] ∧ tlvMaxChunk ∣ value.length

/-- A value of one segment ends in a full one exactly when it has 255 bytes. -/
theorem endsFull_of_le {value : Bytes} (h : value.length ≤ 255) :
    EndsFull value ↔ value.length = tlvMaxChunk := by
  constructor
  · rintro ⟨hne, hdvd⟩
    exact Nat.le_antisymm h (Nat.le_of_dvd (List.length_pos_iff.mpr hne) hdvd)
  · intro heq
    exact ⟨List.ne_nil_of_length_pos (by rw [heq]; decide), ⟨1, by rw [heq, Nat.mul_one]⟩⟩

/-- Without its first segment, a value ends as it did. -/
theorem endsFull_drop {value : Bytes} (h : 255 < value.length) :
    EndsFull (value.drop 255) ↔ EndsFull value := by
  have hne : value ≠ [] := List.ne_nil_of_length_pos (by omega)
  have hne' : value.drop 255 ≠ [] :=
    List.ne_nil_of_length_pos (by rw [List.length_drop]; omega)
  have hdvd : tlvMaxChunk ∣ (value.drop 255).length ↔ tlvMaxChunk ∣ value.length := by
    rw [List.length_drop]
    exact ⟨fun h' ↦ (Nat.dvd_sub_iff_left (Nat.le_of_lt h) (Nat.dvd_refl _)).mp h',
      fun h' ↦ Nat.dvd_sub h' (Nat.dvd_refl _)⟩
  rw [EndsFull, EndsFull, hdvd]
  exact and_congr_left fun _ ↦ iff_of_true hne' hne

/-! ## Parsing -/

theorem segmentsAux_toBytes {ss : List TLVSegment} (h : ∀ s ∈ ss, s.value.length ≤ 255) {n : Nat}
    (hn : (ss.flatMap TLVSegment.toBytes).length ≤ n) :
    segmentsAux n (ss.flatMap TLVSegment.toBytes) = .ok ss := by
  induction ss generalizing n with
  | nil => cases n <;> rfl
  | cons s ss ih =>
      obtain ⟨hs, hss⟩ := List.forall_mem_cons.mp h
      have hlength : (UInt8.ofNat s.value.length).toNat = s.value.length := by
        rw [UInt8.toNat_ofNat', Nat.mod_eq_of_lt (by omega)]
      rw [List.flatMap_cons, List.length_append] at hn
      cases n with
      | zero =>
          rw [TLVSegment.toBytes, List.length_cons] at hn
          omega
      | succ n =>
          have hrest : (ss.flatMap TLVSegment.toBytes).length ≤ n := by
            rw [TLVSegment.toBytes, List.length_cons] at hn
            omega
          have hshort : ¬(s.value ++ ss.flatMap TLVSegment.toBytes).length < s.value.length := by
            rw [List.length_append]
            omega
          rw [List.flatMap_cons, TLVSegment.toBytes, List.cons_append, List.cons_append,
            segmentsAux, hlength, if_neg hshort, List.drop_left, List.take_left, ih hss hrest]
          rfl

/-- Parsing gives the entries back. -/
theorem segments_toBytes {ss : List TLVSegment} (h : ∀ s ∈ ss, s.value.length ≤ 255) :
    segments (ss.flatMap TLVSegment.toBytes) = .ok ss :=
  segmentsAux_toBytes h (Nat.le_refl _)

/-! ## One value -/

/-- The entry is full, and of the type. -/
def Full (tag : UInt8) (s : TLVSegment) : Prop := s.tag = tag ∧ s.value.length = tlvMaxChunk

instance (tag : UInt8) (s : TLVSegment) : Decidable (Full tag s) := instDecidableAnd

/-- A value that continues one. -/
theorem collect_continued {tag : UInt8} {value before : Bytes} {p : TLVSegment} (hp : Full tag p)
    {result : Dict UInt8 Bytes} (hbefore : result.get tag = some before) :
    (collect (some p) result (segmentsOf tag value)).get tag = some (before ++ value) := by
  induction value using value_induction generalizing p result before with
  | short v hle =>
      rw [segmentsOf_of_le tag hle]
      simp [collect, hp.1, hp.2, hbefore]
  | long v hlt ih =>
      have hfull : Full tag ⟨tag, v.take 255⟩ :=
        ⟨rfl, List.length_take_of_le (Nat.le_of_lt hlt)⟩
      rw [segmentsOf_of_lt tag hlt]
      simp only [collect, Option.any_some, hp.1, hp.2, hbefore, decide_true, Bool.and_self]
      rw [ih hfull (Dict.get_set_self _ _ _), List.append_assoc, List.take_append_drop]

/-- The entries of a value give it back. -/
theorem collect_segmentsOf (tag : UInt8) (value : Bytes) :
    (collect none .empty (segmentsOf tag value)).get tag = some value := by
  rcases Nat.lt_or_ge 255 value.length with h | h
  · have hfull : Full tag ⟨tag, value.take 255⟩ :=
      ⟨rfl, List.length_take_of_le (Nat.le_of_lt h)⟩
    rw [segmentsOf_of_lt tag h, collect]
    refine (collect_continued hfull (Dict.get_set_self _ _ _)).trans ?_
    exact congrArg some (List.take_append_drop _ _)
  · rw [segmentsOf_of_le tag h]
    exact Dict.get_set_self _ _ _

/-! ## Several values -/

/-- The values that `decode_list` sees. -/
def merged : List Bytes → List Bytes
  | [] => []
  | v :: vs => match merged vs with
      | [] => [v]
      | w :: ws => if 255 ∣ v.length then (v ++ w) :: ws else v :: w :: ws

/-- A value is the last one, or it ends in an entry that is not full. -/
def Separated (vs : List Bytes) : Prop := ∀ v ∈ vs.dropLast, ¬255 ∣ v.length

theorem merged_ne_nil {vs : List Bytes} (h : ∀ v ∈ vs, v ≠ []) : ∀ v ∈ merged vs, v ≠ [] := by
  induction vs with
  | nil => exact h
  | cons v vs ih =>
      obtain ⟨hv, hvs⟩ := List.forall_mem_cons.mp h
      rw [merged]
      split
      · exact List.forall_mem_singleton.mpr hv
      · next w ws heq =>
        have ih := ih hvs
        rw [heq] at ih
        split
        · refine List.forall_mem_cons.mpr ⟨fun hnil ↦ hv (List.append_eq_nil_iff.mp hnil).1, ?_⟩
          exact (List.forall_mem_cons.mp ih).2
        · exact List.forall_mem_cons.mpr ⟨hv, ih⟩

/-- The values that are seen have the same entries. -/
theorem flatMap_merged (tag : UInt8) {vs : List Bytes} (h : ∀ v ∈ vs, v ≠ []) :
    (merged vs).flatMap (segmentsOf tag) = vs.flatMap (segmentsOf tag) := by
  induction vs with
  | nil => rfl
  | cons v vs ih =>
      obtain ⟨hv, hvs⟩ := List.forall_mem_cons.mp h
      have hne := merged_ne_nil hvs
      rw [List.flatMap_cons, ← ih hvs, merged]
      split
      · next heq =>
        rw [heq]
        rfl
      · next w ws heq =>
        rw [heq] at hne ⊢
        split
        · next hdvd =>
          rw [List.flatMap_cons, segmentsOf_append tag hv (List.forall_mem_cons.mp hne).1 hdvd,
            List.flatMap_cons, List.append_assoc]
        · rfl

/-- What is seen is separated. -/
theorem separated_merged (vs : List Bytes) : Separated (merged vs) := by
  induction vs with
  | nil => exact nofun
  | cons v vs ih =>
      rw [merged]
      split
      · exact nofun
      · next w ws heq =>
        rw [heq] at ih
        split
        · next hdvd =>
          cases ws with
          | nil => exact nofun
          | cons w' ws =>
              obtain ⟨hw, hws⟩ := List.forall_mem_cons.mp ih
              refine List.forall_mem_cons.mpr ⟨fun h ↦ hw ?_, hws⟩
              rw [List.length_append] at h
              exact (Nat.dvd_add_right hdvd).mp h
        · next hdvd => exact List.forall_mem_cons.mpr ⟨hdvd, ih⟩

/-- **Values are seen as they are when no value but the last is a multiple of 255 long.** -/
theorem merged_eq_iff (vs : List Bytes) : merged vs = vs ↔ Separated vs := by
  constructor
  · intro h
    rw [← h]
    exact separated_merged vs
  · intro h
    induction vs with
    | nil => rfl
    | cons v vs ih =>
        cases vs with
        | nil => rfl
        | cons w ws =>
            obtain ⟨hv, hvs⟩ := List.forall_mem_cons.mp h
            rw [merged, ih hvs]
            exact if_neg hv

/-! ## `decode_list` -/

/-- A value that continues a group. -/
theorem groupItems_continued {tag : UInt8} {value : Bytes} {p : TLVSegment} (hp : Full tag p)
    (current rest : List TLVSegment) :
    ∃ last, (Full tag last ↔ EndsFull value) ∧
      groupItems tag (some p) current (segmentsOf tag value ++ rest) =
        groupItems tag (some last) (current ++ segmentsOf tag value) rest := by
  induction value using value_induction generalizing p current with
  | short v hle =>
      refine ⟨⟨tag, v⟩, (and_iff_right rfl).trans (endsFull_of_le hle).symm, ?_⟩
      rw [segmentsOf_of_le tag hle, List.singleton_append, groupItems]
      simp [hp.1, hp.2]
  | long v hlt ih =>
      have hfull : Full tag ⟨tag, v.take 255⟩ :=
        ⟨rfl, List.length_take_of_le (Nat.le_of_lt hlt)⟩
      obtain ⟨last, hlast, heq⟩ := ih hfull (current ++ [⟨tag, v.take 255⟩])
      refine ⟨last, hlast.trans (endsFull_drop hlt), ?_⟩
      rw [segmentsOf_of_lt tag hlt, List.cons_append, groupItems]
      simp only [Option.any_some, hp.1, hp.2, decide_true, Bool.and_self, Bool.not_true,
        Bool.and_false, Bool.false_eq_true, if_false]
      rw [heq, List.append_assoc]
      rfl

/-- A value that begins a group. -/
theorem groupItems_begun (tag : UInt8) (value : Bytes) (previous : Option TLVSegment)
    (rest : List TLVSegment) :
    ∃ last, (Full tag last ↔ EndsFull value) ∧
      groupItems tag previous [] (segmentsOf tag value ++ rest) =
        groupItems tag (some last) (segmentsOf tag value) rest := by
  rcases Nat.lt_or_ge 255 value.length with h | h
  · have hfull : Full tag ⟨tag, value.take 255⟩ :=
      ⟨rfl, List.length_take_of_le (Nat.le_of_lt h)⟩
    obtain ⟨last, hlast, heq⟩ := groupItems_continued hfull [⟨tag, value.take 255⟩] rest
    refine ⟨last, hlast.trans (endsFull_drop h), ?_⟩
    rw [segmentsOf_of_lt tag h, List.cons_append, groupItems]
    simp only [List.isEmpty_nil, Bool.not_true, Bool.and_false, Bool.false_and,
      Bool.false_eq_true, if_false]
    exact heq
  · refine ⟨⟨tag, value⟩, (and_iff_right rfl).trans (endsFull_of_le h).symm, ?_⟩
    rw [segmentsOf_of_le tag h, List.singleton_append, groupItems]
    simp

/-- A value has an entry. -/
theorem segmentsOf_eq_cons (tag : UInt8) (value : Bytes) :
    ∃ s more, segmentsOf tag value = s :: more ∧ s.tag = tag := by
  rcases Nat.lt_or_ge 255 value.length with h | h
  · exact ⟨_, _, segmentsOf_of_lt tag h, rfl⟩
  · exact ⟨_, _, segmentsOf_of_le tag h, rfl⟩

/-- A group ends where an entry of its type comes behind one that is not full. -/
theorem groupItems_split {tag : UInt8} {last s : TLVSegment} (hlast : ¬Full tag last)
    (hs : s.tag = tag) {current : List TLVSegment} (hcurrent : current ≠ [])
    (rest : List TLVSegment) :
    groupItems tag (some last) current (s :: rest) =
      current :: groupItems tag none [] (s :: rest) := by
  have hnonempty : current.isEmpty = false := by
    rw [← Bool.not_eq_true, List.isEmpty_iff]
    exact hcurrent
  have hnot : (decide (last.tag = tag) && decide (last.value.length = tlvMaxChunk)) = false := by
    rw [← Bool.decide_and]
    exact decide_eq_false hlast
  rw [groupItems, groupItems]
  simp [hs, hnonempty, hnot]

/-- Each of several separated values is a group. -/
theorem groupItems_of_separated (tag : UInt8) {vs : List Bytes} (hvs : ∀ v ∈ vs, v ≠ [])
    (hseparated : Separated vs) :
    groupItems tag none [] (vs.flatMap (segmentsOf tag)) = vs.map (segmentsOf tag) := by
  induction vs with
  | nil => rfl
  | cons v vs ih =>
      obtain ⟨hv, hvs⟩ := List.forall_mem_cons.mp hvs
      obtain ⟨last, hlast, heq⟩ := groupItems_begun tag v none
        (vs.flatMap (segmentsOf tag))
      have hne : segmentsOf tag v ≠ [] := by
        obtain ⟨s, more, hcons, -⟩ := segmentsOf_eq_cons tag v
        rw [hcons]
        exact List.cons_ne_nil s more
      rw [List.flatMap_cons, heq]
      cases vs with
      | nil => exact if_neg fun h ↦ hne (List.isEmpty_iff.mp h)
      | cons w ws =>
          -- the last entry of `v` is not full, so that `w` begins a group
          obtain ⟨hdvd, hrest⟩ := List.forall_mem_cons.mp hseparated
          obtain ⟨s, more, hcons, hs⟩ := segmentsOf_eq_cons tag w
          have ih := ih hvs hrest
          rw [List.flatMap_cons, hcons, List.cons_append] at ih ⊢
          rw [groupItems_split (fun hfull ↦ hdvd (hlast.mp hfull).2) hs hne, ih]
          rfl

/-- **Each of the values that are seen is a group.** -/
theorem groupItems_eq (tag : UInt8) {vs : List Bytes} (hvs : ∀ v ∈ vs, v ≠ []) :
    groupItems tag none [] (vs.flatMap (segmentsOf tag)) =
      (merged vs).map (segmentsOf tag) := by
  rw [← flatMap_merged tag hvs]
  exact groupItems_of_separated tag (merged_ne_nil hvs) (separated_merged vs)

/-- What `decode` makes of the entries of one value. -/
def single (tag : UInt8) (value : Bytes) : Dict UInt8 Bytes :=
  collect none .empty (segmentsOf tag value)

theorem decode_segmentsOf (tag : UInt8) (value : Bytes) :
    decode ((segmentsOf tag value).flatMap TLVSegment.toBytes) = .ok (single tag value) := by
  rw [decode, segments_toBytes length_segmentsOf]
  rfl

/-- **`decode_list` gives back the values that are seen.** -/
theorem decodeList_flatMap (tag : UInt8) {vs : List Bytes} (hvs : ∀ v ∈ vs, v ≠ []) :
    decodeList (vs.flatMap fun v ↦ (segmentsOf tag v).flatMap TLVSegment.toBytes) tag =
      .ok ((merged vs).map (single tag)) := by
  have hparsed : segments (vs.flatMap fun v ↦ (segmentsOf tag v).flatMap TLVSegment.toBytes) =
      .ok (vs.flatMap (segmentsOf tag)) := by
    rw [← List.flatMap_assoc]
    refine segments_toBytes fun s hs ↦ ?_
    obtain ⟨v, -, hs⟩ := List.mem_flatMap.mp hs
    exact length_segmentsOf s hs
  rw [decodeList, hparsed, bind_ok, groupItems_eq tag hvs]
  generalize merged vs = ws
  induction ws with
  | nil => rfl
  | cons w ws ih =>
      rw [List.map_cons, List.mapM_cons, decode_segmentsOf, ih]
      rfl

end AtvRemote.Tlv8
