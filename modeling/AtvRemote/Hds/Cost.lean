import AtvRemote.Hds.Agreement
import AtvRemote.Hds.Calls
import AtvRemote.Hds.Inbound
import AtvRemote.Hds.Keys

/-!
# What a message can cost

A back-reference is one byte, and a container may be filled with them.  Still a message is no
larger than its bytes: each object in it has a tag of its own, and a back-reference only leads
to a scalar, never to a container.  What `n` bytes decode to is made of at most `n` objects, at
most `MAX_DEPTH + 1` deep, and its scalars are literals that are spelled out in the `n` bytes
(`frugal_of_decode`).  So every message that a connection dispatches is bounded by
`MAX_PAYLOAD_LENGTH`, whatever the other end sends (`messages_frugal`).
-/

namespace Lib

/-- What is decrypted is shorter than its ciphertext, by the tag. -/
def Aead.Shortens (A : Aead) (tagLength : Nat) : Prop :=
  ∀ key nonce data ad p, A.decrypt key nonce data ad = some p → p.length ≤ data.length - tagLength

end Lib

namespace AtvRemote

open Lib

namespace Obj

mutual

/-- How many objects an object is made of, itself included. -/
def size : Obj → Nat
  | .seq _ xs => sizeList xs + 1
  | .dict items => sizeItems items + 1
  | _ => 1

/-- `size` of the elements of an array. -/
def sizeList : List Obj → Nat
  | [] => 0
  | x :: xs => size x + sizeList xs

/-- `size` of the keys and the values of a dictionary. -/
def sizeItems : List (Obj × Obj) → Nat
  | [] => 0
  | (k, v) :: items => size k + (size v + sizeItems items)

end

/-- The characters of a string, or the bytes of a byte string. -/
def content : Obj → Nat
  | .str s => s.length
  | .bytes _ b => b.length
  | _ => 0

/-- The object is made of at most `n` objects, at most `MAX_DEPTH + 1` deep, and its scalars are
among at most `n` literals that have three characters for each of `n` bytes. -/
structure Frugal (n : Nat) (v : Obj) : Prop where
  size : v.size ≤ n
  height : v.height ≤ Hds.maxDepth + 1
  literals : ∃ literals : List Obj, literals.length ≤ n ∧ (literals.map content).sum ≤ 3 * n ∧
    ∀ x ∈ v.leaves, x.isScalar = true → x ∈ literals

theorem Frugal.mono {n n' : Nat} {v : Obj} (h : v.Frugal n) (hle : n ≤ n') : v.Frugal n' := by
  obtain ⟨literals, hlength, hcontent, hleaves⟩ := h.literals
  exact ⟨Nat.le_trans h.size hle, h.height, literals, Nat.le_trans hlength hle, by omega, hleaves⟩

theorem size_of_isScalar {x : Obj} (h : x.isScalar = true) : x.size = 1 := by
  cases x with
  | seq | dict => cases h
  | _ => simp only [size]

theorem height_of_isScalar {x : Obj} (h : x.isScalar = true) : x.height = 0 := by
  cases x with
  | seq | dict => cases h
  | _ => simp only [height]

theorem leaves_of_isScalar {x : Obj} (h : x.isScalar = true) : x.leaves = [x] := by
  cases x with
  | seq | dict => cases h
  | _ => simp only [leaves]

/-! ## One more entry -/

theorem sizeItems_append (items items' : List (Obj × Obj)) :
    sizeItems (items ++ items') = sizeItems items + sizeItems items' := by
  induction items with
  | nil => rw [List.nil_append, sizeItems, Nat.zero_add]
  | cons p items ih =>
      obtain ⟨k, v⟩ := p
      rw [List.cons_append, sizeItems, sizeItems, ih]
      omega

/-- Values that are replaced. -/
theorem sizeItems_map_le (items : List (Obj × Obj)) (k v : Obj)
    (hone : items.Pairwise fun p q ↦ p.1.pyEq k = true → q.1.pyEq k = false) :
    sizeItems (items.map fun p ↦ if p.1.pyEq k then (p.1, v) else p) ≤
      sizeItems items + v.size := by
  induction items with
  | nil => exact Nat.zero_le _
  | cons p items ih =>
      obtain ⟨k', v'⟩ := p
      obtain ⟨hfirst, hrest⟩ := List.pairwise_cons.mp hone
      rw [List.map_cons]
      split
      · next heq =>
        -- no other key is equal, and so the rest stays
        have hsame : (items.map fun p ↦ if p.1.pyEq k then (p.1, v) else p) = items := by
          refine (List.map_congr_left fun q hq ↦ ?_).trans (List.map_id _)
          rw [hfirst q hq heq]
          rfl
        rw [hsame]
        simp only [sizeItems]
        omega
      · have hle := ih hrest
        simp only [sizeItems]
        omega

/-- An assignment adds the key and the value at most. -/
theorem sizeItems_setItem_le {items : List (Obj × Obj)}
    (h : items.Pairwise fun p q ↦ p.1.pyEq q.1 = false) (k v : Obj) :
    sizeItems (setItem items k v) ≤ sizeItems items + (k.size + v.size) := by
  rw [setItem]
  split
  · have hle := sizeItems_map_le items k v (pairwise_pyEq h k)
    omega
  · rw [sizeItems_append, sizeItems, sizeItems]
    exact Nat.le_refl _

/-- An assignment keeps the keys different. -/
theorem pairwise_setItem {items : List (Obj × Obj)}
    (h : items.Pairwise fun p q ↦ p.1.pyEq q.1 = false) (k v : Obj) :
    (setItem items k v).Pairwise fun p q ↦ p.1.pyEq q.1 = false := by
  rw [setItem]
  split
  · refine List.pairwise_map.mpr (h.imp fun {p q} hne ↦ ?_)
    have hkey : ∀ p : Obj × Obj, (if p.1.pyEq k then (p.1, v) else p).1 = p.1 := by
      intro p
      split <;> rfl
    rwa [hkey, hkey]
  · next hnone =>
    refine List.pairwise_append.mpr ⟨h, List.pairwise_singleton _ _, fun p hp q hq ↦ ?_⟩
    rw [List.mem_singleton.mp hq]
    exact Bool.eq_false_iff.mpr fun heq ↦ hnone (List.any_eq_true.mpr ⟨p, hp, heq⟩)

theorem mem_leaves_setItem {items : List (Obj × Obj)} {k v x : Obj}
    (h : x ∈ leavesItems (setItem items k v)) :
    x ∈ leavesItems items ∨ x ∈ k.leaves ∨ x ∈ v.leaves := by
  obtain ⟨p, hp, hx⟩ := mem_leavesItems.mp h
  rw [setItem] at hp
  split at hp
  · obtain ⟨q, hq, rfl⟩ := List.mem_map.mp hp
    split at hx
    · exact hx.imp (fun hx ↦ mem_leavesItems.mpr ⟨q, hq, .inl hx⟩) .inr
    · exact .inl (mem_leavesItems.mpr ⟨q, hq, hx⟩)
  · rcases List.mem_append.mp hp with hp | hp
    · exact .inl (mem_leavesItems.mpr ⟨p, hp, hx⟩)
    · obtain rfl := List.mem_singleton.mp hp
      exact .inr hx

theorem heightItems_setItem_le {items : List (Obj × Obj)} {k v : Obj} {n : Nat}
    (hitems : heightItems items ≤ n) (hk : k.height ≤ n) (hv : v.height ≤ n) :
    heightItems (setItem items k v) ≤ n := by
  have hall := heightItems_le.mp hitems
  refine heightItems_le.mpr fun p hp ↦ ?_
  rw [setItem] at hp
  split at hp
  · obtain ⟨q, hq, rfl⟩ := List.mem_map.mp hp
    split
    · exact ⟨(hall q hq).1, hv⟩
    · exact hall q hq
  · rcases List.mem_append.mp hp with hp | hp
    · exact hall p hp
    · obtain rfl := List.mem_singleton.mp hp
      exact ⟨hk, hv⟩

end Obj

namespace Hds

/-! ## The characters of a literal -/

namespace Decoder

/-- What is made of `n` bytes has three characters for each of them and for its tag. -/
def Spells (n : Nat) (r : Except PyErr (Obj × Decoder)) : Prop :=
  ∀ x d, r = .ok (x, d) → d.rest = [] → x.content ≤ 3 * (n + 1)

namespace Spells

variable {n : Nat} {r r' : Except PyErr (Obj × Decoder)} {α : Type}

theorem ok {x : Obj} {d : Decoder} (h : x.content ≤ 3 * (n + 1)) : Spells n (.ok (x, d)) := by
  rintro y d' heq -
  cases heq
  exact h

theorem error (e : PyErr) : Spells n (.error e) := by
  rintro y d' ⟨⟩

theorem ite {c : Prop} [Decidable c] (h : Spells n r) (h' : Spells n r') :
    Spells n (if c then r else r') := by
  split
  · exact h
  · exact h'

/-- A container has no characters of its own. -/
theorem map {x : Except PyErr (α × Decoder)} {f : α → Obj} (h : ∀ a, (f a).content = 0) :
    Spells n (x.map fun p ↦ (f p.1, p.2)) := by
  rintro y d heq -
  obtain ⟨p, -, heq⟩ := map_eq_ok.mp heq
  cases heq
  rw [h]
  exact Nat.zero_le _

end Spells

section

variable {make : Bytes → Except PyErr Obj}

theorem spells_literal (d : Decoder) (n : Nat)
    (hmake : ∀ b x, b.length = n → make b = .ok x → x.content ≤ 3 * (n + 1)) :
    Spells d.rest.length (d.literal n make) := by
  intro x d' h hrest
  obtain ⟨⟨b, d₁⟩, hb, h⟩ := bind_eq_ok.mp h
  obtain ⟨y, hy, h⟩ := bind_eq_ok.mp h
  obtain ⟨rfl, rfl⟩ := Prod.mk.inj (Except.ok.inj h)
  obtain ⟨hlength, rfl⟩ := take_eq_ok hb
  have hle := hmake b y hlength hy
  rw [List.length_append]
  omega

theorem spells_sizedLiteral (d : Decoder) (width : Nat)
    (hmake : ∀ b x, make b = .ok x → x.content ≤ 3 * (b.length + 1)) :
    Spells d.rest.length (d.sizedLiteral width make) := by
  intro x d' h hrest
  obtain ⟨⟨n, d₁⟩, hn, hread⟩ := bind_eq_ok.mp h
  obtain ⟨⟨size, d₂⟩, hsize, hn⟩ := bind_eq_ok.mp hn
  obtain ⟨rfl, rfl⟩ := Prod.mk.inj (Except.ok.inj hn)
  obtain ⟨-, rfl⟩ := take_eq_ok hsize
  have hle := spells_literal d₂ (ofLE size) (fun b x hb hx ↦ hb ▸ hmake b x hx) x d' hread hrest
  rw [List.length_append]
  omega

theorem spells_terminatedLiteral (d : Decoder) (t : UInt8)
    (hmake : ∀ b x, make b = .ok x → x.content ≤ 3 * (b.length + 1)) :
    Spells d.rest.length (d.terminatedLiteral t make) := by
  intro x d' h hrest
  obtain ⟨⟨b, d₁⟩, hb, h⟩ := bind_eq_ok.mp h
  obtain ⟨y, hy, h⟩ := bind_eq_ok.mp h
  obtain ⟨rfl, rfl⟩ := Prod.mk.inj (Except.ok.inj h)
  rw [readTerminated] at hb
  split at hb
  · next bytes rest heq =>
    obtain ⟨rfl, rfl⟩ := Prod.mk.inj (Except.ok.inj hb)
    have hle := hmake bytes y hy
    rw [(splitTerminated_eq_some heq).1, List.length_append, List.length_append]
    omega
  · cases hb

end

/-- A string has no more characters than bytes. -/
theorem length_decodeUtf8_le {b : Bytes} {s : PyStr} (h : PyStr.decodeUtf8 b = some s) :
    s.length ≤ b.length := by
  obtain ⟨cs, hcs, rfl⟩ := Option.map_eq_some_iff.mp (PyStr.encodeUtf8_of_decodeUtf8 h)
  obtain rfl := PyStr.mapM_char?_eq_some.mp hcs
  rw [List.length_map, List.length_flatMap]
  clear h hcs
  induction cs with
  | nil => exact Nat.le_refl _
  | cons c cs ih =>
      have hpos : 0 < (String.utf8EncodeChar c).length :=
        String.length_utf8EncodeChar c ▸ Char.utf8Size_pos c
      rw [List.length_cons, List.map_cons, List.sum_cons]
      omega

theorem content_makeStr (b : Bytes) (x : Obj) (h : makeStr b = .ok x) :
    x.content ≤ 3 * (b.length + 1) := by
  rw [makeStr] at h
  split at h
  · next s hs =>
    cases h
    have hle := length_decodeUtf8_le hs
    rw [Obj.content]
    omega
  · cases h

theorem content_makeBytes (b : Bytes) (x : Obj) (h : makeBytes b = .ok x) :
    x.content ≤ 3 * (b.length + 1) := by
  cases h
  rw [Obj.content]
  omega

/-- A UUID is told in 16 bytes, and made into 36 characters. -/
theorem content_makeUuid (b : Bytes) (x : Obj) (hb : b.length = 16) (h : makeUuid b = .ok x) :
    x.content ≤ 3 * (16 + 1) := by
  cases h
  have hhex : (b.flatMap hexOfByte).length = 32 := by
    have htwo : b.map (fun c ↦ (hexOfByte c).length) = b.map fun _ ↦ 2 := rfl
    rw [List.length_flatMap, htwo, List.map_const', List.sum_replicate_nat, hb]
  rw [Obj.content, strOfUuid]
  simp only [List.length_append, List.length_take, List.length_drop, List.length_singleton, hhex]
  omega

/-- A number has no characters. -/
theorem spells_number (d : Decoder) (n : Nat) {make : Bytes → Except PyErr Obj}
    (hmake : ∀ b x, make b = .ok x → x.content = 0) :
    Spells d.rest.length (d.literal n make) :=
  spells_literal d n fun b x _ hx ↦ hmake b x hx ▸ Nat.zero_le _

theorem spells_ofTag {elem : Decoder → Except PyErr (Obj × Decoder)} (fuel tag : Nat)
    (data : Bytes) : Spells data.length (ofTag elem fuel tag ⟨data, []⟩) := by
  have hint : ∀ b x, makeInt b = .ok x → x.content = 0 := by
    rintro b x ⟨⟩
    rfl
  have hfloat : ∀ b x, makeFloat64 b = .ok x → x.content = 0 := by
    rintro b x ⟨⟩
    rfl
  have hfloat32 : ∀ b x, makeFloat32 b = .ok x → x.content = 0 := by
    rintro b x ⟨⟩
    rfl
  have hzero : ∀ {x : Obj} {d : Decoder}, x.content = 0 → Spells data.length (.ok (x, d)) :=
    fun h ↦ .ok (h ▸ Nat.zero_le _)
  rw [ofTag]
  refine .ite (.error _) (.ite (hzero rfl) (.ite (hzero rfl) (.ite (hzero rfl) ?_)))
  refine .ite (hzero rfl) (.ite (spells_literal _ 16 content_makeUuid) ?_)
  refine .ite (spells_number _ 8 hfloat) (.ite (hzero rfl) (.ite (hzero rfl) ?_))
  refine .ite (spells_number _ 1 hint) (.ite (spells_number _ 2 hint) ?_)
  refine .ite (spells_number _ 4 hint) (.ite (spells_number _ 8 hint) ?_)
  refine .ite (spells_number _ 4 hfloat32) (.ite (spells_number _ 8 hfloat) ?_)
  refine .ite (spells_literal _ _ fun b x hb hx ↦ hb ▸ content_makeStr b x hx) ?_
  refine .ite (spells_sizedLiteral _ _ content_makeStr) ?_
  refine .ite (spells_terminatedLiteral _ 0 content_makeStr) ?_
  refine .ite (spells_literal _ _ fun b x hb hx ↦ hb ▸ content_makeBytes b x hx) ?_
  refine .ite (spells_sizedLiteral _ _ content_makeBytes) ?_
  refine .ite (spells_terminatedLiteral _ _ content_makeBytes) (.ite (.error _) ?_)
  refine .ite (.map fun _ ↦ rfl) (.ite (.map fun _ ↦ rfl) ?_)
  exact .ite (.map fun _ ↦ rfl) (.ite (.map fun _ ↦ rfl) (.error _))

end Decoder

/-- The characters of a literal are told in its bytes. -/
theorem IsLiteral.content_le {tag : Nat} {data : Bytes} {x : Obj} (h : IsLiteral tag data x) :
    x.content ≤ 3 * (data.length + 1) := by
  have hread := h.2 (fun _ ↦ .error Decoder.outOfFuel) 0 [] []
  rw [List.append_nil] at hread
  exact Decoder.spells_ofTag 0 tag data x _ hread rfl

/-! ## What is read -/

/-- The objects of a table are scalars. -/
def Scalars (seen : List Obj) : Prop := ∀ x ∈ seen, x.isScalar = true

/-- Bytes that are read as `size` objects with the scalars `leaves`: an object for a byte, and each
scalar is a literal in the table. -/
structure Costs (seen : List Obj) (b : Bytes) (size : Nat) (leaves seen' : List Obj) : Prop where
  size : size ≤ b.length
  literals : ∃ new, seen' = seen ++ new ∧ Scalars new ∧ new.length ≤ b.length ∧
    (new.map Obj.content).sum ≤ 3 * b.length
  leaves : ∀ x ∈ leaves, x.isScalar = true → x ∈ seen'

namespace Costs

variable {seen seen₁ seen₂ leaves leaves' : List Obj} {b b' : Bytes} {size size' : Nat}

theorem nil (seen : List Obj) : Costs seen [] 0 [] seen where
  size := Nat.le_refl 0
  literals := ⟨[], (List.append_nil seen).symm, by rintro _ ⟨⟩, Nat.le_refl 0, Nat.le_refl 0⟩
  leaves := by rintro _ ⟨⟩

theorem scalars (h : Costs seen b size leaves seen₁) (hseen : Scalars seen) : Scalars seen₁ := by
  obtain ⟨new, rfl, hnew, -⟩ := h.literals
  exact List.forall_mem_append.mpr ⟨hseen, hnew⟩

/-- Fewer objects are less. -/
theorem mono (h : Costs seen b size leaves seen₁) (hsize : size' ≤ size)
    (hleaves : ∀ x ∈ leaves', x ∈ leaves) : Costs seen b size' leaves' seen₁ :=
  ⟨Nat.le_trans hsize h.size, h.literals, fun x hx ↦ h.leaves x (hleaves x hx)⟩

/-- The tag of a container. -/
theorem tag (h : Costs seen b size leaves seen₁) (t : UInt8) :
    Costs seen (t :: b) (size + 1) leaves seen₁ := by
  obtain ⟨new, hseen, hnew, hlength, hcontent⟩ := h.literals
  refine ⟨Nat.succ_le_succ h.size, ⟨new, hseen, hnew, Nat.le_succ_of_le hlength, ?_⟩, h.leaves⟩
  rw [List.length_cons]
  omega

/-- A tag that stands for an object which is no scalar, or is in the table. -/
theorem single (t : UInt8) {x : Obj} (hx : x.isScalar = true → x ∈ seen) :
    Costs seen [t] 1 [x] seen := by
  obtain ⟨hsize, hliterals, -⟩ := (Costs.nil seen).tag t
  refine ⟨hsize, hliterals, fun y hy hscalar ↦ ?_⟩
  obtain rfl := List.mem_singleton.mp hy
  exact hx hscalar

/-- A literal. -/
theorem literal (t : UInt8) {data : Bytes} {x : Obj} (hx : x.isScalar = true)
    (hcontent : x.content ≤ 3 * (data.length + 1)) :
    Costs seen (t :: data) 1 [x] (seen ++ [x]) where
  size := Nat.le_add_left 1 data.length
  literals := by
    refine ⟨[x], rfl, List.forall_mem_singleton.mpr hx, Nat.le_add_left 1 data.length, ?_⟩
    rwa [List.map_singleton, List.sum_singleton, List.length_cons]
  leaves := fun y hy _ ↦ List.mem_append_right seen hy

/-- Bytes one after the other. -/
theorem append (h : Costs seen b size leaves seen₁) (h' : Costs seen₁ b' size' leaves' seen₂) :
    Costs seen (b ++ b') (size + size') (leaves ++ leaves') seen₂ := by
  obtain ⟨new, rfl, hnew, hlength, hcontent⟩ := h.literals
  obtain ⟨new', rfl, hnew', hlength', hcontent'⟩ := h'.literals
  constructor
  · rw [List.length_append]
    exact Nat.add_le_add h.size h'.size
  · refine ⟨new ++ new', List.append_assoc .., List.forall_mem_append.mpr ⟨hnew, hnew'⟩, ?_, ?_⟩
    · rw [List.length_append, List.length_append]
      exact Nat.add_le_add hlength hlength'
    · rw [List.map_append, List.sum_append, List.length_append]
      omega
  · intro x hx hscalar
    rcases List.mem_append.mp hx with hx | hx
    · exact List.mem_append_left new' (h.leaves x hx hscalar)
    · exact h'.leaves x hx hscalar

end Costs

/-- What is read behind scalars costs its bytes, and is at most `n` deep. -/
def ReadsFrugal (n : Nat) (R : Reading Obj) : Prop :=
  ∀ ⦃seen b x seen' m⦄, R seen b x seen' m → Scalars seen →
    Costs seen b x.size x.leaves seen' ∧ x.height ≤ n

/-- The entries of a dictionary, behind those that it has. -/
structure CostsEntries (n : Nat) (seen : List Obj) (b : Bytes) (items items' : List (Obj × Obj))
    (seen' : List Obj) : Prop where
  costs : ∃ size leaves, Costs seen b size leaves seen' ∧
    Obj.sizeItems items' ≤ Obj.sizeItems items + size ∧
    ∀ x ∈ Obj.leavesItems items', x ∈ Obj.leavesItems items ∨ x ∈ leaves
  height : Obj.heightItems items ≤ n → Obj.heightItems items' ≤ n

namespace CostsEntries

variable {n : Nat} {seen seen₁ seen₂ seen₃ leaves : List Obj} {b b' bs : Bytes} {size : Nat}
  {items items' : List (Obj × Obj)} {k v : Obj}

/-- No entry is behind the bytes. -/
theorem none (h : Costs seen b size leaves seen₁) (items : List (Obj × Obj)) :
    CostsEntries n seen b items items seen₁ :=
  ⟨⟨0, [], h.mono (Nat.zero_le _) (by rintro _ ⟨⟩), Nat.le_refl _, fun _ ↦ .inl⟩, id⟩

/-- An entry, and those behind it. -/
theorem assign (hitems : items.Pairwise fun p q ↦ p.1.pyEq q.1 = false)
    (hk : Costs seen b k.size k.leaves seen₁ ∧ k.height ≤ n)
    (hv : Costs seen₁ b' v.size v.leaves seen₂ ∧ v.height ≤ n)
    (h : CostsEntries n seen₂ bs (Obj.setItem items k v) items' seen₃) :
    CostsEntries n seen (b ++ (b' ++ bs)) items items' seen₃ := by
  obtain ⟨size, leaves, hcosts, hsize, hleaves⟩ := h.costs
  refine ⟨⟨_, _, hk.1.append (hv.1.append hcosts), ?_, fun x hx ↦ ?_⟩,
    fun hheight ↦ h.height (Obj.heightItems_setItem_le hheight hk.2 hv.2)⟩
  · have := Obj.sizeItems_setItem_le hitems k v
    omega
  · rcases hleaves x hx with hx | hx
    · refine (Obj.mem_leaves_setItem hx).imp_right fun hx ↦ List.mem_append.mpr ?_
      exact hx.imp_right fun hx ↦ List.mem_append_left _ hx
    · exact .inr (List.mem_append_right _ (List.mem_append_right _ hx))

end CostsEntries

section

variable {n : Nat} {R : Reading Obj} (hR : ReadsFrugal n R) {seen seen' : List Obj} {b : Bytes}
  {m : Bool}

include hR

theorem frugal_elements {count : Nat} {xs : List Obj} (h : Elements R count seen b xs seen' m)
    (hseen : Scalars seen) :
    Costs seen b (Obj.sizeList xs) (Obj.leavesList xs) seen' ∧ Obj.heightList xs ≤ n := by
  induction h with
  | nil => exact ⟨.nil _, Nat.zero_le _⟩
  | cons hx _ ih =>
      obtain ⟨hcosts, hheight⟩ := hR hx hseen
      obtain ⟨hrest, hheights⟩ := ih (hcosts.scalars hseen)
      exact ⟨hcosts.append hrest, Nat.max_le.mpr ⟨hheight, hheights⟩⟩

theorem frugal_elementsUntil {xs : List Obj} (h : ElementsUntil R seen b xs seen' m)
    (hseen : Scalars seen) :
    Costs seen b (Obj.sizeList xs) (Obj.leavesList xs) seen' ∧ Obj.heightList xs ≤ n := by
  induction h with
  | nil hx =>
      obtain ⟨hcosts, -⟩ := hR hx hseen
      exact ⟨hcosts.mono (Nat.zero_le _) (by rintro _ ⟨⟩), Nat.zero_le _⟩
  | cons hx _ _ ih =>
      obtain ⟨hcosts, hheight⟩ := hR hx hseen
      obtain ⟨hrest, hheights⟩ := ih (hcosts.scalars hseen)
      exact ⟨hcosts.append hrest, Nat.max_le.mpr ⟨hheight, hheights⟩⟩

theorem frugal_entries {count : Nat} {items items' : List (Obj × Obj)}
    (h : Entries R count items seen b items' seen' m) (hseen : Scalars seen)
    (hitems : items.Pairwise fun p q ↦ p.1.pyEq q.1 = false) :
    CostsEntries n seen b items items' seen' := by
  induction h with
  | nil => exact .none (.nil _) _
  | cons hk hv _ _ ih =>
      have hkey := hR hk hseen
      have hvalue := hR hv (hkey.1.scalars hseen)
      exact .assign hitems hkey hvalue (ih (hvalue.1.scalars (hkey.1.scalars hseen))
        (Obj.pairwise_setItem hitems _ _))

theorem frugal_entriesUntil {items items' : List (Obj × Obj)}
    (h : EntriesUntil R items seen b items' seen' m) (hseen : Scalars seen)
    (hitems : items.Pairwise fun p q ↦ p.1.pyEq q.1 = false) :
    CostsEntries n seen b items items' seen' := by
  induction h with
  | nil hk => exact .none (hR hk hseen).1 _
  | cons hk _ hv _ _ ih =>
      have hkey := hR hk hseen
      have hvalue := hR hv (hkey.1.scalars hseen)
      exact .assign hitems hkey hvalue (ih (hvalue.1.scalars (hkey.1.scalars hseen))
        (Obj.pairwise_setItem hitems _ _))

end

/-- The entries of a dictionary that begins with none. -/
theorem CostsEntries.dict {n : Nat} {seen seen' : List Obj} {b : Bytes} {items : List (Obj × Obj)}
    (h : CostsEntries n seen b [] items seen') (t : UInt8) :
    Costs seen (t :: b) (Obj.dict items).size (Obj.dict items).leaves seen' ∧
      (Obj.dict items).height ≤ n + 1 := by
  obtain ⟨size, leaves, hcosts, hsize, hleaves⟩ := h.costs
  rw [Obj.size, Obj.leaves, Obj.height]
  rw [Obj.sizeItems, Nat.zero_add] at hsize
  refine ⟨(hcosts.tag t).mono (Nat.succ_le_succ hsize) fun x hx ↦ ?_,
    Nat.succ_le_succ (h.height (Nat.zero_le n))⟩
  exact (hleaves x hx).resolve_left (by rintro ⟨⟩)

/-- **What is read costs its bytes.** -/
theorem readsFrugal_term (n : Nat) : ReadsFrugal n (Term n) := by
  induction n with
  | zero => exact fun _ _ _ _ _ h ↦ h.elim
  | succ n ih =>
      intro seen b x seen' m h hseen
      cases h with
      | terminator | null => exact ⟨.single _ (by rintro ⟨⟩), Nat.zero_le _⟩
      | literal hlit hx =>
          rw [Obj.size_of_isScalar hx, Obj.leaves_of_isScalar hx, Obj.height_of_isScalar hx]
          exact ⟨.literal _ hx hlit.content_le, Nat.zero_le _⟩
      | reference _ hx =>
          have hmem := List.mem_of_getElem? hx
          have hscalar := hseen x hmem
          rw [Obj.size_of_isScalar hscalar, Obj.leaves_of_isScalar hscalar,
            Obj.height_of_isScalar hscalar]
          exact ⟨.single _ fun _ ↦ hmem, Nat.zero_le _⟩
      | array _ hxs =>
          obtain ⟨hcosts, hheight⟩ := frugal_elements ih hxs hseen
          rw [Obj.size, Obj.leaves, Obj.height]
          exact ⟨hcosts.tag _, Nat.succ_le_succ hheight⟩
      | arrayTerminated hxs =>
          obtain ⟨hcosts, hheight⟩ := frugal_elementsUntil ih hxs hseen
          rw [Obj.size, Obj.leaves, Obj.height]
          exact ⟨hcosts.tag _, Nat.succ_le_succ hheight⟩
      | dict _ hitems => exact (frugal_entries ih hitems hseen .nil).dict _
      | dictTerminated hitems => exact (frugal_entriesUntil ih hitems hseen .nil).dict _

/-- **What `n` bytes decode to is made of `n` objects at most, out of literals that are spelled
out in them.** -/
theorem frugal_of_decode {b : Bytes} {v : Obj} (h : decode b = .ok v) : v.Frugal b.length := by
  obtain ⟨-, seen, m, hterm⟩ := decode_eq_ok_iff.mp h
  obtain ⟨hcosts, hheight⟩ := readsFrugal_term _ hterm (by rintro _ ⟨⟩)
  obtain ⟨literals, hseen, -, hlength, hcontent⟩ := hcosts.literals
  rw [List.nil_append] at hseen
  exact ⟨hcosts.size, hheight, literals, hlength, hcontent, hseen ▸ hcosts.leaves⟩

/-! ## The messages of a connection -/

/-- The message is that of the dictionary behind the header. -/
theorem message_of_messageOf {reprOf : Obj → String} {header message : Obj} {m : Message}
    (h : messageOf reprOf header message = .ok m) : message = .dict m.message := by
  rw [messageOf.eq_def] at h
  split at h
  · rcases Decoder.ite_cases h with ⟨-, h⟩ | ⟨-, h⟩
    · cases h
    rw [messageOfHeader.eq_def] at h
    split at h
    · cases h
      rfl
    · split at h
      · cases h
      · obtain ⟨id, -, rfl⟩ := map_eq_ok.mp h
        rfl
    · split at h
      · obtain ⟨id, -, h⟩ := bind_eq_ok.mp h
        obtain ⟨status, -, h⟩ := bind_eq_ok.mp h
        cases h
        rfl
      · cases h
    · cases h
  · cases h

theorem frugal_of_decodeMessage {reprOf : Obj → String} {payload : Bytes} {m : Message}
    (h : decodeMessage reprOf payload = .ok m) : (Obj.dict m.message).Frugal payload.length := by
  cases payload with
  | nil => cases h
  | cons headerLen rest =>
      rw [decodeMessage] at h
      rcases Decoder.ite_cases h with ⟨-, h⟩ | ⟨-, h⟩
      · cases h
      obtain ⟨header, -, h⟩ := bind_eq_ok.mp h
      obtain ⟨message, hmessage, h⟩ := bind_eq_ok.mp h
      rw [← message_of_messageOf h]
      refine (frugal_of_decode hmessage).mono ?_
      rw [List.length_drop, List.length_cons]
      omega

theorem le_of_runFrameLength {header : Bytes} {length : Nat}
    (h : runFrameLength header = .ok length) : length ≤ maxPayloadLength := by
  rw [runFrameLength, frameLength.eq_def] at h
  split at h
  · cases h
  · rcases Decoder.ite_cases h with ⟨-, h⟩ | ⟨-, h⟩
    · cases h
    · rcases Decoder.ite_cases h with ⟨-, h⟩ | ⟨hle, h⟩
      · cases h
      · cases h
        exact Nat.le_of_not_lt hle

namespace HDSConnection

variable {aead : Aead} {reprOf : Obj → String} {c c' : HDSConnection}

/-- The reader waits for the rest of a frame whose header it has read. -/
theorem announced_of_step {a : Label} {header : Bytes} {length : Nat}
    (h : c.step aead reprOf a = some c') (hrun : c'.run = .body header length)
    (hheader : c.run = .header) : runFrameLength header = .ok length := by
  have hsame : c'.run = c.run → runFrameLength header = .ok length := by
    intro hsame
    rw [hsame, hheader] at hrun
    cases hrun
  cases a with
  | sendEvent | sendResponse | receiveEof =>
      cases h
      exact hsame rfl
  | sendRequest =>
      rw [step] at h
      split at h
      · cases h
        exact hsame rfl
      · split at h
        · cases h
          exact hsame rfl
        · cases h
  | acquire | drained | answered | timeout | fail =>
      obtain ⟨-, -, -, hkept, -⟩ := step_moves h rfl
      exact hsame hkept
  | receive =>
      rw [step] at h
      split at h
      · cases h
      · cases h
        exact hsame rfl
  | resume =>
      rw [step, resume, hheader] at h
      obtain ⟨⟨r, c₁⟩, hread, rfl⟩ := Option.map_eq_some_iff.mp h
      have hended : ∀ c₁ : HDSConnection, c₁.endRun.run = .body header length →
          runFrameLength header = .ok length := by
        intro c₁ hrun
        rw [run_endRun] at hrun
        cases hrun
      cases r with
      | none => exact hended c₁ hrun
      | some bytes =>
          simp only [readHeader] at hrun
          split at hrun
          · next hlength =>
            cases hrun
            exact hlength
          · exact hended c₁ hrun
  | handled =>
      rw [step, hheader] at h
      cases h
  | failRun e =>
      rw [step, failRun, hheader] at h
      cases h
      rw [run_endRun] at hrun
      cases hrun
  | close =>
      cases h
      exact hsame (run_close c)

/-- The reader has dispatched what fits into frames, and waits for no more than that. -/
structure Modest (c : HDSConnection) : Prop where
  announced : ∀ (header : Bytes) (length : Nat), c.run = .body header length →
    length ≤ maxPayloadLength
  dispatched : ∀ m ∈ c.dispatched, (Obj.dict m.message).Frugal maxPayloadLength

theorem Modest.new (session : Nat) (outKey inKey firstPayload buffer : Bytes) (eof : Bool) :
    (HDSConnection.new session outKey inKey firstPayload buffer eof).Modest :=
  ⟨by rintro _ _ ⟨⟩, by rintro _ ⟨⟩⟩

theorem Modest.step (hc : c.Modest) (hshort : aead.Shortens 16) {a : Label}
    (h : c.step aead reprOf a = some c') : c'.Modest := by
  have hmoved : c'.dispatched = c.dispatched →
      (∀ header length, c'.run = .body header length → c.run = .body header length) →
      c'.Modest := by
    intro hdispatched hrun
    exact ⟨fun header length h ↦ hc.announced header length (hrun header length h),
      hdispatched ▸ hc.dispatched⟩
  cases step_reader h with
  | idle hreader =>
      have hrun : c'.run = c.run := congrArg Reader.run hreader
      exact hmoved (congrArg Reader.dispatched hreader) fun _ _ h ↦ hrun ▸ h
  | greet m _ _ _ hreader =>
      have hrun : c'.run = .replying c.calls.length := congrArg Reader.run hreader
      refine hmoved (congrArg Reader.dispatched hreader) fun _ _ h ↦ ?_
      cases hrun.symm.trans h
  | ended inNonce _ hreader =>
      have hrun : c'.run = .ended := congrArg Reader.run hreader
      refine hmoved (congrArg Reader.dispatched hreader) fun _ _ h ↦ ?_
      cases hrun.symm.trans h
  | next _ _ hreader =>
      have hrun : c'.run = .header := congrArg Reader.run hreader
      refine hmoved (congrArg Reader.dispatched hreader) fun _ _ h ↦ ?_
      cases hrun.symm.trans h
  | header header length hheader hreader =>
      have hdispatched : c'.dispatched = c.dispatched := congrArg Reader.dispatched hreader
      exact ⟨fun _ _ hrun ↦ le_of_runFrameLength (announced_of_step h hrun hheader),
        hdispatched ▸ hc.dispatched⟩
  | message header length n payload m run handled _ hbody hfits _ hopen hm hkind hreader =>
      have hdispatched : c'.dispatched = c.dispatched ++ [m] := congrArg Reader.dispatched hreader
      have hrun : c'.run = run := congrArg Reader.run hreader
      constructor
      · intro header' length' h
        rw [hrun] at h
        rcases hkind with ⟨-, hnext, -⟩ | ⟨-, hnext, -⟩
        · rw [hnext] at h
          split at h <;> cases h
        · cases hnext.symm.trans h
      · rw [hdispatched]
        refine List.forall_mem_append.mpr ⟨hc.dispatched, List.forall_mem_singleton.mpr ?_⟩
        have hmost := hc.announced header length hbody
        refine (frugal_of_decodeMessage hm).mono (Nat.le_trans ?_ hmost)
        have hle := hshort _ _ _ _ _ hopen
        rwa [List.length_take_of_le hfits, Nat.add_sub_cancel] at hle

end HDSConnection

/-- **A message is no larger than its bytes, and what a connection dispatches is bounded**,
whatever arrives on whichever connections. -/
theorem messages_frugal (C : Crypto) (reprOf : Obj → String) (hshort : C.aead.Shortens 16) :
    (∀ (b : Bytes) (v : Obj), decode b = .ok v → v.Frugal b.length) ∧
      ∀ s, (servers C reprOf).Reachable s → ∀ c ∈ s.opened, ∀ m ∈ c.dispatched,
        (Obj.dict m.message).Frugal maxPayloadLength := by
  refine ⟨fun b v ↦ frugal_of_decode, fun s h c hc ↦ ?_⟩
  have hinvariant : s.Table ∧ ∀ c ∈ s.opened, c.Modest := by
    refine HDSServer.invariant (I := fun s ↦ ∀ c ∈ s.opened, c.Modest) (by rintro _ ⟨⟩)
      (fun s s' _ hstep hs ↦ ?_) h
    cases hstep with
    | control | remove | add => exact hs
    | connection i c c' a hi hstep =>
        intro c₁ hc₁
        rcases List.mem_or_eq_of_mem_set hc₁ with hc₁ | rfl
        · exact hs c₁ hc₁
        · exact (hs c (List.mem_of_getElem? hi)).step hshort hstep
    | accept =>
        exact List.forall_mem_append.mpr ⟨hs, List.forall_mem_singleton.mpr (.new ..)⟩
  exact (hinvariant.2 c hc).dispatched

theorem plain_shortens : plain.Shortens 16 := by
  rintro key nonce data ad _ ⟨⟩
  exact List.length_take_le ..

/-- An array of three references to one string, and a greeting with an event behind it. -/
theorem messages_frugal_greeting :
    let ms := [greeting, ⟨.event, .ofString "dataSend", .ofString "ack", none⟩].filterMap
      fun o ↦ o.payload.toOption
    let C : Crypto := ⟨plain, fun _ _ info ↦ info⟩
    ∃ s, (servers C fun _ ↦ "").exec .new
        [.start (some 50000),
          .prepareSession ⟨"127.0.0.1", 1⟩ (.replicate 32 0) (.replicate 32 1) (.replicate 32 2),
          .connect, .feedAccept 0 ((hdsFraming.sealAll C.aead writeInfo ms).getD []),
          .resumeAccept 0, .resumeAccept 0, .connection 0 .resume, .connection 0 (.acquire 0),
          .connection 0 (.drained 0), .connection 0 .resume, .connection 0 .resume,
          .connection 0 .resume] = some s ∧
      s.opened.map (fun c ↦ c.dispatched.length) = [1] ∧
      (∀ c ∈ s.opened, ∀ m ∈ c.dispatched, (Obj.dict m.message).Frugal maxPayloadLength) ∧
      decode [0xD4, 0x42, 0x68, 0x69, 0xA0, 0xA0, 0xA0] = .ok (.list (.replicate 4 (.text "hi"))) ∧
      (Obj.list (.replicate 4 (.text "hi"))).Frugal 7 := by
  intro ms C
  generalize hrun : (servers C fun _ ↦ "").exec .new _ = r
  have hr : r.map (fun s ↦ s.opened.map fun c ↦ c.dispatched.length) = some [1] := by
    rw [← hrun]
    decide +kernel
  obtain ⟨s, rfl, hs⟩ := Option.map_eq_some_iff.mp hr
  have hreachable : (servers C fun _ ↦ "").Reachable s := .exec (.init rfl) hrun
  obtain ⟨hdecode, hmessages⟩ := messages_frugal C (fun _ ↦ "") plain_shortens
  have harray : decode [0xD4, 0x42, 0x68, 0x69, 0xA0, 0xA0, 0xA0] =
      .ok (.list (.replicate 4 (.text "hi"))) := rfl
  exact ⟨s, rfl, hs, hmessages s hreachable, harray, hdecode _ _ harray⟩

end Hds

end AtvRemote
