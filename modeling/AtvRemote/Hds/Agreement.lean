import AtvRemote.Hds.Grammar

/-!
# Where the two directions agree

What the decoder makes (`Obj.Decoded`) is in the domain of the encoder, but for two slips:
the plain integer 39, which the encoder writes under a tag that the decoder does not know,
and an empty container at the last level, which the decoder reads and the encoder, which
counts a container one level deeper, does not write.  Anything else is written and read
back unchanged (`encode_decode_iff`).
-/

namespace AtvRemote

open Lib

namespace Obj

/-! ## Trees -/

mutual

/-- The objects of a tree that are not containers, as they are written. -/
def leaves : Obj → List Obj
  | .seq _ xs => leavesList xs
  | .dict items => leavesItems items
  | x => [x]

/-- `leaves` of the elements of an array. -/
def leavesList : List Obj → List Obj
  | [] => []
  | x :: xs => leaves x ++ leavesList xs

/-- `leaves` of the entries of a dictionary. -/
def leavesItems : List (Obj × Obj) → List Obj
  | [] => []
  | (k, v) :: items => leaves k ++ (leaves v ++ leavesItems items)

end

mutual

/-- How deep containers are nested in an object. -/
def height : Obj → Nat
  | .seq _ xs => heightList xs + 1
  | .dict items => heightItems items + 1
  | _ => 0

/-- `height` of the elements of an array. -/
def heightList : List Obj → Nat
  | [] => 0
  | x :: xs => max (height x) (heightList xs)

/-- `height` of the entries of a dictionary. -/
def heightItems : List (Obj × Obj) → Nat
  | [] => 0
  | (k, v) :: items => max (height k) (max (height v) (heightItems items))

end

/-- `float`, `Float32`, `Float64` and `SecondsSince2001`. -/
def isFloat : Obj → Bool
  | .float _ | .float32 _ | .float64 _ | .date _ => true
  | _ => false

/-- The length of a string or byte string fits in a length field. -/
def fits : Obj → Bool
  | .str s => (s.encodeUtf8.getD []).length ≤ 0xFFFFFFFFFFFFFFFF
  | .bytes _ b => b.length ≤ 0xFFFFFFFFFFFFFFFF
  | _ => true

theorem mem_leavesList {x : Obj} {xs : List Obj} :
    x ∈ leavesList xs ↔ ∃ y ∈ xs, x ∈ y.leaves := by
  induction xs with
  | nil => simp [leavesList]
  | cons y ys ih => simp [leavesList, ih]

theorem mem_leavesItems {x : Obj} {items : List (Obj × Obj)} :
    x ∈ leavesItems items ↔ ∃ p ∈ items, x ∈ p.1.leaves ∨ x ∈ p.2.leaves := by
  induction items with
  | nil => simp [leavesItems]
  | cons p items ih => simp [leavesItems, ih, or_assoc]

theorem heightList_le {n : Nat} {xs : List Obj} : heightList xs ≤ n ↔ ∀ x ∈ xs, x.height ≤ n := by
  induction xs with
  | nil => simp [heightList]
  | cons x xs ih =>
      rw [heightList, Nat.max_le, ih, List.forall_mem_cons]

theorem heightItems_le {n : Nat} {items : List (Obj × Obj)} :
    heightItems items ≤ n ↔ ∀ p ∈ items, p.1.height ≤ n ∧ p.2.height ≤ n := by
  induction items with
  | nil => simp [heightItems]
  | cons p items ih =>
      rw [heightItems, Nat.max_le, Nat.max_le, ih, List.forall_mem_cons, and_assoc]

/-! ## What the decoder makes -/

/-- The integers that fit in eight bytes, the strings that have an encoding, and whatever is
neither an integer nor a string. -/
def IsMade : Obj → Prop
  | .int n => -(2 ^ 63) ≤ n ∧ n ≤ 2 ^ 63 - 1
  | .str s => s.encodeUtf8.isSome = true
  | _ => True

/-- The trees that the decoder makes. -/
inductive Decoded : Obj → Prop
  | none : Decoded .none
  | terminator : Decoded .terminator
  | scalar (x : Obj) (hx : x.isScalar = true) (made : x.IsMade) : Decoded x
  | list (xs : List Obj) (elems : ∀ x ∈ xs, Decoded x) : Decoded (.list xs)
  | dict (items : List (Obj × Obj)) (keys : ∀ p ∈ items, Decoded p.1)
      (values : ∀ p ∈ items, Decoded p.2) (hashable : ∀ p ∈ items, p.1.hashable = true)
      (distinct : items.Pairwise fun p q ↦ p.1.pyEq q.1 = false) : Decoded (.dict items)

/-- A tree that the decoder makes without a float or a terminator in it. -/
structure Ordinary (v : Obj) : Prop where
  decoded : v.Decoded
  noFloat : ∀ x ∈ v.leaves, x.isFloat = false
  noTerminator : ∀ x ∈ v.leaves, x.isTerminator = false

namespace Ordinary

theorem elem {xs : List Obj} (h : (Obj.list xs).Ordinary) : ∀ x ∈ xs, x.Ordinary := by
  intro x hx
  refine ⟨?_, fun y hy ↦ h.noFloat y (mem_leavesList.mpr ⟨x, hx, hy⟩),
    fun y hy ↦ h.noTerminator y (mem_leavesList.mpr ⟨x, hx, hy⟩)⟩
  cases h.decoded with
  | list _ elems => exact elems x hx
  | scalar _ hscalar => cases hscalar

theorem item {items : List (Obj × Obj)} (h : (Obj.dict items).Ordinary) :
    ∀ p ∈ items, p.1.Ordinary ∧ p.2.Ordinary := by
  intro p hp
  have hdecoded : p.1.Decoded ∧ p.2.Decoded := by
    cases h.decoded with
    | dict _ keys values => exact ⟨keys p hp, values p hp⟩
    | scalar _ hscalar => cases hscalar
  have hleaf : ∀ {x}, x ∈ p.1.leaves ∨ x ∈ p.2.leaves → x ∈ (Obj.dict items).leaves :=
    fun hx ↦ mem_leavesItems.mpr ⟨p, hp, hx⟩
  exact ⟨⟨hdecoded.1, fun x hx ↦ h.noFloat x (hleaf (.inl hx)),
      fun x hx ↦ h.noTerminator x (hleaf (.inl hx))⟩,
    ⟨hdecoded.2, fun x hx ↦ h.noFloat x (hleaf (.inr hx)),
      fun x hx ↦ h.noTerminator x (hleaf (.inr hx))⟩⟩

end Ordinary

end Obj

namespace Hds

namespace Decoder

/-- What the parser makes, behind the tags of scalars. -/
def Makes (r : Except PyErr (Obj × Decoder)) : Prop := ∀ x d, r = .ok (x, d) → x.IsMade

namespace Makes

variable {r r' : Except PyErr (Obj × Decoder)} {α : Type}

theorem ok {x : Obj} {d : Decoder} (h : x.IsMade) : Makes (.ok (x, d)) := by
  rintro y d' heq
  cases heq
  exact h

theorem error (e : PyErr) : Makes (.error e) := nofun

theorem ite_of {c : Prop} [Decidable c] (h : c → Makes r) (h' : Makes r') :
    Makes (if c then r else r') := by
  split
  · next hc => exact h hc
  · exact h'

theorem ite {c : Prop} [Decidable c] (h : Makes r) (h' : Makes r') :
    Makes (if c then r else r') := ite_of (fun _ ↦ h) h'

theorem bind {x : Except PyErr α} {f : α → Except PyErr (Obj × Decoder)}
    (h : ∀ a, x = .ok a → Makes (f a)) : Makes (x >>= f) := by
  intro y d heq
  obtain ⟨a, ha, heq⟩ := bind_eq_ok.mp heq
  exact h a ha y d heq

theorem map {x : Except PyErr (α × Decoder)} {f : α → Obj} (h : ∀ a, (f a).IsMade) :
    Makes (x.map fun p ↦ (f p.1, p.2)) := by
  intro y d heq
  obtain ⟨p, -, heq⟩ := map_eq_ok.mp heq
  cases heq
  exact h p.1

end Makes

section

variable {make : Bytes → Except PyErr Obj}

theorem makes_literal (d : Decoder) (n : Nat)
    (hmake : ∀ b x, b.length = n → make b = .ok x → x.IsMade) : Makes (d.literal n make) := by
  refine .bind fun p hp ↦ .bind fun x hx ↦ .ok (hmake p.1 x ?_ hx)
  have htake : d.take n = .ok (p.1, p.2) := hp
  exact (take_eq_ok htake).1

theorem makes_sizedLiteral (d : Decoder) (width : Nat)
    (hmake : ∀ b x, make b = .ok x → x.IsMade) : Makes (d.sizedLiteral width make) :=
  .bind fun p _ ↦ makes_literal p.2 p.1 fun b x _ ↦ hmake b x

theorem makes_terminatedLiteral (d : Decoder) (t : UInt8)
    (hmake : ∀ b x, make b = .ok x → x.IsMade) : Makes (d.terminatedLiteral t make) :=
  .bind fun p _ ↦ .bind fun x hx ↦ .ok (hmake p.1 x hx)

end

theorem isMade_makeStr (b : Bytes) (x : Obj) (h : makeStr b = .ok x) : x.IsMade := by
  rw [makeStr] at h
  split at h
  · next s hs =>
    cases h
    show s.encodeUtf8.isSome = true
    rw [PyStr.encodeUtf8_of_decodeUtf8 hs]
    rfl
  · cases h

theorem isMade_makeBytes (b : Bytes) (x : Obj) (h : makeBytes b = .ok x) : x.IsMade := by
  cases h
  trivial

theorem scalar_strOfUuid (b : Bytes) : (strOfUuid b).Scalar := by
  have hhex : PyStr.Scalar (b.flatMap hexOfByte) := by
    intro p hp
    obtain ⟨c, -, hp⟩ := List.mem_flatMap.mp hp
    simp only [hexOfByte, List.mem_cons, List.not_mem_nil, or_false] at hp
    rcases hp with rfl | rfl <;> rfl
  intro p hp
  simp only [strOfUuid, List.mem_append, List.mem_singleton] at hp
  rcases hp with (((((((hp | hp) | hp) | hp) | hp) | hp) | hp) | hp) | hp
  · exact hhex p (List.mem_of_mem_take hp)
  · exact hp ▸ rfl
  · exact hhex p (List.mem_of_mem_drop (List.mem_of_mem_take hp))
  · exact hp ▸ rfl
  · exact hhex p (List.mem_of_mem_drop (List.mem_of_mem_take hp))
  · exact hp ▸ rfl
  · exact hhex p (List.mem_of_mem_drop (List.mem_of_mem_take hp))
  · exact hp ▸ rfl
  · exact hhex p (List.mem_of_mem_drop hp)

theorem isMade_makeUuid (b : Bytes) (x : Obj) (h : makeUuid b = .ok x) : x.IsMade := by
  cases h
  exact PyStr.encodeUtf8_isSome (scalar_strOfUuid b)

theorem isMade_makeFloat64 (b : Bytes) (x : Obj) (h : makeFloat64 b = .ok x) : x.IsMade := by
  cases h
  trivial

theorem isMade_makeFloat32 (b : Bytes) (x : Obj) (h : makeFloat32 b = .ok x) : x.IsMade := by
  cases h
  trivial

/-- Two's complement on at most eight bytes. -/
theorem isMade_makeInt {n : Nat} (hn : n ≤ 8) (b : Bytes) (x : Obj) (hb : b.length = n)
    (h : makeInt b = .ok x) : x.IsMade := by
  cases h
  have hpow : 256 ^ n ≤ 256 ^ 8 := Nat.pow_le_pow_right (by decide) hn
  have hpos : 0 < 256 ^ n := Nat.pow_pos (by decide)
  have hlow := Int.le_bmod (x := ofLE b) hpos
  have hhigh := Int.bmod_lt (x := ofLE b) hpos
  show -(2 ^ 63) ≤ unpackSigned b ∧ unpackSigned b ≤ 2 ^ 63 - 1
  rw [unpackSigned, hb]
  omega

theorem makes_ofTag {elem : Decoder → Except PyErr (Obj × Decoder)} (fuel tag : Nat)
    (data : Bytes) : Makes (ofTag elem fuel tag ⟨data, []⟩) := by
  rw [ofTag]
  refine .ite (.error _) (.ite (.ok trivial) (.ite (.ok trivial) (.ite (.ok trivial) ?_)))
  refine .ite (.ok trivial) (.ite (makes_literal _ 16 fun b x _ ↦ isMade_makeUuid b x) ?_)
  refine .ite (makes_literal _ 8 fun b x _ ↦ isMade_makeFloat64 b x) ?_
  refine .ite (.ok ⟨by decide, by decide⟩) (Makes.ite_of (fun hsmall ↦ .ok ?_) ?_)
  · show -(2 ^ 63) ≤ ((tag - Tag.integer0 : Nat) : Int) ∧
      ((tag - Tag.integer0 : Nat) : Int) ≤ 2 ^ 63 - 1
    have hle : tag ≤ 0x2E := hsmall.2
    omega
  refine .ite (makes_literal _ 1 (isMade_makeInt (by decide))) ?_
  refine .ite (makes_literal _ 2 (isMade_makeInt (by decide))) ?_
  refine .ite (makes_literal _ 4 (isMade_makeInt (by decide))) ?_
  refine .ite (makes_literal _ 8 (isMade_makeInt (by decide))) ?_
  refine .ite (makes_literal _ 4 fun b x _ ↦ isMade_makeFloat32 b x) ?_
  refine .ite (makes_literal _ 8 fun b x _ ↦ isMade_makeFloat64 b x) ?_
  refine .ite (makes_literal _ _ fun b x _ ↦ isMade_makeStr b x) ?_
  refine .ite (makes_sizedLiteral _ _ isMade_makeStr) ?_
  refine .ite (makes_terminatedLiteral _ 0 isMade_makeStr) ?_
  refine .ite (makes_literal _ _ fun b x _ ↦ isMade_makeBytes b x) ?_
  refine .ite (makes_sizedLiteral _ _ isMade_makeBytes) ?_
  refine .ite (makes_terminatedLiteral _ _ isMade_makeBytes) (.ite (.error _) ?_)
  refine .ite (.map fun _ ↦ trivial) (.ite (.map fun _ ↦ trivial) ?_)
  exact .ite (.map fun _ ↦ trivial) (.ite (.map fun _ ↦ trivial) (.error _))

end Decoder

/-- The scalar behind a tag is what the decoder makes. -/
theorem IsLiteral.isMade {tag : Nat} {data : Bytes} {x : Obj} (h : IsLiteral tag data x) :
    x.IsMade := by
  have hread := h.2 (fun _ ↦ .error Decoder.outOfFuel) 0 [] []
  exact Decoder.makes_ofTag 0 tag (data ++ []) x _ hread

/-! ## What the messages stand for -/

/-- The entries of a dictionary that the decoder makes. -/
structure DecodedItems (items : List (Obj × Obj)) : Prop where
  keys : ∀ p ∈ items, p.1.Decoded
  values : ∀ p ∈ items, p.2.Decoded
  hashable : ∀ p ∈ items, p.1.hashable = true
  distinct : items.Pairwise fun p q ↦ p.1.pyEq q.1 = false

theorem DecodedItems.nil : DecodedItems [] := ⟨nofun, nofun, nofun, .nil⟩

/-- A key keeps its place, or else is behind the keys that differ from it. -/
theorem DecodedItems.setItem {items : List (Obj × Obj)} (h : DecodedItems items) {k v : Obj}
    (hk : k.Decoded) (hhash : k.hashable = true) (hv : v.Decoded) :
    DecodedItems (Obj.setItem items k v) := by
  rw [Obj.setItem]
  split
  · have hkey : ∀ p : Obj × Obj, (if p.1.pyEq k then (p.1, v) else p).1 = p.1 := by
      intro p
      split <;> rfl
    refine ⟨?_, ?_, ?_, List.pairwise_map.mpr (h.distinct.imp fun hne ↦ by rwa [hkey, hkey])⟩ <;>
      intro p hp <;> obtain ⟨q, hq, rfl⟩ := List.mem_map.mp hp
    · rw [hkey]
      exact h.keys q hq
    · split
      · exact hv
      · exact h.values q hq
    · rw [hkey]
      exact h.hashable q hq
  · next hnone =>
    have hnew : ∀ p ∈ items, p.1.pyEq k = false := fun p hp ↦
      Bool.eq_false_iff.mpr fun heq ↦ hnone (List.any_eq_true.mpr ⟨p, hp, heq⟩)
    refine ⟨?_, ?_, ?_, List.pairwise_append.mpr ⟨h.distinct, List.pairwise_singleton _ _, ?_⟩⟩
    · exact List.forall_mem_append.mpr ⟨h.keys, List.forall_mem_singleton.mpr hk⟩
    · exact List.forall_mem_append.mpr ⟨h.values, List.forall_mem_singleton.mpr hv⟩
    · exact List.forall_mem_append.mpr ⟨h.hashable, List.forall_mem_singleton.mpr hhash⟩
    · intro p hp q hq
      rw [List.mem_singleton.mp hq]
      exact hnew p hp

/-- What is read between tables of such objects is such an object. -/
def ReadsDecoded (R : Reading Obj) : Prop :=
  ∀ ⦃seen b x seen' m⦄, R seen b x seen' m → (∀ y ∈ seen, Obj.Decoded y) →
    x.Decoded ∧ ∀ y ∈ seen', Obj.Decoded y

section

variable {R : Reading Obj} (hR : ReadsDecoded R) {seen seen' : List Obj} {b : Bytes} {m : Bool}

include hR

theorem decoded_elements {n : Nat} {xs : List Obj} (h : Elements R n seen b xs seen' m)
    (hseen : ∀ y ∈ seen, Obj.Decoded y) :
    (∀ x ∈ xs, x.Decoded) ∧ ∀ y ∈ seen', Obj.Decoded y := by
  induction h with
  | nil => exact ⟨nofun, hseen⟩
  | cons hx _ ih =>
      obtain ⟨hdecoded, hseen₁⟩ := hR hx hseen
      obtain ⟨hall, hseen₂⟩ := ih hseen₁
      exact ⟨List.forall_mem_cons.mpr ⟨hdecoded, hall⟩, hseen₂⟩

theorem decoded_elementsUntil {xs : List Obj} (h : ElementsUntil R seen b xs seen' m)
    (hseen : ∀ y ∈ seen, Obj.Decoded y) :
    (∀ x ∈ xs, x.Decoded) ∧ ∀ y ∈ seen', Obj.Decoded y := by
  induction h with
  | nil hx => exact ⟨nofun, (hR hx hseen).2⟩
  | cons hx _ _ ih =>
      obtain ⟨hdecoded, hseen₁⟩ := hR hx hseen
      obtain ⟨hall, hseen₂⟩ := ih hseen₁
      exact ⟨List.forall_mem_cons.mpr ⟨hdecoded, hall⟩, hseen₂⟩

theorem decoded_entries {n : Nat} {items items' : List (Obj × Obj)}
    (h : Entries R n items seen b items' seen' m) (hseen : ∀ y ∈ seen, Obj.Decoded y)
    (hitems : DecodedItems items) : DecodedItems items' ∧ ∀ y ∈ seen', Obj.Decoded y := by
  induction h with
  | nil => exact ⟨hitems, hseen⟩
  | cons hk hv hhash _ ih =>
      obtain ⟨hkey, hseen₁⟩ := hR hk hseen
      obtain ⟨hvalue, hseen₂⟩ := hR hv hseen₁
      exact ih hseen₂ (hitems.setItem hkey hhash hvalue)

theorem decoded_entriesUntil {items items' : List (Obj × Obj)}
    (h : EntriesUntil R items seen b items' seen' m) (hseen : ∀ y ∈ seen, Obj.Decoded y)
    (hitems : DecodedItems items) : DecodedItems items' ∧ ∀ y ∈ seen', Obj.Decoded y := by
  induction h with
  | nil hk => exact ⟨hitems, (hR hk hseen).2⟩
  | cons hk _ hv hhash _ ih =>
      obtain ⟨hkey, hseen₁⟩ := hR hk hseen
      obtain ⟨hvalue, hseen₂⟩ := hR hv hseen₁
      exact ih hseen₂ (hitems.setItem hkey hhash hvalue)

end

theorem DecodedItems.decoded {items : List (Obj × Obj)} (h : DecodedItems items) :
    (Obj.dict items).Decoded :=
  .dict items h.keys h.values h.hashable h.distinct

theorem readsDecoded_message (n : Nat) : ReadsDecoded (Term n) := by
  induction n with
  | zero => exact fun _ _ _ _ _ h ↦ h.elim
  | succ n ih =>
      intro seen b x seen' m h hseen
      cases h with
      | terminator => exact ⟨.terminator, hseen⟩
      | null => exact ⟨.none, hseen⟩
      | literal hlit hx =>
          have hdecoded := Obj.Decoded.scalar x hx hlit.isMade
          exact ⟨hdecoded,
            List.forall_mem_append.mpr ⟨hseen, List.forall_mem_singleton.mpr hdecoded⟩⟩
      | reference _ hx => exact ⟨hseen x (List.mem_of_getElem? hx), hseen⟩
      | array _ hxs =>
          obtain ⟨hall, hseen'⟩ := decoded_elements ih hxs hseen
          exact ⟨.list _ hall, hseen'⟩
      | arrayTerminated hxs =>
          obtain ⟨hall, hseen'⟩ := decoded_elementsUntil ih hxs hseen
          exact ⟨.list _ hall, hseen'⟩
      | dict _ hitems =>
          obtain ⟨hall, hseen'⟩ := decoded_entries ih hitems hseen .nil
          exact ⟨hall.decoded, hseen'⟩
      | dictTerminated hitems =>
          obtain ⟨hall, hseen'⟩ := decoded_entriesUntil ih hitems hseen .nil
          exact ⟨hall.decoded, hseen'⟩

/-- **What `decode` returns is a tree that the decoder makes.** -/
theorem decoded_of_decode {b : Bytes} {v : Obj} (h : decode b = .ok v) : v.Decoded := by
  obtain ⟨-, seen, m, hmessage⟩ := decode_eq_ok_iff.mp h
  exact (readsDecoded_message _ hmessage nofun).1

end Hds

/-! ## What the decoder makes can be carried -/

namespace Obj

/-- A scalar that is not a float is carried as it is. -/
theorem carried_scalar {x : Obj} (hx : x.isScalar = true) (hfloat : x.isFloat = false) :
    x.Serializable ∧ x.erase = x := by
  cases x with
  | bool b => exact ⟨.bool b, by simp [erase]⟩
  | int n => exact ⟨.int n, by simp [erase]⟩
  | str s => exact ⟨.str s, by simp [erase]⟩
  | bytes k b =>
      cases k with
      | bytes => exact ⟨.bytes .bytes b, by simp [erase]⟩
      | _ => cases hx
  | float x => cases hfloat
  | _ => cases hx

theorem eraseList_eq_self {xs : List Obj} (h : ∀ x ∈ xs, x.erase = x) : eraseList xs = xs := by
  induction xs with
  | nil => rfl
  | cons x xs ih =>
      obtain ⟨hx, hxs⟩ := List.forall_mem_cons.mp h
      rw [eraseList, hx, ih hxs]

theorem eraseItems_eq_self {items : List (Obj × Obj)}
    (h : ∀ p ∈ items, p.1.erase = p.1 ∧ p.2.erase = p.2) : eraseItems items = items := by
  induction items with
  | nil => rfl
  | cons p items ih =>
      obtain ⟨hp, hitems⟩ := List.forall_mem_cons.mp h
      rw [eraseItems, hp.1, hp.2, ih hitems]

/-- A key of a dictionary that the decoder makes is no container. -/
theorem Decoded.isContainer_of_hashable {k : Obj} (h : k.Decoded) (hhash : k.hashable = true) :
    k.isContainer = false := by
  cases h with
  | scalar _ hx => cases k <;> first | rfl | cases hx
  | list | dict => cases hhash
  | _ => rfl

/-- **A tree that the decoder makes is carried as it is.** -/
theorem Ordinary.carried {v : Obj} (h : v.Ordinary) : v.Serializable ∧ v.erase = v := by
  obtain ⟨hdecoded, hfloat, hterminator⟩ := h
  induction hdecoded with
  | none => exact ⟨.none, by simp [erase]⟩
  | terminator => cases hterminator .terminator (List.mem_singleton_self _)
  | scalar x hx =>
      refine carried_scalar hx (hfloat x ?_)
      cases x <;> first | exact List.mem_singleton_self _ | cases hx
  | list xs elems ih =>
      have hall : ∀ x ∈ xs, x.Serializable ∧ x.erase = x := fun x hx ↦
        ih x hx (fun y hy ↦ hfloat y (mem_leavesList.mpr ⟨x, hx, hy⟩))
          fun y hy ↦ hterminator y (mem_leavesList.mpr ⟨x, hx, hy⟩)
      refine ⟨.seq _ _ fun x hx ↦ (hall x hx).1, ?_⟩
      rw [erase, eraseList_eq_self fun x hx ↦ (hall x hx).2]
  | dict items keys values hhash hdistinct ihk ihv =>
      have hkeys : ∀ p ∈ items, p.1.Serializable ∧ p.1.erase = p.1 := fun p hp ↦
        ihk p hp (fun y hy ↦ hfloat y (mem_leavesItems.mpr ⟨p, hp, .inl hy⟩))
          fun y hy ↦ hterminator y (mem_leavesItems.mpr ⟨p, hp, .inl hy⟩)
      have hvalues : ∀ p ∈ items, p.2.Serializable ∧ p.2.erase = p.2 := fun p hp ↦
        ihv p hp (fun y hy ↦ hfloat y (mem_leavesItems.mpr ⟨p, hp, .inr hy⟩))
          fun y hy ↦ hterminator y (mem_leavesItems.mpr ⟨p, hp, .inr hy⟩)
      refine ⟨.dict items (fun p hp ↦ (hkeys p hp).1) (fun p hp ↦ (hvalues p hp).1)
        (fun p hp ↦ (keys p hp).isContainer_of_hashable (hhash p hp)) ?_, ?_⟩
      · refine hdistinct.imp_of_mem fun {p q} hp hq hne ↦ ?_
        rwa [(hkeys p hp).2, (hkeys q hq).2]
      · rw [erase, eraseItems_eq_self fun p hp ↦ ⟨(hkeys p hp).2, (hvalues p hp).2⟩]

end Obj

namespace Hds

/-! ## What is written at all -/

namespace Encoder

/-- The scalars in the table fit in their length fields. -/
def Fits (e : Encoder) : Prop := ∀ x ∈ e.seen, x.fits = true

/-- The encoder goes on if and only if `c`. -/
def Outcome (c : Prop) (r : Except PyErr Encoder) : Prop :=
  (c ∧ ∃ e, r = .ok e ∧ e.Fits) ∨ (¬c ∧ ∃ err, r = .error err)

namespace Outcome

variable {c c' : Prop} {r : Except PyErr Encoder} {f : Encoder → Except PyErr Encoder} {e : Encoder}

theorem ok (hc : c) (he : e.Fits) : Outcome c (.ok e) := .inl ⟨hc, e, rfl, he⟩

theorem error (hc : ¬c) (err : PyErr) : Outcome c (.error err) := .inr ⟨hc, err, rfl⟩

theorem congr (h : Outcome c r) (hc : c ↔ c') : Outcome c' r := by
  rwa [Outcome, ← hc]

/-- One computation after the other. -/
theorem bind (h : Outcome c r) (hf : ∀ e, e.Fits → Outcome c' (f e)) :
    Outcome (c ∧ c') (r >>= f) := by
  rcases h with ⟨hc, e, rfl, he⟩ | ⟨hc, err, rfl⟩
  · exact (hf e he).congr ⟨fun hc' ↦ ⟨hc, hc'⟩, And.right⟩
  · exact .error (fun h ↦ hc h.1) err

/-- Behind a check of the depth. -/
theorem checkDepth {depth : Nat} (h : Outcome c r) :
    Outcome (depth ≤ maxDepth ∧ c) (Encoder.checkDepth depth >>= fun _ ↦ r) := by
  rw [Encoder.checkDepth]
  split
  · next hlt => exact .error (fun h ↦ Nat.not_lt.mpr h.1 hlt) _
  · next hle => exact h.congr ⟨fun hc ↦ ⟨Nat.le_of_not_lt hle, hc⟩, And.right⟩

end Outcome

variable {e : Encoder} {v : Obj}

theorem Fits.append (he : e.Fits) (hv : v.fits = true) {buf : Bytes} :
    Fits ⟨buf, e.seen ++ [v]⟩ :=
  List.forall_mem_append.mpr ⟨he, List.forall_mem_singleton.mpr hv⟩

/-- A scalar is written if and only if its payload can be, or stands in the table already. -/
theorem outcome_scalar {payload : Except PyErr (Nat × Bytes)} (he : e.Fits)
    (hpayload : (∃ p, payload = .ok p) ↔ v.fits = true)
    (hmatch : ∀ x : Obj, x.pyEq v = true → x.fits = true → v.fits = true) :
    Outcome (v.fits = true) (e.scalar v payload) := by
  rw [scalar]
  rcases hc : e.compress v with ⟨hit, e₁⟩
  have hliteral : ∀ e₁ : Encoder, (v.fits = true → e₁.Fits) →
      Outcome (v.fits = true) (payload.map fun p ↦ e₁.emit p.1 p.2) := by
    intro e₁ he₁
    cases hp : payload with
    | ok p =>
        have hfits := hpayload.mp ⟨p, hp⟩
        exact .ok hfits (he₁ hfits)
    | error err =>
        refine .error (fun hfits ↦ ?_) err
        obtain ⟨p, hok⟩ := hpayload.mpr hfits
        rw [hp] at hok
        cases hok
  rcases compress_cases hc with
    ⟨rfl, k, x, -, hx, heq, rfl⟩ | ⟨rfl, rfl⟩ | ⟨rfl, -, rfl⟩
  · exact .ok (hmatch x heq (he x (List.mem_of_getElem? hx))) he
  · exact hliteral _ fun hfits ↦ he.append hfits
  · exact hliteral _ fun _ ↦ he

theorem outcome_wrappedInt {w : IntWidth} {n : Int} (he : e.Fits)
    (hlow : -((256 ^ w.bytes : Nat) : Int) ≤ 2 * n)
    (hhigh : 2 * n < ((256 ^ w.bytes : Nat) : Int)) : Outcome True (e.wrappedInt w n) := by
  refine (outcome_scalar he ?_ fun _ _ _ ↦ rfl).congr (iff_true_intro rfl)
  obtain ⟨b, hb⟩ := Option.isSome_iff_exists.mp (packSigned_isSome hlow hhigh)
  exact iff_of_true ⟨(intTag w, b), by rw [packInt, hb]; rfl⟩ rfl

/-- An integer of eight bytes is written. -/
theorem outcome_integer {n : Int} (he : e.Fits) (hn : -(2 ^ 63) ≤ n ∧ n ≤ 2 ^ 63 - 1) :
    Outcome True (e.integer n) := by
  rw [integer]
  split
  · exact .ok trivial (he.append rfl)
  split
  · exact .ok trivial (he.append rfl)
  split
  · exact outcome_wrappedInt he (by simp [IntWidth.bytes]; omega) (by simp [IntWidth.bytes]; omega)
  split
  · exact outcome_wrappedInt he (by simp [IntWidth.bytes]; omega) (by simp [IntWidth.bytes]; omega)
  split
  · exact outcome_wrappedInt he (by simp [IntWidth.bytes]; omega) (by simp [IntWidth.bytes]; omega)
  · exact outcome_wrappedInt he (by simp [IntWidth.bytes]; omega) (by simp [IntWidth.bytes]; omega)

/-- A byte string is written if and only if a length field can hold its length. -/
theorem sized_isOk (short long : Nat) (raw : Bytes) :
    (∃ p, sized short long raw = .ok p) ↔ raw.length ≤ 0xFFFFFFFFFFFFFFFF := by
  rw [sized, lengthField]
  split
  · exact iff_of_true ⟨_, rfl⟩ (by omega)
  split
  · exact iff_of_true ⟨_, rfl⟩ (by omega)
  split
  · exact iff_of_true ⟨_, rfl⟩ (by omega)
  split
  · exact iff_of_true ⟨_, rfl⟩ (by omega)
  split
  · next hle => exact iff_of_true ⟨_, rfl⟩ hle
  · next hlt => exact iff_of_false (fun ⟨_, h⟩ ↦ nomatch h) hlt

theorem outcome_string {s : PyStr} (he : e.Fits) (hs : s.encodeUtf8.isSome = true) :
    Outcome ((Obj.str s).fits = true) (e.string s) := by
  obtain ⟨raw, hraw⟩ := Option.isSome_iff_exists.mp hs
  refine outcome_scalar he ?_ fun x hx hfits ↦ by rwa [← Obj.eq_of_pyEq_str hx]
  rw [hraw, Obj.fits, hraw, Option.getD_some, decide_eq_true_eq]
  exact sized_isOk _ _ raw

theorem outcome_bytes {b : Bytes} (he : e.Fits) :
    Outcome ((Obj.bytes .bytes b).fits = true) (e.bytes b) := by
  refine outcome_scalar he ?_ fun x hx hfits ↦ ?_
  · rw [Obj.fits, decide_eq_true_eq]
    exact sized_isOk _ _ b
  · obtain ⟨k, rfl⟩ := Obj.eq_of_pyEq_bytes hx
    exact hfits

/-- At this depth, the object is not nested too deep, and its strings are not too long. -/
def Writable (depth : Nat) (v : Obj) : Prop :=
  depth + v.height ≤ maxDepth ∧ ∀ x ∈ v.leaves, x.fits = true

/-- The object is written at this depth if and only if it can be. -/
def Writes (depth : Nat) (v : Obj) : Prop :=
  ∀ e : Encoder, e.Fits → Outcome (Writable depth v) (value depth v e)

/-- The loop of `_array`. -/
theorem outcome_values {depth : Nat} {xs : List Obj} (hxs : ∀ x ∈ xs, Writes depth x)
    (he : e.Fits) : Outcome (∀ x ∈ xs, Writable depth x) (values depth xs e) := by
  induction xs generalizing e with
  | nil => exact .ok nofun he
  | cons x xs ih =>
      obtain ⟨hx, hxs⟩ := List.forall_mem_cons.mp hxs
      rw [values]
      refine ((hx e he).bind fun e₁ he₁ ↦ ih hxs he₁).congr ?_
      rw [List.forall_mem_cons]

/-- The loop of `_dict`. -/
theorem outcome_entries {depth : Nat} {items : List (Obj × Obj)}
    (hitems : ∀ p ∈ items, Writes depth p.1 ∧ Writes depth p.2) (he : e.Fits) :
    Outcome (∀ p ∈ items, Writable depth p.1 ∧ Writable depth p.2) (entries depth items e) := by
  induction items generalizing e with
  | nil => exact .ok nofun he
  | cons p items ih =>
      obtain ⟨⟨hk, hv⟩, hitems⟩ := List.forall_mem_cons.mp hitems
      rw [entries]
      refine ((hk e he).bind fun e₁ he₁ ↦ (hv e₁ he₁).bind fun e₂ he₂ ↦ ih hitems he₂).congr ?_
      rw [List.forall_mem_cons, and_assoc]

/-- A container, in either of its forms. -/
theorem outcome_container {c short : Prop} [Decidable short] {tag tag' : Nat}
    {loop : Encoder → Except PyErr Encoder} (hloop : ∀ e, e.Fits → Outcome c (loop e))
    (he : e.Fits) :
    Outcome c (if short then loop (e.emit tag []) else do
      let e ← loop (e.emit tag' [])
      return e.emit Tag.terminator []) := by
  split
  · exact hloop _ he
  · exact ((hloop (e.emit tag' []) he).bind fun e₁ he₁ ↦
      .ok (e := e₁.emit Tag.terminator []) trivial he₁).congr (iff_of_eq (and_true c))

theorem writes_seq {k : SeqKind} {xs : List Obj} (hxs : ∀ x ∈ xs, ∀ depth, Writes depth x)
    (depth : Nat) : Writes depth (.seq k xs) := by
  intro e he
  rw [value]
  refine (outcome_container (fun e he ↦ outcome_values (fun x hx ↦ hxs x hx (depth + 1)) he)
    he).checkDepth.checkDepth.congr ?_
  have hheight : depth + 1 ≤ maxDepth ∧ (∀ x ∈ xs, depth + 1 + x.height ≤ maxDepth) ↔
      depth + (Obj.heightList xs + 1) ≤ maxDepth := by
    constructor
    · rintro ⟨hdepth, hall⟩
      have hle : Obj.heightList xs ≤ maxDepth - (depth + 1) :=
        Obj.heightList_le.mpr fun x hx ↦ by have := hall x hx; omega
      omega
    · intro hle
      refine ⟨by omega, fun x hx ↦ ?_⟩
      have := Obj.heightList_le.mp (Nat.le_refl _) x hx
      omega
  have hleaves : (∀ x ∈ xs, ∀ y ∈ x.leaves, y.fits = true) ↔
      ∀ y ∈ Obj.leavesList xs, y.fits = true := by
    simp only [Obj.mem_leavesList]
    constructor
    · rintro h y ⟨x, hx, hy⟩
      exact h x hx y hy
    · intro h x hx y hy
      exact h y ⟨x, hx, hy⟩
  rw [Writable, Obj.height, Obj.leaves, ← hheight, ← hleaves]
  constructor
  · rintro ⟨-, hdepth, hall⟩
    exact ⟨⟨hdepth, fun x hx ↦ (hall x hx).1⟩, fun x hx ↦ (hall x hx).2⟩
  · rintro ⟨⟨hdepth, hall⟩, hfits⟩
    exact ⟨Nat.le_of_succ_le hdepth, hdepth, fun x hx ↦ ⟨hall x hx, hfits x hx⟩⟩

theorem writes_dict {items : List (Obj × Obj)}
    (hitems : ∀ p ∈ items, ∀ depth, Writes depth p.1 ∧ Writes depth p.2) (depth : Nat) :
    Writes depth (.dict items) := by
  intro e he
  rw [value]
  refine (outcome_container (fun e he ↦ outcome_entries (fun p hp ↦ hitems p hp (depth + 1)) he)
    he).checkDepth.checkDepth.congr ?_
  have hheight : depth + 1 ≤ maxDepth ∧ (∀ p ∈ items, depth + 1 + p.1.height ≤ maxDepth ∧
      depth + 1 + p.2.height ≤ maxDepth) ↔ depth + (Obj.heightItems items + 1) ≤ maxDepth := by
    constructor
    · rintro ⟨hdepth, hall⟩
      have hle : Obj.heightItems items ≤ maxDepth - (depth + 1) :=
        Obj.heightItems_le.mpr fun p hp ↦ by have := hall p hp; omega
      omega
    · intro hle
      refine ⟨by omega, fun p hp ↦ ?_⟩
      have := Obj.heightItems_le.mp (Nat.le_refl _) p hp
      omega
  have hleaves : (∀ p ∈ items, (∀ y ∈ p.1.leaves, y.fits = true) ∧
      ∀ y ∈ p.2.leaves, y.fits = true) ↔ ∀ y ∈ Obj.leavesItems items, y.fits = true := by
    simp only [Obj.mem_leavesItems]
    constructor
    · rintro h y ⟨p, hp, hy | hy⟩
      · exact (h p hp).1 y hy
      · exact (h p hp).2 y hy
    · exact fun h p hp ↦ ⟨fun y hy ↦ h y ⟨p, hp, .inl hy⟩, fun y hy ↦ h y ⟨p, hp, .inr hy⟩⟩
  rw [Writable, Obj.height, Obj.leaves, ← hheight, ← hleaves]
  constructor
  · rintro ⟨-, hdepth, hall⟩
    exact ⟨⟨hdepth, fun p hp ↦ ⟨(hall p hp).1.1, (hall p hp).2.1⟩⟩,
      fun p hp ↦ ⟨(hall p hp).1.2, (hall p hp).2.2⟩⟩
  · rintro ⟨⟨hdepth, hall⟩, hfits⟩
    exact ⟨Nat.le_of_succ_le hdepth, hdepth, fun p hp ↦
      ⟨⟨(hall p hp).1, (hfits p hp).1⟩, (hall p hp).2, (hfits p hp).2⟩⟩

/-- A scalar is written behind the check of its depth. -/
theorem writes_scalar {depth : Nat} {v : Obj} {f : Encoder → Except PyErr Encoder}
    (hvalue : ∀ e, value depth v e = checkDepth depth >>= fun _ ↦ f e)
    (hheight : v.height = 0) (hleaves : v.leaves = [v])
    (hf : ∀ e, e.Fits → Outcome (v.fits = true) (f e)) : Writes depth v := by
  intro e he
  rw [hvalue]
  refine (hf e he).checkDepth.congr ?_
  rw [Writable, hheight, hleaves, Nat.add_zero, List.forall_mem_singleton]

/-- **What the encoder writes of what the decoder makes.** -/
theorem writes_of_ordinary {v : Obj} (h : v.Ordinary) (depth : Nat) : Writes depth v := by
  obtain ⟨hdecoded, hfloat, hterminator⟩ := h
  induction hdecoded generalizing depth with
  | none =>
      exact writes_scalar (f := fun e ↦ .ok (e.emit Tag.null [])) (fun e ↦ by rw [value]; rfl) rfl
        rfl fun e he ↦ .ok rfl he
  | terminator => cases hterminator .terminator (List.mem_singleton_self _)
  | scalar x hx hmade =>
      cases x with
      | bool b =>
          refine writes_scalar (f := fun e ↦ .ok
            ((e.emit (if b then Tag.true else Tag.false) []).trackLiteral (.bool b)))
            (fun e ↦ ?_) rfl rfl fun e he ↦ .ok rfl (he.append rfl)
          cases b <;> rw [value] <;> rfl
      | int n =>
          exact writes_scalar (fun e ↦ by rw [value]) rfl rfl fun e he ↦
            (outcome_integer he hmade).congr (iff_of_true trivial rfl)
      | str s =>
          exact writes_scalar (fun e ↦ by rw [value]) rfl rfl fun e he ↦ outcome_string he hmade
      | bytes k b =>
          cases k with
          | bytes =>
              exact writes_scalar (fun e ↦ by rw [value]) rfl rfl fun e he ↦ outcome_bytes he
          | _ => cases hx
      | float x => cases hfloat (.float x) (List.mem_singleton_self _)
      | _ => cases hx
  | list xs elems ih =>
      refine writes_seq (fun x hx depth ↦ ?_) depth
      exact ih x hx depth (fun y hy ↦ hfloat y (Obj.mem_leavesList.mpr ⟨x, hx, hy⟩))
        fun y hy ↦ hterminator y (Obj.mem_leavesList.mpr ⟨x, hx, hy⟩)
  | dict items keys values hhash hdistinct ihk ihv =>
      refine writes_dict (fun p hp depth ↦ ⟨?_, ?_⟩) depth
      · exact ihk p hp depth (fun y hy ↦ hfloat y (Obj.mem_leavesItems.mpr ⟨p, hp, .inl hy⟩))
          fun y hy ↦ hterminator y (Obj.mem_leavesItems.mpr ⟨p, hp, .inl hy⟩)
      · exact ihv p hp depth (fun y hy ↦ hfloat y (Obj.mem_leavesItems.mpr ⟨p, hp, .inr hy⟩))
          fun y hy ↦ hterminator y (Obj.mem_leavesItems.mpr ⟨p, hp, .inr hy⟩)

end Encoder

/-- What is returned by `encode` for what the decoder makes. -/
theorem encode_isOk_iff {v : Obj} (h : v.Ordinary) :
    (∃ w, encode v = .ok w) ↔ v.height ≤ maxDepth ∧ ∀ x ∈ v.leaves, x.fits = true := by
  have hinit : Encoder.init.Fits := List.forall_mem_nil _
  rw [encode]
  have hwritable : Encoder.Writable 0 v ↔
      v.height ≤ maxDepth ∧ ∀ x ∈ v.leaves, x.fits = true := by
    rw [Encoder.Writable, Nat.zero_add]
  rw [← hwritable]
  rcases Encoder.writes_of_ordinary h 0 .init hinit with ⟨hc, e, he, -⟩ | ⟨hc, err, herr⟩
  · exact iff_of_true ⟨e.buf, by rw [he]; rfl⟩ hc
  · refine iff_of_false ?_ hc
    rintro ⟨w, hw⟩
    rw [herr] at hw
    cases hw

/-- **What is decoded is encoded, and decodes to itself, if and only if no plain 39 occurs in
it, its containers are nested at most as deep as the encoder allows, and its strings have
lengths that fit in eight bytes.** -/
theorem encode_decode_iff (b : Bytes) (v : Obj) (hb : decode b = .ok v)
    (hfloat : ∀ x ∈ v.leaves, x.isFloat = false)
    (hterminator : ∀ x ∈ v.leaves, x.isTerminator = false) :
    (∃ w, encode v = .ok w ∧ decode w = .ok v) ↔
      v.hasPlain39 = false ∧ v.height ≤ maxDepth ∧ ∀ x ∈ v.leaves, x.fits = true := by
  have hordinary : v.Ordinary := ⟨decoded_of_decode hb, hfloat, hterminator⟩
  obtain ⟨hser, herase⟩ := hordinary.carried
  rw [← encode_isOk_iff hordinary]
  constructor
  · rintro ⟨w, hw, hdecode⟩
    refine ⟨Bool.eq_false_iff.mpr fun h39 ↦ ?_, w, hw⟩
    have herror := decode_encode hser hw
    rw [if_pos h39] at herror
    obtain ⟨err, herr⟩ := herror
    rw [herr] at hdecode
    cases hdecode
  · rintro ⟨h39, w, hw⟩
    have hdecode := decode_encode hser hw
    rw [if_neg (Bool.eq_false_iff.mp h39), herase] at hdecode
    exact ⟨w, hw, hdecode⟩

/-- A null-terminated string in an array that runs up to a terminator: forms that the encoder
does not use. -/
theorem encode_decode_iff_array : ∃ w, encode (.list [.int 5, .text "hi"]) = .ok w ∧
    decode w = .ok (.list [.int 5, .text "hi"]) := by
  have hlength : ((PyStr.ofString "hi").encodeUtf8.getD []).length = 2 := rfl
  have hfits : (Obj.text "hi").fits = true := by
    rw [Obj.fits, hlength]
    rfl
  have hleaves : ∀ P : Obj → Prop, P (.int 5) → P (.text "hi") →
      ∀ x ∈ (Obj.list [.int 5, .text "hi"]).leaves, P x := fun P h h' ↦
    List.forall_mem_cons.mpr ⟨h, List.forall_mem_singleton.mpr h'⟩
  exact (encode_decode_iff [0xDF, 0x0D, 0x6F, 0x68, 0x69, 0x00, 0x03] _ rfl
    (hleaves _ rfl rfl) (hleaves _ rfl rfl)).mpr ⟨rfl, by decide, hleaves _ rfl hfits⟩

/-- An empty array in `n` arrays. -/
def nestedArrays : Nat → Obj
  | 0 => .list []
  | n + 1 => .list [nestedArrays n]

theorem height_nestedArrays (n : Nat) : (nestedArrays n).height = n + 1 := by
  induction n with
  | zero => rfl
  | succ n ih => rw [nestedArrays, Obj.height, Obj.heightList, Obj.heightList, ih, Nat.max_zero]

theorem leaves_nestedArrays (n : Nat) : (nestedArrays n).leaves = [] := by
  induction n with
  | zero => rfl
  | succ n ih => rw [nestedArrays, Obj.leaves, Obj.leavesList, Obj.leavesList, ih]; rfl

/-- The decoder reads an empty array at its last level. -/
theorem value_nestedArrays (n fuel depth : Nat) (hdepth : depth + n ≤ maxDepth)
    (rest : Bytes) (seen : List Obj) :
    Decoder.value (n + 1 + fuel) depth ⟨List.replicate n 0xD1 ++ 0xD0 :: rest, seen⟩ =
      .ok (nestedArrays n, ⟨rest, seen⟩) := by
  induction n generalizing depth with
  | zero =>
      have hcheck : Encoder.checkDepth depth = .ok () := if_neg (by omega)
      rw [Nat.zero_add, Nat.add_comm]
      exact Decoder.value_cons hcheck (by decide) rest seen
  | succ n ih =>
      have hcheck : Encoder.checkDepth depth = .ok () := if_neg (by omega)
      have hread := ih (depth + 1) (by omega)
      have hfuel : n + 1 + 1 + fuel = (n + 1 + fuel) + 1 := by omega
      rw [hfuel, List.replicate_succ, List.cons_append]
      have htag : Tag.array + 1 < 256 := by decide
      refine (Decoder.value_cons hcheck htag _ seen).trans ?_
      rw [Decoder.ofTag_array (by decide), Decoder.counted, hread, bind_ok]
      rfl

/-- The decoder reads an empty array at the last level, and the encoder does not write it; an
integer that is 39 is written, and not read. -/
theorem not_encode_decode_nested :
    (decode (List.replicate 64 0xD1 ++ [0xD0]) = .ok (nestedArrays 64) ∧
      (nestedArrays 64).leaves = [] ∧ ¬∃ w, encode (nestedArrays 64) = .ok w) ∧
    decode [0x30, 0x27] = .ok (.int 39) ∧ encode (.int 39) = .ok [0x2F] ∧
      decode [0x2F] = .error (.valueError "unknown HDS tag 0x2f") := by
  have hdecode : decode (List.replicate 64 0xD1 ++ [0xD0]) = .ok (nestedArrays 64) := by
    have hread := value_nestedArrays 64 1 0 (Nat.le_refl _) [] []
    rw [decode, List.length_append, List.length_replicate, List.length_singleton, hread, bind_ok]
    rfl
  have hnone : ∀ x ∈ (nestedArrays 64).leaves, x.isFloat = false ∧ x.isTerminator = false := by
    rw [leaves_nestedArrays]
    rintro _ ⟨⟩
  have h39 : decode [0x30, 0x27] = .ok (.int 39) :=
    decode_encode (v := .intN .int8 39) (.intN ..) rfl
  refine ⟨⟨hdecode, leaves_nestedArrays 64, fun h ↦ ?_⟩, h39, rfl, rfl⟩
  have hheight := ((encode_isOk_iff ⟨decoded_of_decode hdecode, fun x hx ↦ (hnone x hx).1,
    fun x hx ↦ (hnone x hx).2⟩).mp h).1
  rw [height_nestedArrays] at hheight
  exact absurd hheight (by decide)

end Hds

end AtvRemote
