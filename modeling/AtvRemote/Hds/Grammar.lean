import AtvRemote.Hds.RoundTrip

/-!
# The messages that are accepted

The format as a grammar: which bytes are a value, what object they stand for, and what they
do to the table of scalars.  `Term n` is about values that are nested at most `n` deep, and
its last argument says whether the terminator stands where a value should.  The decoder
accepts exactly the messages of this grammar (`decode_eq_ok_iff`), and raises nothing but
`ValueError` on anything else (`onlyValueErrors_decode`).
-/

namespace AtvRemote

open Lib

namespace Obj

/-- The scalars that the decoder makes. -/
def isScalar : Obj → Bool
  | .bool _ | .int _ | .float _ | .str _ | .bytes .bytes _ => true
  | _ => false

end Obj

namespace Hds

/-! ## Grammar -/

/-- Between two tables, bytes stand for something; the terminator may be misplaced in them. -/
abbrev Reading (α : Type) := List Obj → Bytes → α → List Obj → Bool → Prop

section

variable (R : Reading Obj)

/-- The elements of a counted array. -/
inductive Elements : Nat → Reading (List Obj)
  | nil {seen : List Obj} : Elements 0 seen [] [] seen false
  | cons {n : Nat} {seen seen₁ seen₂ : List Obj} {b bs : Bytes} {x : Obj} {xs : List Obj}
      {m ms : Bool} : R seen b x seen₁ m → Elements n seen₁ bs xs seen₂ ms →
      Elements (n + 1) seen (b ++ bs) (x :: xs) seen₂ (x.isTerminator || m || ms)

/-- The elements of a terminated array, with its terminator. -/
inductive ElementsUntil : Reading (List Obj)
  | nil {seen seen₁ : List Obj} {b : Bytes} {m : Bool} : R seen b .terminator seen₁ m →
      ElementsUntil seen b [] seen₁ m
  | cons {seen seen₁ seen₂ : List Obj} {b bs : Bytes} {x : Obj} {xs : List Obj} {m ms : Bool} :
      R seen b x seen₁ m → x.isTerminator = false → ElementsUntil seen₁ bs xs seen₂ ms →
      ElementsUntil seen (b ++ bs) (x :: xs) seen₂ (m || ms)

/-- The entries of a counted dictionary, behind those in `items`. -/
inductive Entries : Nat → List (Obj × Obj) → Reading (List (Obj × Obj))
  | nil {items : List (Obj × Obj)} {seen : List Obj} : Entries 0 items seen [] items seen false
  | cons {n : Nat} {items items' : List (Obj × Obj)} {seen seen₁ seen₂ seen₃ : List Obj}
      {b b' bs : Bytes} {k v : Obj} {m m' ms : Bool} :
      R seen b k seen₁ m → R seen₁ b' v seen₂ m' → k.hashable = true →
      Entries n (Obj.setItem items k v) seen₂ bs items' seen₃ ms →
      Entries (n + 1) items seen (b ++ (b' ++ bs)) items' seen₃
        (k.isTerminator || v.isTerminator || m || m' || ms)

/-- The entries of a terminated dictionary, with its terminator. -/
inductive EntriesUntil : List (Obj × Obj) → Reading (List (Obj × Obj))
  | nil {items : List (Obj × Obj)} {seen seen₁ : List Obj} {b : Bytes} {m : Bool} :
      R seen b .terminator seen₁ m → EntriesUntil items seen b items seen₁ m
  | cons {items items' : List (Obj × Obj)} {seen seen₁ seen₂ seen₃ : List Obj}
      {b b' bs : Bytes} {k v : Obj} {m m' ms : Bool} :
      R seen b k seen₁ m → k.isTerminator = false → R seen₁ b' v seen₂ m' → k.hashable = true →
      EntriesUntil (Obj.setItem items k v) seen₂ bs items' seen₃ ms →
      EntriesUntil items seen (b ++ (b' ++ bs)) items' seen₃ (v.isTerminator || m || m' || ms)

/-- A value whose parts are read as `R` says. -/
inductive Form : Reading Obj
  | terminator {seen : List Obj} : Form seen [UInt8.ofNat Tag.terminator] .terminator seen false
  | null {seen : List Obj} : Form seen [UInt8.ofNat Tag.null] .none seen false
  | literal {seen : List Obj} {tag : Nat} {data : Bytes} {x : Obj} : IsLiteral tag data x →
      x.isScalar = true → Form seen (UInt8.ofNat tag :: data) x (seen ++ [x]) false
  | reference {seen : List Obj} {k : Nat} {x : Obj} : k < 48 → seen[k]? = some x →
      Form seen [UInt8.ofNat (Tag.compress + k)] x seen false
  | array {seen seen₁ : List Obj} {n : Nat} {b : Bytes} {xs : List Obj} {m : Bool} : n ≤ 14 →
      Elements R n seen b xs seen₁ m →
      Form seen (UInt8.ofNat (Tag.array + n) :: b) (.list xs) seen₁ m
  | arrayTerminated {seen seen₁ : List Obj} {b : Bytes} {xs : List Obj} {m : Bool} :
      ElementsUntil R seen b xs seen₁ m →
      Form seen (UInt8.ofNat Tag.arrayTerminated :: b) (.list xs) seen₁ m
  | dict {seen seen₁ : List Obj} {n : Nat} {b : Bytes} {items : List (Obj × Obj)} {m : Bool} :
      n ≤ 14 → Entries R n [] seen b items seen₁ m →
      Form seen (UInt8.ofNat (Tag.dict + n) :: b) (.dict items) seen₁ m
  | dictTerminated {seen seen₁ : List Obj} {b : Bytes} {items : List (Obj × Obj)} {m : Bool} :
      EntriesUntil R [] seen b items seen₁ m →
      Form seen (UInt8.ofNat Tag.dictTerminated :: b) (.dict items) seen₁ m

end

/-- The values that are nested less than `n` deep. -/
def Term : Nat → Reading Obj
  | 0 => fun _ _ _ _ _ ↦ False
  | n + 1 => Form (Term n)

/-! ## What is accepted is a message -/

attribute [local simp] Tag.integer0 Tag.integer39 Tag.utf8Short Tag.utf8ShortEnd Tag.utf8_8
  Tag.utf8_64 Tag.dataShort Tag.dataShortEnd Tag.data8 Tag.data64 Tag.compress Tag.compressEnd
  Tag.array Tag.arrayEnd Tag.dict Tag.dictEnd

namespace Decoder

/-- A parser of scalars: it takes a piece off the front, whatever follows, and records what
it makes of it. -/
def ReadsScalar (p : Decoder → Except PyErr (Obj × Decoder)) : Prop :=
  ∀ d x d', p d = .ok (x, d') → x.isScalar = true ∧ ∃ data, d.rest = data ++ d'.rest ∧
    d'.seen = d.seen ++ [x] ∧ ∀ rest ds, p ⟨data ++ rest, ds⟩ = .ok (x, ⟨rest, ds ++ [x]⟩)

theorem readsScalar_track {x : Obj} (hx : x.isScalar = true) :
    ReadsScalar fun d ↦ .ok (d.track x) := by
  rintro d x' d' h
  obtain ⟨rfl, rfl⟩ := Prod.mk.inj (Except.ok.inj h)
  exact ⟨hx, [], rfl, rfl, fun rest ds ↦ rfl⟩

/-- What the makers make. -/
def MakesScalar (make : Bytes → Except PyErr Obj) : Prop :=
  ∀ b x, make b = .ok x → x.isScalar = true

theorem take_eq_ok {d d' : Decoder} {n : Nat} {b : Bytes} (h : d.take n = .ok (b, d')) :
    b.length = n ∧ d = ⟨b ++ d'.rest, d'.seen⟩ := by
  rw [take] at h
  split at h
  · cases h
  · next hle =>
    obtain ⟨rfl, rfl⟩ := Prod.mk.inj (Except.ok.inj h)
    exact ⟨List.length_take_of_le (Nat.le_of_not_lt hle), by rw [List.take_append_drop]⟩

theorem readsScalar_literal (n : Nat) {make : Bytes → Except PyErr Obj} (hmake : MakesScalar make) :
    ReadsScalar fun d ↦ d.literal n make := by
  intro d x d' h
  obtain ⟨⟨b, d₁⟩, hb, h⟩ := bind_eq_ok.mp h
  obtain ⟨y, hy, h⟩ := bind_eq_ok.mp h
  obtain ⟨rfl, rfl⟩ := Prod.mk.inj (Except.ok.inj h)
  obtain ⟨hlength, rfl⟩ := take_eq_ok hb
  exact ⟨hmake b y hy, b, rfl, rfl, fun rest ds ↦ literal_append hlength hy rest ds⟩

theorem readsScalar_sizedLiteral (width : Nat) {make : Bytes → Except PyErr Obj}
    (hmake : MakesScalar make) : ReadsScalar fun d ↦ d.sizedLiteral width make := by
  intro d x d' h
  obtain ⟨⟨n, d₁⟩, hn, h⟩ := bind_eq_ok.mp h
  obtain ⟨⟨size, d₂⟩, hsize, hn⟩ := bind_eq_ok.mp hn
  obtain ⟨rfl, rfl⟩ := Prod.mk.inj (Except.ok.inj hn)
  obtain ⟨hlength, hd⟩ := take_eq_ok hsize
  obtain ⟨hx, data, hdata, hseen, hread⟩ := readsScalar_literal (ofLE size) hmake d₂ x d' h
  refine ⟨hx, size ++ data, ?_, ?_, fun rest ds ↦ ?_⟩
  · rw [hd, List.append_assoc, ← hdata]
  · rw [hseen, hd]
  · have htake := take_append hlength (data ++ rest) ds
    simp only [sizedLiteral, length, List.append_assoc, htake, bind_ok, pure_eq_ok]
    exact hread rest ds

theorem splitTerminated_eq_some {t : UInt8} {b value rest : Bytes}
    (h : splitTerminated t b = some (value, rest)) :
    b = (value ++ [t]) ++ rest ∧
      ∀ rest', splitTerminated t ((value ++ [t]) ++ rest') = some (value, rest') := by
  induction b generalizing value with
  | nil => cases h
  | cons c b ih =>
      rw [splitTerminated] at h
      split at h
      · next heq =>
        obtain ⟨rfl, rfl⟩ := Prod.mk.inj (Option.some.inj h)
        subst heq
        exact ⟨rfl, fun rest' ↦ if_pos rfl⟩
      · next hne =>
        obtain ⟨⟨value', rest'⟩, hp, h⟩ := Option.map_eq_some_iff.mp h
        obtain ⟨rfl, rfl⟩ := Prod.mk.inj h
        obtain ⟨rfl, hagain⟩ := ih hp
        refine ⟨rfl, fun rest'' ↦ ?_⟩
        have hagain := hagain rest''
        rw [List.cons_append, List.cons_append, splitTerminated, if_neg hne, hagain]
        rfl

theorem readsScalar_terminatedLiteral (t : UInt8) {make : Bytes → Except PyErr Obj}
    (hmake : MakesScalar make) : ReadsScalar fun d ↦ d.terminatedLiteral t make := by
  intro d x d' h
  obtain ⟨⟨b, d₁⟩, hb, h⟩ := bind_eq_ok.mp h
  obtain ⟨y, hy, h⟩ := bind_eq_ok.mp h
  obtain ⟨rfl, rfl⟩ := Prod.mk.inj (Except.ok.inj h)
  rw [readTerminated] at hb
  split at hb
  · next value rest heq =>
    obtain ⟨rfl, rfl⟩ := Prod.mk.inj (Except.ok.inj hb)
    obtain ⟨hrest, hagain⟩ := splitTerminated_eq_some heq
    refine ⟨hmake _ _ hy, value ++ [t], hrest, rfl, fun rest' ds ↦ ?_⟩
    simp only [terminatedLiteral, readTerminated, hagain rest', bind_ok, hy, pure_eq_ok]
    rfl
  · cases hb

theorem makesScalar_makeStr : MakesScalar makeStr := by
  intro b x h
  rw [makeStr] at h
  split at h <;> cases h
  rfl

theorem makesScalar_makeBytes : MakesScalar makeBytes := by
  rintro b x h
  cases h
  rfl

theorem makesScalar_makeInt : MakesScalar makeInt := by
  rintro b x h
  cases h
  rfl

theorem makesScalar_makeFloat64 : MakesScalar makeFloat64 := by
  rintro b x h
  cases h
  rfl

theorem makesScalar_makeFloat32 : MakesScalar makeFloat32 := by
  rintro b x h
  cases h
  rfl

theorem makesScalar_makeUuid : MakesScalar makeUuid := by
  rintro b x h
  cases h
  rfl

/-- What reading behind a tag does. -/
inductive TagStep (elem : Decoder → Except PyErr (Obj × Decoder)) (fuel tag : Nat) (d : Decoder) :
    Obj → Decoder → Prop
  | terminator : tag = Tag.terminator → TagStep elem fuel tag d .terminator d
  | null : tag = Tag.null → TagStep elem fuel tag d .none d
  | literal {x : Obj} {d' : Decoder} {data : Bytes} : IsLiteral tag data x → x.isScalar = true →
      d.rest = data ++ d'.rest → d'.seen = d.seen ++ [x] → TagStep elem fuel tag d x d'
  | reference {k : Nat} {x : Obj} : k < 48 → tag = Tag.compress + k → d.seen[k]? = some x →
      TagStep elem fuel tag d x d
  | array {n : Nat} {xs : List Obj} {d' : Decoder} : n ≤ 14 → tag = Tag.array + n →
      counted elem n d = .ok (xs, d') → TagStep elem fuel tag d (.list xs) d'
  | arrayTerminated {xs : List Obj} {d' : Decoder} : tag = Tag.arrayTerminated →
      untilTerminator elem fuel d = .ok (xs, d') → TagStep elem fuel tag d (.list xs) d'
  | dict {n : Nat} {items : List (Obj × Obj)} {d' : Decoder} : n ≤ 14 → tag = Tag.dict + n →
      countedEntries elem n [] d = .ok (items, d') → TagStep elem fuel tag d (.dict items) d'
  | dictTerminated {items : List (Obj × Obj)} {d' : Decoder} : tag = Tag.dictTerminated →
      entriesUntilTerminator elem fuel [] d = .ok (items, d') →
      TagStep elem fuel tag d (.dict items) d'

variable {elem : Decoder → Except PyErr (Obj × Decoder)} {fuel tag : Nat} {d d' : Decoder} {x : Obj}

/-- A tag that stands for a scalar. -/
theorem TagStep.ofReadsScalar {p : Decoder → Except PyErr (Obj × Decoder)} (hp : ReadsScalar p)
    (htag : tag < 256) (heq : ∀ elem fuel d, ofTag elem fuel tag d = p d)
    (h : p d = .ok (x, d')) : TagStep elem fuel tag d x d' := by
  obtain ⟨hx, data, hrest, hseen, hread⟩ := hp d x d' h
  exact .literal ⟨htag, fun elem fuel rest ds ↦ (heq _ _ _).trans (hread rest ds)⟩ hx hrest hseen

/-- Either branch of a test. -/
theorem ite_cases {α : Type} {c : Prop} [Decidable c] {a b r : α} (h : (if c then a else b) = r) :
    (c ∧ a = r) ∨ (¬c ∧ b = r) := by
  split at h
  · next hc => exact .inl ⟨hc, h⟩
  · next hc => exact .inr ⟨hc, h⟩

theorem tagStep_of_ofTag (htag : tag < 256) (h : ofTag elem fuel tag d = .ok (x, d')) :
    TagStep elem fuel tag d x d' := by
  rw [ofTag] at h
  rcases ite_cases h with ⟨-, h⟩ | ⟨-, h⟩
  · cases h
  rcases ite_cases h with ⟨ht, h⟩ | ⟨-, h⟩
  · exact .ofReadsScalar (readsScalar_track rfl) htag (fun _ _ _ ↦ by rw [ht]; rfl) h
  rcases ite_cases h with ⟨ht, h⟩ | ⟨-, h⟩
  · exact .ofReadsScalar (readsScalar_track rfl) htag (fun _ _ _ ↦ by rw [ht]; rfl) h
  rcases ite_cases h with ⟨ht, h⟩ | ⟨-, h⟩
  · cases h
    exact .terminator ht
  rcases ite_cases h with ⟨ht, h⟩ | ⟨-, h⟩
  · cases h
    exact .null ht
  rcases ite_cases h with ⟨ht, h⟩ | ⟨-, h⟩
  · exact .ofReadsScalar (readsScalar_literal 16 makesScalar_makeUuid) htag
      (fun _ _ _ ↦ by rw [ht]; rfl) h
  rcases ite_cases h with ⟨ht, h⟩ | ⟨-, h⟩
  · exact .ofReadsScalar (readsScalar_literal 8 makesScalar_makeFloat64) htag
      (fun _ _ _ ↦ by rw [ht]; rfl) h
  rcases ite_cases h with ⟨ht, h⟩ | ⟨-, h⟩
  · exact .ofReadsScalar (readsScalar_track rfl) htag (fun _ _ _ ↦ by rw [ht]; rfl) h
  rcases ite_cases h with ⟨ht, h⟩ | ⟨-, h⟩
  · obtain ⟨n, rfl⟩ := Nat.exists_eq_add_of_le ht.1
    rw [Nat.add_sub_cancel_left] at h
    exact .ofReadsScalar (readsScalar_track rfl) htag
      (fun _ _ _ ↦ ofTag_integer (by simp at ht; omega)) h
  rcases ite_cases h with ⟨ht, h⟩ | ⟨-, h⟩
  · exact .ofReadsScalar (readsScalar_literal 1 makesScalar_makeInt) htag
      (fun _ _ _ ↦ by rw [ht]; rfl) h
  rcases ite_cases h with ⟨ht, h⟩ | ⟨-, h⟩
  · exact .ofReadsScalar (readsScalar_literal 2 makesScalar_makeInt) htag
      (fun _ _ _ ↦ by rw [ht]; rfl) h
  rcases ite_cases h with ⟨ht, h⟩ | ⟨-, h⟩
  · exact .ofReadsScalar (readsScalar_literal 4 makesScalar_makeInt) htag
      (fun _ _ _ ↦ by rw [ht]; rfl) h
  rcases ite_cases h with ⟨ht, h⟩ | ⟨-, h⟩
  · exact .ofReadsScalar (readsScalar_literal 8 makesScalar_makeInt) htag
      (fun _ _ _ ↦ by rw [ht]; rfl) h
  rcases ite_cases h with ⟨ht, h⟩ | ⟨-, h⟩
  · exact .ofReadsScalar (readsScalar_literal 4 makesScalar_makeFloat32) htag
      (fun _ _ _ ↦ by rw [ht]; rfl) h
  rcases ite_cases h with ⟨ht, h⟩ | ⟨-, h⟩
  · exact .ofReadsScalar (readsScalar_literal 8 makesScalar_makeFloat64) htag
      (fun _ _ _ ↦ by rw [ht]; rfl) h
  rcases ite_cases h with ⟨ht, h⟩ | ⟨-, h⟩
  · obtain ⟨n, rfl⟩ := Nat.exists_eq_add_of_le ht.1
    rw [Nat.add_sub_cancel_left] at h
    exact .ofReadsScalar (readsScalar_literal n makesScalar_makeStr) htag
      (fun _ _ _ ↦ ofTag_utf8Short (by simp at ht; omega)) h
  rcases ite_cases h with ⟨ht, h⟩ | ⟨-, h⟩
  · obtain ⟨n, rfl⟩ := Nat.exists_eq_add_of_le ht.1
    rw [Nat.add_sub_cancel_left] at h
    exact .ofReadsScalar (readsScalar_sizedLiteral (2 ^ n) makesScalar_makeStr) htag
      (fun _ _ _ ↦ ofTag_utf8Sized (by simp at ht; omega)) h
  rcases ite_cases h with ⟨ht, h⟩ | ⟨-, h⟩
  · exact .ofReadsScalar (readsScalar_terminatedLiteral 0 makesScalar_makeStr) htag
      (fun _ _ _ ↦ by rw [ht]; rfl) h
  rcases ite_cases h with ⟨ht, h⟩ | ⟨-, h⟩
  · obtain ⟨n, rfl⟩ := Nat.exists_eq_add_of_le ht.1
    rw [Nat.add_sub_cancel_left] at h
    exact .ofReadsScalar (readsScalar_literal n makesScalar_makeBytes) htag
      (fun _ _ _ ↦ ofTag_dataShort (by simp at ht; omega)) h
  rcases ite_cases h with ⟨ht, h⟩ | ⟨-, h⟩
  · obtain ⟨n, rfl⟩ := Nat.exists_eq_add_of_le ht.1
    rw [Nat.add_sub_cancel_left] at h
    exact .ofReadsScalar (readsScalar_sizedLiteral (2 ^ n) makesScalar_makeBytes) htag
      (fun _ _ _ ↦ ofTag_dataSized (by simp at ht; omega)) h
  rcases ite_cases h with ⟨ht, h⟩ | ⟨-, h⟩
  · exact .ofReadsScalar (readsScalar_terminatedLiteral _ makesScalar_makeBytes) htag
      (fun _ _ _ ↦ by rw [ht]; rfl) h
  rcases ite_cases h with ⟨ht, h⟩ | ⟨-, h⟩
  · obtain ⟨k, rfl⟩ := Nat.exists_eq_add_of_le ht.1
    rw [Nat.add_sub_cancel_left] at h
    split at h
    · next hk =>
      cases h
      exact .reference (by simp at ht; omega) rfl hk
    · cases h
  rcases ite_cases h with ⟨ht, h⟩ | ⟨-, h⟩
  · obtain ⟨n, rfl⟩ := Nat.exists_eq_add_of_le ht.1
    rw [Nat.add_sub_cancel_left] at h
    obtain ⟨⟨xs, d₁⟩, hxs, h⟩ := map_eq_ok.mp h
    obtain ⟨rfl, rfl⟩ := Prod.mk.inj h
    exact .array (by simp at ht; omega) rfl hxs
  rcases ite_cases h with ⟨ht, h⟩ | ⟨-, h⟩
  · obtain ⟨⟨xs, d₁⟩, hxs, h⟩ := map_eq_ok.mp h
    obtain ⟨rfl, rfl⟩ := Prod.mk.inj h
    exact .arrayTerminated ht hxs
  rcases ite_cases h with ⟨ht, h⟩ | ⟨-, h⟩
  · obtain ⟨n, rfl⟩ := Nat.exists_eq_add_of_le ht.1
    rw [Nat.add_sub_cancel_left] at h
    obtain ⟨⟨items, d₁⟩, hitems, h⟩ := map_eq_ok.mp h
    obtain ⟨rfl, rfl⟩ := Prod.mk.inj h
    exact .dict (by simp at ht; omega) rfl hitems
  rcases ite_cases h with ⟨ht, h⟩ | ⟨-, h⟩
  · obtain ⟨⟨items, d₁⟩, hitems, h⟩ := map_eq_ok.mp h
    obtain ⟨rfl, rfl⟩ := Prod.mk.inj h
    exact .dictTerminated ht hitems
  cases h

/-- What the parser `elem` accepts is read as `R` says. -/
def Sound {α : Type} (R : Reading α) (elem : Decoder → Except PyErr (α × Decoder)) : Prop :=
  ∀ d x d', elem d = .ok (x, d') → ∃ b m, d.rest = b ++ d'.rest ∧ R d.seen b x d'.seen m

section Sound

variable {R : Reading Obj} (helem : Sound R elem)

include helem

theorem sound_counted (n : Nat) : Sound (Elements R n) (counted elem n) := by
  induction n with
  | zero =>
      rintro d xs d' h
      cases h
      exact ⟨[], false, rfl, .nil⟩
  | succ n ih =>
      rintro d xs d' h
      obtain ⟨⟨x, d₁⟩, hx, h⟩ := bind_eq_ok.mp h
      obtain ⟨⟨xs, d₂⟩, hxs, h⟩ := map_eq_ok.mp h
      cases h
      obtain ⟨b, m, hb, hR⟩ := helem d x d₁ hx
      obtain ⟨bs, ms, hbs, hRs⟩ := ih d₁ xs d₂ hxs
      exact ⟨b ++ bs, _, by rw [hb, hbs, List.append_assoc], .cons hR hRs⟩

theorem sound_untilTerminator (fuel : Nat) :
    Sound (ElementsUntil R) (untilTerminator elem fuel) := by
  induction fuel with
  | zero => exact nofun
  | succ fuel ih =>
      rintro d xs d' h
      obtain ⟨⟨x, d₁⟩, hx, h⟩ := bind_eq_ok.mp h
      obtain ⟨b, m, hb, hR⟩ := helem d x d₁ hx
      rcases ite_cases h with ⟨ht, h⟩ | ⟨ht, h⟩
      · cases h
        cases x with
        | terminator => exact ⟨b, m, hb, .nil hR⟩
        | _ => cases ht
      · obtain ⟨⟨xs, d₂⟩, hxs, h⟩ := map_eq_ok.mp h
        cases h
        obtain ⟨bs, ms, hbs, hRs⟩ := ih d₁ xs d₂ hxs
        exact ⟨b ++ bs, _, by rw [hb, hbs, List.append_assoc],
          .cons hR (Bool.eq_false_iff.mpr ht) hRs⟩

theorem sound_assign {items items' : List (Obj × Obj)} {k : Obj}
    (h : assign elem items k d = .ok (items', d')) :
    ∃ b v m, d.rest = b ++ d'.rest ∧ R d.seen b v d'.seen m ∧ k.hashable = true ∧
      items' = Obj.setItem items k v := by
  obtain ⟨⟨v, d₁⟩, hv, h⟩ := bind_eq_ok.mp h
  obtain ⟨b, m, hb, hR⟩ := helem d v d₁ hv
  rcases ite_cases h with ⟨hk, h⟩ | ⟨-, h⟩
  · cases h
    exact ⟨b, v, m, hb, hR, hk, rfl⟩
  · cases h

theorem sound_countedEntries (n : Nat) (items : List (Obj × Obj)) :
    Sound (Entries R n items) (countedEntries elem n items) := by
  induction n generalizing items with
  | zero =>
      rintro d items' d' h
      cases h
      exact ⟨[], false, rfl, .nil⟩
  | succ n ih =>
      rintro d items' d' h
      obtain ⟨⟨k, d₁⟩, hk, h⟩ := bind_eq_ok.mp h
      obtain ⟨⟨items₁, d₂⟩, hassign, h⟩ := bind_eq_ok.mp h
      obtain ⟨b, m, hb, hR⟩ := helem d k d₁ hk
      obtain ⟨b', v, m', hb', hR', hhash, rfl⟩ := sound_assign helem hassign
      obtain ⟨bs, ms, hbs, hRs⟩ := ih _ d₂ items' d' h
      exact ⟨b ++ (b' ++ bs), _, by rw [hb, hb', hbs, List.append_assoc, List.append_assoc],
        .cons hR hR' hhash hRs⟩

theorem sound_entriesUntilTerminator (fuel : Nat) (items : List (Obj × Obj)) :
    Sound (EntriesUntil R items) (entriesUntilTerminator elem fuel items) := by
  induction fuel generalizing items with
  | zero => exact nofun
  | succ fuel ih =>
      rintro d items' d' h
      obtain ⟨⟨k, d₁⟩, hk, h⟩ := bind_eq_ok.mp h
      obtain ⟨b, m, hb, hR⟩ := helem d k d₁ hk
      rcases ite_cases h with ⟨ht, h⟩ | ⟨ht, h⟩
      · cases h
        cases k with
        | terminator => exact ⟨b, m, hb, .nil hR⟩
        | _ => cases ht
      · obtain ⟨⟨items₁, d₂⟩, hassign, h⟩ := bind_eq_ok.mp h
        obtain ⟨b', v, m', hb', hR', hhash, rfl⟩ := sound_assign helem hassign
        obtain ⟨bs, ms, hbs, hRs⟩ := ih _ d₂ items' d' h
        exact ⟨b ++ (b' ++ bs), _, by rw [hb, hb', hbs, List.append_assoc, List.append_assoc],
          .cons hR (Bool.eq_false_iff.mpr ht) hR' hhash hRs⟩

/-- Behind its tag, a value is read from its parts. -/
theorem sound_ofTag (htag : tag < 256) (h : ofTag elem fuel tag d = .ok (x, d')) :
    ∃ b m, d.rest = b ++ d'.rest ∧ Form R d.seen (UInt8.ofNat tag :: b) x d'.seen m := by
  cases tagStep_of_ofTag htag h with
  | terminator ht =>
      subst ht
      exact ⟨[], false, rfl, .terminator⟩
  | null ht =>
      subst ht
      exact ⟨[], false, rfl, .null⟩
  | literal hlit hx hrest hseen =>
      refine ⟨_, false, hrest, ?_⟩
      rw [hseen]
      exact .literal hlit hx
  | reference hk ht hx =>
      subst ht
      exact ⟨[], false, rfl, .reference hk hx⟩
  | array hn ht hxs =>
      subst ht
      obtain ⟨b, m, hb, hR⟩ := sound_counted helem _ _ _ _ hxs
      exact ⟨b, m, hb, .array hn hR⟩
  | arrayTerminated ht hxs =>
      subst ht
      obtain ⟨b, m, hb, hR⟩ := sound_untilTerminator helem _ _ _ _ hxs
      exact ⟨b, m, hb, .arrayTerminated hR⟩
  | dict hn ht hitems =>
      subst ht
      obtain ⟨b, m, hb, hR⟩ := sound_countedEntries helem _ _ _ _ _ hitems
      exact ⟨b, m, hb, .dict hn hR⟩
  | dictTerminated ht hitems =>
      subst ht
      obtain ⟨b, m, hb, hR⟩ := sound_entriesUntilTerminator helem _ _ _ _ _ hitems
      exact ⟨b, m, hb, .dictTerminated hR⟩

end Sound

/-- The tag of a value. -/
theorem tag_eq_ok {tag : Nat} (h : d.tag = .ok (tag, d')) :
    tag < 256 ∧ d = ⟨UInt8.ofNat tag :: d'.rest, d'.seen⟩ := by
  obtain ⟨⟨b, d₁⟩, hb, h⟩ := bind_eq_ok.mp h
  cases h
  obtain ⟨hlength, rfl⟩ := take_eq_ok hb
  obtain ⟨c, rfl⟩ := List.length_eq_one_iff.mp hlength
  have hlt := ofLE_lt [c]
  have hbyte : UInt8.ofNat (ofLE [c]) = c := by
    apply UInt8.toNat_inj.mp
    have := c.toNat_lt
    simp [ofLE]
  exact ⟨hlt, by rw [hbyte]; rfl⟩

theorem checkDepth_eq_ok {depth : Nat} {u : Unit} (h : Encoder.checkDepth depth = .ok u) :
    depth ≤ maxDepth := by
  rcases ite_cases h with ⟨-, h⟩ | ⟨hle, -⟩
  · cases h
  · exact Nat.le_of_not_lt hle

/-- **What the decoder accepts is a message.** -/
theorem sound_value (fuel depth : Nat) :
    Sound (Term (maxDepth + 1 - depth)) (value fuel depth) := by
  induction fuel generalizing depth with
  | zero => exact nofun
  | succ fuel ih =>
      rintro d x d' h
      obtain ⟨u, hdepth, h⟩ := bind_eq_ok.mp h
      obtain ⟨⟨tag, d₁⟩, htag, h⟩ := bind_eq_ok.mp h
      obtain ⟨hlt, hd⟩ := tag_eq_ok htag
      obtain ⟨b, m, hb, hform⟩ := sound_ofTag (ih (depth + 1)) hlt h
      have hlevel : maxDepth + 1 - depth = (maxDepth + 1 - (depth + 1)) + 1 := by
        have hle := checkDepth_eq_ok hdepth
        omega
      refine ⟨UInt8.ofNat tag :: b, m, ?_, ?_⟩
      · rw [hd, hb]
        rfl
      · rw [hlevel, hd]
        exact hform

/-! ## What is a message is accepted -/

/-- The parser `elem` accepts what `R` reads, when there is little enough of it. -/
def Complete {α : Type} (R : Reading α) (bound : Nat)
    (elem : Decoder → Except PyErr (α × Decoder)) : Prop :=
  ∀ ⦃seen seen' : List Obj⦄ ⦃b : Bytes⦄ ⦃x : α⦄ ⦃m : Bool⦄ (rest : Bytes),
    R seen b x seen' m → (b ++ rest).length < bound →
      elem ⟨b ++ rest, seen⟩ = .ok (x, ⟨rest, seen'⟩)

section Complete

variable {R : Reading Obj} {bound : Nat} (helem : Complete R bound elem)

include helem

theorem complete_counted (n : Nat) : Complete (Elements R n) bound (counted elem n) := by
  intro seen seen' b xs m rest h hbound
  induction h with
  | nil => rfl
  | @cons n seen seen₁ seen₂ b bs x xs m ms hx _ ih =>
      rw [List.append_assoc] at hbound ⊢
      have hlater : (bs ++ rest).length < bound := by
        rw [List.length_append] at hbound
        omega
      rw [counted, helem _ hx hbound, bind_ok]
      dsimp only
      rw [ih hlater]
      rfl

theorem complete_untilTerminator (hne : ∀ {seen b x seen' m}, R seen b x seen' m → b ≠ [])
    {fuel : Nat} (hfuel : fuel ≤ bound) :
    Complete (ElementsUntil R) fuel (untilTerminator elem fuel) := by
  intro seen seen' b xs m rest h hlength
  induction h generalizing fuel with
  | nil hx =>
      obtain ⟨fuel, rfl⟩ : ∃ n, fuel = n + 1 := ⟨fuel - 1, by omega⟩
      rw [untilTerminator, helem _ hx (Nat.lt_of_lt_of_le hlength hfuel), bind_ok]
      rfl
  | @cons seen seen₁ seen₂ b bs x xs m ms hx ht _ ih =>
      obtain ⟨fuel, rfl⟩ : ∃ n, fuel = n + 1 := ⟨fuel - 1, by omega⟩
      rw [List.append_assoc] at hlength ⊢
      have hpos := List.length_pos_iff.mpr (hne hx)
      have hlater : (bs ++ rest).length < fuel := by
        rw [List.length_append] at hlength
        omega
      rw [untilTerminator, helem _ hx (Nat.lt_of_lt_of_le hlength hfuel), bind_ok]
      simp only [ht, Bool.false_eq_true, if_false, ih (Nat.le_of_succ_le hfuel) hlater]
      rfl

theorem complete_countedEntries (n : Nat) (items : List (Obj × Obj)) :
    Complete (Entries R n items) bound (countedEntries elem n items) := by
  intro seen seen' b items' m rest h hbound
  induction h with
  | nil => rfl
  | @cons n items items' seen seen₁ seen₂ seen₃ b b' bs k v m m' ms hk hv hhash _ ih =>
      rw [List.append_assoc, List.append_assoc] at hbound ⊢
      have hvalue : (b' ++ (bs ++ rest)).length < bound := by
        rw [List.length_append] at hbound
        omega
      have hlater : (bs ++ rest).length < bound := by
        rw [List.length_append] at hvalue
        omega
      rw [countedEntries, helem _ hk hbound, bind_ok]
      dsimp only
      rw [assign_of_hashable hhash]
      dsimp only
      rw [helem _ hv hvalue]
      exact ih hlater

theorem complete_entriesUntilTerminator (hne : ∀ {seen b x seen' m}, R seen b x seen' m → b ≠ [])
    {fuel : Nat} (hfuel : fuel ≤ bound) (items : List (Obj × Obj)) :
    Complete (EntriesUntil R items) fuel (entriesUntilTerminator elem fuel items) := by
  intro seen seen' b items' m rest h hlength
  induction h generalizing fuel with
  | nil hk =>
      obtain ⟨fuel, rfl⟩ : ∃ n, fuel = n + 1 := ⟨fuel - 1, by omega⟩
      rw [entriesUntilTerminator, helem _ hk (Nat.lt_of_lt_of_le hlength hfuel), bind_ok]
      rfl
  | @cons items items' seen seen₁ seen₂ seen₃ b b' bs k v m m' ms hk ht hv hhash _ ih =>
      obtain ⟨fuel, rfl⟩ : ∃ n, fuel = n + 1 := ⟨fuel - 1, by omega⟩
      rw [List.append_assoc, List.append_assoc] at hlength ⊢
      have hpos := List.length_pos_iff.mpr (hne hk)
      have hvalue : (b' ++ (bs ++ rest)).length < fuel := by
        rw [List.length_append] at hlength
        omega
      have hlater : (bs ++ rest).length < fuel := by
        rw [List.length_append] at hvalue
        omega
      have hfuel' := Nat.le_of_succ_le hfuel
      rw [entriesUntilTerminator, helem _ hk (Nat.lt_of_lt_of_le hlength hfuel), bind_ok]
      simp only [ht, Bool.false_eq_true, if_false, assign_of_hashable hhash,
        helem _ hv (Nat.lt_of_lt_of_le hvalue hfuel')]
      exact ih hfuel' hlater

end Complete

end Decoder

/-- A value has a tag. -/
theorem Term.exists_tag {n : Nat} {seen seen' : List Obj} {b : Bytes} {x : Obj} {m : Bool}
    (h : Term n seen b x seen' m) : ∃ tag data, tag < 256 ∧ b = UInt8.ofNat tag :: data := by
  cases n with
  | zero => exact h.elim
  | succ n =>
      cases h with
      | literal hlit => exact ⟨_, _, hlit.1, rfl⟩
      | reference hk => exact ⟨_, _, by simp; omega, rfl⟩
      | array hn => exact ⟨_, _, by simp; omega, rfl⟩
      | dict hn => exact ⟨_, _, by simp; omega, rfl⟩
      | terminator | null | arrayTerminated | dictTerminated => exact ⟨_, _, by decide, rfl⟩

theorem Term.ne_nil {n : Nat} {seen seen' : List Obj} {b : Bytes} {x : Obj} {m : Bool}
    (h : Term n seen b x seen' m) : b ≠ [] := by
  obtain ⟨tag, data, -, rfl⟩ := h.exists_tag
  exact List.cons_ne_nil _ _

namespace Decoder

/-- **What is a message the decoder accepts.** -/
theorem complete_value {n : Nat} (fuel depth : Nat) (hdepth : depth + n = maxDepth + 1) :
    Complete (Term n) fuel (value fuel depth) := by
  induction n generalizing fuel depth with
  | zero => exact fun _ _ _ _ _ _ h ↦ h.elim
  | succ n ih =>
      intro seen seen' b x m rest h hlength
      obtain ⟨tag, data, htag, hb⟩ := h.exists_tag
      obtain ⟨fuel, rfl⟩ : ∃ k, fuel = k + 1 := ⟨fuel - 1, by omega⟩
      have hcheck : Encoder.checkDepth depth = .ok () := if_neg (by omega)
      have helem := ih fuel (depth + 1) (by omega)
      cases h with
      | terminator => exact value_cons hcheck (by decide) rest seen
      | null => exact value_cons hcheck (by decide) rest seen
      | literal hlit hx =>
          rw [List.cons_append, value_cons hcheck hlit.1]
          exact hlit.2 _ _ rest seen
      | reference hk hx =>
          rw [List.cons_append, value_cons hcheck (by simp; omega), List.nil_append]
          exact ofTag_compress hk hx
      | array hn hxs =>
          rw [List.cons_append, value_cons hcheck (by simp; omega), ofTag_array hn,
            complete_counted helem _ rest hxs (Nat.lt_of_succ_lt_succ hlength)]
          rfl
      | arrayTerminated hxs =>
          have hread := complete_untilTerminator helem Term.ne_nil (Nat.le_refl fuel) rest hxs
            (Nat.lt_of_succ_lt_succ hlength)
          rw [List.cons_append, value_cons hcheck (by decide)]
          exact congrArg (Except.map fun p ↦ (Obj.list p.1, p.2)) hread
      | dict hn hitems =>
          rw [List.cons_append, value_cons hcheck (by simp; omega), ofTag_dict hn,
            complete_countedEntries helem _ _ rest hitems (Nat.lt_of_succ_lt_succ hlength)]
          rfl
      | dictTerminated hitems =>
          have hread := complete_entriesUntilTerminator helem Term.ne_nil (Nat.le_refl fuel) []
            rest hitems (Nat.lt_of_succ_lt_succ hlength)
          rw [List.cons_append, value_cons hcheck (by decide)]
          exact congrArg (Except.map fun p ↦ (Obj.dict p.1, p.2)) hread

end Decoder

/-- **The decoder accepts the messages of the grammar, and nothing else.** -/
theorem decode_eq_ok_iff {b : Bytes} {x : Obj} :
    decode b = .ok x ↔ x.isTerminator = false ∧
      ∃ seen m, Term (maxDepth + 1) [] b x seen m := by
  constructor
  · intro h
    obtain ⟨⟨y, d⟩, hy, h⟩ := bind_eq_ok.mp h
    rcases Decoder.ite_cases h with ⟨-, h⟩ | ⟨ht, h⟩
    · cases h
    · rcases Decoder.ite_cases h with ⟨-, h⟩ | ⟨hrest, h⟩
      · cases h
      · cases h
        obtain ⟨b', m, hb, hmessage⟩ := Decoder.sound_value _ _ _ _ _ hy
        have hnil : d.rest = [] := List.length_eq_zero_iff.mp (not_not.mp hrest)
        rw [hnil, List.append_nil] at hb
        obtain rfl : b = b' := hb
        exact ⟨Bool.eq_false_iff.mpr ht, d.seen, m, hmessage⟩
  · rintro ⟨ht, seen, m, hmessage⟩
    have hread := Decoder.complete_value (b.length + 1) 0 (Nat.zero_add _) [] hmessage
      (by rw [List.append_nil]; exact Nat.lt_succ_self _)
    rw [List.append_nil] at hread
    rw [decode, hread, bind_ok]
    simp only [ht, Bool.false_eq_true, if_false, List.length_nil, ne_eq, not_true_eq_false,
      pure_eq_ok]

/-! ## What is not a message -/

/-- Whatever is raised is a `ValueError`. -/
def OnlyValueErrors {α : Type} (x : Except PyErr α) : Prop :=
  ∀ e, x = .error e → e.isValueError = true

namespace OnlyValueErrors

variable {α β : Type} {x y : Except PyErr α}

theorem ok (a : α) : OnlyValueErrors (.ok a) := nofun

theorem error {e : PyErr} (he : e.isValueError = true) :
    OnlyValueErrors (.error e : Except PyErr α) := by
  rintro e' h
  cases h
  exact he

theorem bind {f : α → Except PyErr β} (hx : OnlyValueErrors x)
    (hf : ∀ a, x = .ok a → OnlyValueErrors (f a)) : OnlyValueErrors (x >>= f) := by
  cases x with
  | error e => exact error (hx e rfl)
  | ok a => exact hf a rfl

theorem map {f : α → β} (hx : OnlyValueErrors x) : OnlyValueErrors (x.map f) := by
  cases x with
  | error e => exact error (hx e rfl)
  | ok a => exact ok _

theorem ite {c : Prop} [Decidable c] (hx : OnlyValueErrors x) (hy : OnlyValueErrors y) :
    OnlyValueErrors (if c then x else y) := by
  split
  · exact hx
  · exact hy

end OnlyValueErrors

namespace Decoder

variable {d : Decoder} {elem : Decoder → Except PyErr (Obj × Decoder)}

theorem onlyValueErrors_take (d : Decoder) (n : Nat) : OnlyValueErrors (d.take n) :=
  .ite (.error rfl) (.ok _)

section

variable {make : Bytes → Except PyErr Obj} (hmake : ∀ b, OnlyValueErrors (make b))

include hmake

theorem onlyValueErrors_literal (d : Decoder) (n : Nat) : OnlyValueErrors (d.literal n make) :=
  (onlyValueErrors_take d n).bind fun p _ ↦ (hmake p.1).bind fun _ _ ↦ .ok _

theorem onlyValueErrors_sizedLiteral (d : Decoder) (width : Nat) :
    OnlyValueErrors (d.sizedLiteral width make) := by
  refine .bind (.bind (onlyValueErrors_take d width) fun p _ ↦ .ok _) fun p _ ↦ ?_
  exact onlyValueErrors_literal hmake p.2 p.1

theorem onlyValueErrors_terminatedLiteral (d : Decoder) (t : UInt8) :
    OnlyValueErrors (d.terminatedLiteral t make) := by
  refine .bind ?_ fun p _ ↦ (hmake p.1).bind fun _ _ ↦ .ok _
  rw [readTerminated]
  split
  · exact .ok _
  · exact .error rfl

end

theorem onlyValueErrors_makeStr (b : Bytes) : OnlyValueErrors (makeStr b) := by
  rw [makeStr]
  split
  · exact .ok _
  · exact .error rfl

/-- The parser raises `ValueError`s only, when there is little enough to read, and takes
something off what it reads. -/
def Careful (bound : Nat) (elem : Decoder → Except PyErr (Obj × Decoder)) : Prop :=
  ∀ d, d.rest.length < bound → OnlyValueErrors (elem d) ∧
    ∀ x d', elem d = .ok (x, d') → d'.rest.length < d.rest.length

section Careful

variable {bound : Nat} (helem : Careful bound elem)

include helem

theorem onlyValueErrors_counted (n : Nat) (hd : d.rest.length < bound) :
    OnlyValueErrors (counted elem n d) := by
  induction n generalizing d with
  | zero => exact .ok _
  | succ n ih =>
      refine (helem d hd).1.bind fun p hp ↦ .map (ih ?_)
      exact Nat.lt_trans ((helem d hd).2 p.1 p.2 hp) hd

theorem onlyValueErrors_untilTerminator {fuel : Nat} (hfuel : fuel ≤ bound)
    (hd : d.rest.length < fuel) : OnlyValueErrors (untilTerminator elem fuel d) := by
  induction fuel generalizing d with
  | zero => exact absurd hd (Nat.not_lt_zero _)
  | succ fuel ih =>
      have hbound := Nat.lt_of_lt_of_le hd hfuel
      refine (helem d hbound).1.bind fun p hp ↦ .ite (.ok _) (.map (ih ?_ ?_))
      · exact Nat.le_of_succ_le hfuel
      · exact Nat.lt_of_lt_of_le ((helem d hbound).2 p.1 p.2 hp) (Nat.le_of_lt_succ hd)

/-- An entry is read, or rejected with a `ValueError`, and takes something off. -/
theorem assign_careful (items : List (Obj × Obj)) (k : Obj) (hd : d.rest.length < bound) :
    OnlyValueErrors (assign elem items k d) ∧
      ∀ items' d', assign elem items k d = .ok (items', d') →
        d'.rest.length < d.rest.length := by
  refine ⟨(helem d hd).1.bind fun p _ ↦ .ite (.ok _) (.error rfl), fun items' d' h ↦ ?_⟩
  obtain ⟨⟨v, d₁⟩, hv, h⟩ := bind_eq_ok.mp h
  rcases ite_cases h with ⟨-, h⟩ | ⟨-, h⟩
  · cases h
    exact (helem d hd).2 v _ hv
  · cases h

theorem onlyValueErrors_countedEntries (n : Nat) (items : List (Obj × Obj))
    (hd : d.rest.length < bound) : OnlyValueErrors (countedEntries elem n items d) := by
  induction n generalizing d items with
  | zero => exact .ok _
  | succ n ih =>
      refine (helem d hd).1.bind fun p hp ↦ ?_
      have hp' := Nat.lt_trans ((helem d hd).2 p.1 p.2 hp) hd
      obtain ⟨hassign, hless⟩ := assign_careful helem items p.1 hp'
      exact hassign.bind fun q hq ↦ ih q.1 (Nat.lt_trans (hless q.1 q.2 hq) hp')

theorem onlyValueErrors_entriesUntilTerminator {fuel : Nat} (items : List (Obj × Obj))
    (hfuel : fuel ≤ bound) (hd : d.rest.length < fuel) :
    OnlyValueErrors (entriesUntilTerminator elem fuel items d) := by
  induction fuel generalizing d items with
  | zero => exact absurd hd (Nat.not_lt_zero _)
  | succ fuel ih =>
      have hbound := Nat.lt_of_lt_of_le hd hfuel
      refine (helem d hbound).1.bind fun p hp ↦ .ite (.ok _) ?_
      have hp' := (helem d hbound).2 p.1 p.2 hp
      obtain ⟨hassign, hless⟩ :=
        assign_careful helem items p.1 (Nat.lt_trans hp' hbound)
      refine hassign.bind fun q hq ↦ ih q.1 (Nat.le_of_succ_le hfuel) ?_
      have hq' := hless q.1 q.2 hq
      omega

theorem onlyValueErrors_ofTag {fuel : Nat} (tag : Nat) (hfuel : fuel ≤ bound)
    (hd : d.rest.length < fuel) : OnlyValueErrors (ofTag elem fuel tag d) := by
  have hbound := Nat.lt_of_lt_of_le hd hfuel
  rw [ofTag]
  refine .ite (.error rfl) (.ite (.ok _) (.ite (.ok _) (.ite (.ok _) (.ite (.ok _) ?_))))
  refine .ite (onlyValueErrors_literal (fun _ ↦ .ok _) d 16) ?_
  refine .ite (onlyValueErrors_literal (fun _ ↦ .ok _) d 8) (.ite (.ok _) (.ite (.ok _) ?_))
  refine .ite (onlyValueErrors_literal (fun _ ↦ .ok _) d 1) ?_
  refine .ite (onlyValueErrors_literal (fun _ ↦ .ok _) d 2) ?_
  refine .ite (onlyValueErrors_literal (fun _ ↦ .ok _) d 4) ?_
  refine .ite (onlyValueErrors_literal (fun _ ↦ .ok _) d 8) ?_
  refine .ite (onlyValueErrors_literal (fun _ ↦ .ok _) d 4) ?_
  refine .ite (onlyValueErrors_literal (fun _ ↦ .ok _) d 8) ?_
  refine .ite (onlyValueErrors_literal onlyValueErrors_makeStr d _) ?_
  refine .ite (onlyValueErrors_sizedLiteral onlyValueErrors_makeStr d _) ?_
  refine .ite (onlyValueErrors_terminatedLiteral onlyValueErrors_makeStr d 0) ?_
  refine .ite (onlyValueErrors_literal (fun _ ↦ .ok _) d _) ?_
  refine .ite (onlyValueErrors_sizedLiteral (fun _ ↦ .ok _) d _) ?_
  refine .ite (onlyValueErrors_terminatedLiteral (fun _ ↦ .ok _) d _) (.ite ?_ ?_)
  · split
    · exact .ok _
    · exact .error rfl
  refine .ite (.map (onlyValueErrors_counted helem _ hbound)) ?_
  refine .ite (.map (onlyValueErrors_untilTerminator helem hfuel hd)) ?_
  refine .ite (.map (onlyValueErrors_countedEntries helem _ _ hbound)) ?_
  exact .ite (.map (onlyValueErrors_entriesUntilTerminator helem _ hfuel hd)) (.error rfl)

end Careful

/-- A value is read, or rejected with a `ValueError`, and takes something off. -/
theorem careful_value (fuel depth : Nat) : Careful fuel (value fuel depth) := by
  induction fuel generalizing depth with
  | zero => exact fun d hd ↦ absurd hd (Nat.not_lt_zero _)
  | succ fuel ih =>
      intro d hd
      constructor
      · refine .bind (.ite (.error rfl) (.ok _)) fun _ _ ↦
          .bind (.bind (onlyValueErrors_take d 1) fun _ _ ↦ .ok _) fun p hp ↦ ?_
        have heq : d = ⟨UInt8.ofNat p.1 :: p.2.rest, p.2.seen⟩ := (tag_eq_ok hp).2
        rw [heq, List.length_cons] at hd
        exact onlyValueErrors_ofTag (ih (depth + 1)) p.1 (Nat.le_refl _) (Nat.lt_of_succ_lt_succ hd)
      · intro x d' h
        obtain ⟨b, m, hb, hmessage⟩ := sound_value _ _ _ _ _ h
        have hpos := List.length_pos_iff.mpr hmessage.ne_nil
        rw [hb, List.length_append]
        omega

end Decoder

/-- **The decoder raises nothing but `ValueError`s.** -/
theorem onlyValueErrors_decode (b : Bytes) : OnlyValueErrors (decode b) :=
  .bind (Decoder.careful_value _ 0 ⟨b, []⟩ (Nat.lt_succ_self _)).1 fun _ _ ↦
    .ite (.error rfl) (.ite (.error rfl) (.ok _))

end Hds

end AtvRemote
