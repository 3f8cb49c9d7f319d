import AtvRemote.Hds.Decoder

/-!
# Round trip of the data-stream codec

The encoder and the decoder keep their tables under different rules, so the tables drift
apart once 49 scalars have been seen: the decoder records every literal, the encoder does
not record a scalar that it finds too far back to refer to.  What both sides rely on is
that the *first 48 places* agree (`Agree`), since no back-reference points past them.

`Reads` and `Rejects` say what a parser makes of the bytes written between two encoder
states, and compose along the parser's binds.  The plain integer 39 is the one value in
the encoder's domain that is written under a tag the decoder does not know.
-/

namespace AtvRemote

open Lib

namespace Obj

/-! ## Erasure -/

mutual

/-- The object that decoding a transmitted object should give: wrappers, tuples and the
mutable byte strings are gone.  Floats are left aside. -/
def erase : Obj → Obj
  | .intN _ n => .int n
  | .uuid s => match uuidOfStr s with
      | some b => .str (strOfUuid b)
      | Option.none => .uuid s
  | .bytes _ b => .bytes .bytes b
  | .seq _ xs => .list (eraseList xs)
  | .dict items => .dict (eraseItems items)
  | v => v

/-- `erase` on the elements of an array. -/
def eraseList : List Obj → List Obj
  | [] => []
  | x :: xs => erase x :: eraseList xs

/-- `erase` on the entries of a dictionary. -/
def eraseItems : List (Obj × Obj) → List (Obj × Obj)
  | [] => []
  | (k, v) :: items => (erase k, erase v) :: eraseItems items

end

mutual

/-- A plain integer 39 occurs in the object, as itself, an element, a key or a value. -/
def hasPlain39 : Obj → Bool
  | .int n => n == 39
  | .seq _ xs => hasPlain39List xs
  | .dict items => hasPlain39Items items
  | _ => false

/-- `hasPlain39` of some element. -/
def hasPlain39List : List Obj → Bool
  | [] => false
  | x :: xs => hasPlain39 x || hasPlain39List xs

/-- `hasPlain39` of some key or value. -/
def hasPlain39Items : List (Obj × Obj) → Bool
  | [] => false
  | (k, v) :: items => hasPlain39 k || hasPlain39 v || hasPlain39Items items

end

/-- The object is a list, a tuple or a dictionary. -/
def isContainer : Obj → Bool
  | .seq _ _ | .dict _ => true
  | _ => false

/-- The objects that the codec carries: no floats, and dictionaries whose keys are not
containers and stay different once erased. -/
inductive Serializable : Obj → Prop
  | none : Serializable .none
  | bool (b : Bool) : Serializable (.bool b)
  | int (n : Int) : Serializable (.int n)
  | intN (w : IntWidth) (n : Int) : Serializable (.intN w n)
  | str (s : PyStr) : Serializable (.str s)
  | uuid (s : PyStr) : Serializable (.uuid s)
  | bytes (k : BytesKind) (b : Bytes) : Serializable (.bytes k b)
  | seq (k : SeqKind) (xs : List Obj) (elems : ∀ x ∈ xs, Serializable x) :
      Serializable (.seq k xs)
  | dict (items : List (Obj × Obj)) (keys : ∀ p ∈ items, Serializable p.1)
      (values : ∀ p ∈ items, Serializable p.2)
      (scalarKeys : ∀ p ∈ items, p.1.isContainer = false)
      (distinct : items.Pairwise fun p q ↦ p.1.erase.pyEq q.1.erase = false) :
      Serializable (.dict items)

/-- An erased object is never the terminator. -/
theorem Serializable.isTerminator_erase {v : Obj} (h : v.Serializable) :
    v.erase.isTerminator = false := by
  cases h with
  | uuid s => rw [erase]; split <;> rfl
  | _ => rfl

/-- An erased key can be hashed. -/
theorem Serializable.hashable_erase {v : Obj} (h : v.Serializable)
    (hc : v.isContainer = false) : v.erase.hashable := by
  cases h with
  | uuid s => rw [erase]; split <;> rfl
  | seq | dict => cases hc
  | _ => simp [erase, hashable]

end Obj

namespace Hds

/-! ## The tables -/

/-- The encoder's table, erased, and the decoder's table agree as far as a back-reference
can point. -/
def Agree (es ds : List Obj) : Prop := (es.map Obj.erase).take 48 = ds.take 48

namespace Agree

theorem nil : Agree [] [] := rfl

/-- What one table holds in its first 48 places the other holds too. -/
theorem getElem? {es ds : List Obj} (h : Agree es ds) {k : Nat} (hk : k < 48) :
    ds[k]? = (es[k]?).map Obj.erase := by
  have htake := congrArg (fun l : List Obj ↦ l[k]?) h
  simp only [List.getElem?_take_of_lt hk, List.getElem?_map] at htake
  exact htake.symm

/-- Once the encoder's table is long enough, so is the decoder's. -/
theorem length_le {es ds : List Obj} (h : Agree es ds) (hlen : 48 ≤ es.length) :
    48 ≤ ds.length := by
  have := congrArg List.length h
  simp only [List.length_take, List.length_map] at this
  omega

/-- While the encoder's table is short, the tables are equal. -/
theorem eq_of_length_lt {es ds : List Obj} (h : Agree es ds) (hlen : es.length < 48) :
    ds = es.map Obj.erase := by
  have hds := congrArg List.length h
  simp only [List.length_take, List.length_map] at hds
  rw [Agree, List.take_of_length_le (by simp; omega), List.take_of_length_le (by omega)] at h
  exact h.symm

/-- Both sides record a scalar. -/
theorem append {es ds : List Obj} (h : Agree es ds) (v : Obj) :
    Agree (es ++ [v]) (ds ++ [v.erase]) := by
  rcases Nat.lt_or_ge es.length 48 with hlen | hlen
  · rw [h.eq_of_length_lt hlen, Agree, List.map_append, List.map_singleton]
  · rw [Agree, List.map_append, List.take_append_of_le_length (by simpa using hlen),
      List.take_append_of_le_length (h.length_le hlen)]
    exact h

/-- Only the decoder records a scalar, past the places that count. -/
theorem append_right {es ds : List Obj} (h : Agree es ds) (hlen : 48 ≤ es.length) (v : Obj) :
    Agree es (ds ++ [v]) := by
  rw [Agree, List.take_append_of_le_length (h.length_le hlen)]
  exact h

end Agree

/-! ## What a parser makes of written bytes -/

section Reads

variable {α β : Type}

/-- Between the encoder tables `es` and `es'` the bytes `w` were written, and `parse`
reads them as `x`. -/
def Reads (parse : Decoder → Except PyErr (α × Decoder)) (es es' : List Obj) (w : Bytes)
    (x : α) : Prop :=
  ∀ rest ds, Agree es ds → ∃ ds', parse ⟨w ++ rest, ds⟩ = .ok (x, ⟨rest, ds'⟩) ∧ Agree es' ds'

/-- `parse` raises on the bytes `w`, whatever follows them. -/
def Rejects (parse : Decoder → Except PyErr (α × Decoder)) (es : List Obj) (w : Bytes) : Prop :=
  ∀ rest ds, Agree es ds → ∃ err, parse ⟨w ++ rest, ds⟩ = .error err

/-- `parse` raises on the bytes `w` if `bad`, and reads them as `x` otherwise. -/
def Mirrors (bad : Bool) (parse : Decoder → Except PyErr (α × Decoder)) (es es' : List Obj)
    (w : Bytes) (x : α) : Prop :=
  if bad then Rejects parse es w else Reads parse es es' w x

variable {parse : Decoder → Except PyErr (α × Decoder)}
  {next : α → Decoder → Except PyErr (β × Decoder)}
  {es es' es'' : List Obj} {w w' : Bytes} {x : α} {y : β} {bad bad' : Bool}

/-- Parsers run one after the other read what was written one after the other. -/
theorem Reads.bind (h : Reads parse es es' w x) (h' : Reads (next x) es' es'' w' y) :
    Reads (fun d ↦ parse d >>= fun p ↦ next p.1 p.2) es es'' (w ++ w') y := by
  intro rest ds hds
  obtain ⟨ds', hparse, hds'⟩ := h (w' ++ rest) ds hds
  obtain ⟨ds'', hnext, hds''⟩ := h' rest ds' hds'
  refine ⟨ds'', ?_, hds''⟩
  simp only [List.append_assoc, hparse]
  exact hnext

/-- The first parser raises. -/
theorem Rejects.bind_left (h : Rejects parse es w) :
    Rejects (fun d ↦ parse d >>= fun p ↦ next p.1 p.2) es (w ++ w') := by
  intro rest ds hds
  obtain ⟨err, hparse⟩ := h (w' ++ rest) ds hds
  refine ⟨err, ?_⟩
  simp only [List.append_assoc, hparse]
  rfl

/-- The second parser raises. -/
theorem Reads.bind_rejects (h : Reads parse es es' w x) (h' : Rejects (next x) es' w') :
    Rejects (fun d ↦ parse d >>= fun p ↦ next p.1 p.2) es (w ++ w') := by
  intro rest ds hds
  obtain ⟨ds', hparse, hds'⟩ := h (w' ++ rest) ds hds
  obtain ⟨err, hnext⟩ := h' rest ds' hds'
  refine ⟨err, ?_⟩
  simp only [List.append_assoc, hparse]
  exact hnext

/-- Sequencing, with either half possibly raising. -/
theorem Mirrors.bind (next : α → Decoder → Except PyErr (β × Decoder))
    (h : Mirrors bad parse es es' w x)
    (h' : Mirrors bad' (next x) es' es'' w' y) :
    Mirrors (bad || bad') (fun d ↦ parse d >>= fun p ↦ next p.1 p.2) es es'' (w ++ w') y := by
  cases bad with
  | true => exact Rejects.bind_left h
  | false =>
      cases bad' with
      | true => exact Reads.bind_rejects h h'
      | false => exact Reads.bind h h'

/-- A result that is only rebuilt. -/
theorem Mirrors.map (f : α → β) (h : Mirrors bad parse es es' w x) :
    Mirrors bad (fun d ↦ (parse d).map fun p ↦ (f p.1, p.2)) es es' w (f x) := by
  cases bad with
  | true =>
      intro rest ds hds
      obtain ⟨err, hparse⟩ := h rest ds hds
      exact ⟨err, by simp only [hparse, Except.map]⟩
  | false =>
      intro rest ds hds
      obtain ⟨ds', hparse, hds'⟩ := h rest ds hds
      exact ⟨ds', by simp only [hparse, Except.map], hds'⟩

end Reads

/-! ## Tags -/

attribute [local simp] Tag.invalid Tag.true Tag.false Tag.terminator Tag.null Tag.uuid Tag.date
  Tag.integerMinusOne Tag.integer0 Tag.integer39 Tag.int8 Tag.int16 Tag.int32 Tag.int64
  Tag.float32 Tag.float64 Tag.utf8Short Tag.utf8ShortEnd Tag.utf8_8 Tag.utf8_16 Tag.utf8_32
  Tag.utf8_64 Tag.utf8Null Tag.dataShort Tag.dataShortEnd Tag.data8 Tag.data16 Tag.data32
  Tag.data64 Tag.dataTerminated Tag.compress Tag.compressEnd Tag.array Tag.arrayEnd
  Tag.arrayTerminated Tag.dict Tag.dictEnd Tag.dictTerminated

namespace Decoder

variable {elem : Decoder → Except PyErr (Obj × Decoder)} {fuel n : Nat} {d : Decoder}

theorem ofTag_integer (h : n < 39) :
    ofTag elem fuel (Tag.integer0 + n) d = .ok (d.track (.int n)) := by
  simp (disch := omega) [ofTag, if_pos, if_neg]

/-- The tag behind the last one that the decoder takes for a small integer. -/
theorem ofTag_integer39 :
    ofTag elem fuel (Tag.integer0 + 39) d = .error (.valueError "unknown HDS tag 0x2f") := rfl

theorem ofTag_intTag (w : IntWidth) :
    ofTag elem fuel (intTag w) d = d.literal w.bytes makeInt := by
  cases w <;> rfl

theorem ofTag_utf8Short (h : n ≤ 32) :
    ofTag elem fuel (Tag.utf8Short + n) d = d.literal n makeStr := by
  simp (disch := omega) [ofTag, if_pos, if_neg]

theorem ofTag_utf8Sized (h : n ≤ 3) :
    ofTag elem fuel (Tag.utf8_8 + n) d = d.sizedLiteral (2 ^ n) makeStr := by
  simp (disch := omega) [ofTag, if_pos, if_neg, lengthWidth]

theorem ofTag_dataShort (h : n ≤ 32) :
    ofTag elem fuel (Tag.dataShort + n) d = d.literal n makeBytes := by
  simp (disch := omega) [ofTag, if_pos, if_neg]

theorem ofTag_dataSized (h : n ≤ 3) :
    ofTag elem fuel (Tag.data8 + n) d = d.sizedLiteral (2 ^ n) makeBytes := by
  simp (disch := omega) [ofTag, if_pos, if_neg, lengthWidth]

theorem ofTag_compress (h : n < 48) {v : Obj} (hv : d.seen[n]? = some v) :
    ofTag elem fuel (Tag.compress + n) d = .ok (v, d) := by
  simp (disch := omega) [ofTag, if_pos, if_neg, hv]

theorem ofTag_array (h : n ≤ 14) :
    ofTag elem fuel (Tag.array + n) d =
      (counted elem n d).map fun p ↦ (.list p.1, p.2) := by
  simp (disch := omega) [ofTag, if_pos, if_neg]

theorem ofTag_dict (h : n ≤ 14) :
    ofTag elem fuel (Tag.dict + n) d =
      (countedEntries elem n [] d).map fun p ↦ (.dict p.1, p.2) := by
  simp (disch := omega) [ofTag, if_pos, if_neg]

/-- Taking as many bytes as a prefix has takes that prefix. -/
theorem take_append {data : Bytes} (hn : data.length = n) (rest : Bytes) (ds : List Obj) :
    take ⟨data ++ rest, ds⟩ n = .ok (data, ⟨rest, ds⟩) := by
  rw [take, if_neg (by rw [List.length_append]; omega), List.take_left' hn, List.drop_left' hn]

/-- Reading a value starts with its tag. -/
theorem value_cons {depth tag : Nat} (hdepth : Encoder.checkDepth depth = .ok ())
    (htag : tag < 256) (bs : Bytes) (ds : List Obj) :
    value (fuel + 1) depth ⟨UInt8.ofNat tag :: bs, ds⟩ =
      ofTag (value fuel (depth + 1)) fuel tag ⟨bs, ds⟩ := by
  have hbyte : ofLE [UInt8.ofNat tag] = tag := ofLE_toLE (w := 1) htag
  have htake : take ⟨[UInt8.ofNat tag] ++ bs, ds⟩ 1 = .ok ([UInt8.ofNat tag], ⟨bs, ds⟩) :=
    take_append rfl bs ds
  rw [List.singleton_append] at htake
  simp only [value, hdepth, bind_ok, Decoder.tag, htake, pure_eq_ok, hbyte]

/-- The bytes of a literal are read up to their end. -/
theorem literal_append {data : Bytes} {make : Bytes → Except PyErr Obj} {v : Obj}
    (hn : data.length = n) (hmake : make data = .ok v) (rest : Bytes) (ds : List Obj) :
    literal ⟨data ++ rest, ds⟩ n make = .ok (v, ⟨rest, ds ++ [v]⟩) := by
  simp only [literal, take_append hn, bind_ok, hmake, pure_eq_ok, track]

/-- The bytes of a literal behind a length field are read up to their end. -/
theorem sizedLiteral_append {data : Bytes} {width : Nat} {make : Bytes → Except PyErr Obj}
    {v : Obj} (hwidth : data.length < 256 ^ width) (hmake : make data = .ok v) (rest : Bytes)
    (ds : List Obj) :
    sizedLiteral ⟨toLE width data.length ++ data ++ rest, ds⟩ width make =
      .ok (v, ⟨rest, ds ++ [v]⟩) := by
  have hlength : length ⟨toLE width data.length ++ (data ++ rest), ds⟩ width =
      .ok (data.length, ⟨data ++ rest, ds⟩) := by
    simp only [length, take_append (length_toLE ..), bind_ok, ofLE_toLE hwidth, pure_eq_ok]
  simp only [sizedLiteral, List.append_assoc, hlength, bind_ok, literal_append rfl hmake]

end Decoder

/-! ## Scalars -/

/-- The encoder went from `e` to `e'` by writing bytes that the decoder, at the same depth
and with as much fuel as there are bytes, reads as `x`, or raises on if `bad`. -/
def Written (bad : Bool) (depth : Nat) (e e' : Encoder) (x : Obj) : Prop :=
  ∃ w, 0 < w.length ∧ e'.buf = e.buf ++ w ∧
    ∀ fuel, w.length ≤ fuel → Mirrors bad (Decoder.value fuel depth) e.seen e'.seen w x

/-- The decoder reads the tag and its payload as `x` and records it. -/
def IsLiteral (tag : Nat) (data : Bytes) (x : Obj) : Prop :=
  tag < 256 ∧ ∀ elem fuel rest ds,
    Decoder.ofTag elem fuel tag ⟨data ++ rest, ds⟩ = .ok (x, ⟨rest, ds ++ [x]⟩)

/-- What is written under one tag, with nothing behind it but its payload. -/
theorem written_of_ofTag {bad : Bool} {depth tag : Nat} {e e' : Encoder} {x : Obj} (data : Bytes)
    (hdepth : Encoder.checkDepth depth = .ok ()) (htag : tag < 256)
    (hbuf : e'.buf = e.buf ++ UInt8.ofNat tag :: data)
    (hread : ∀ fuel, data.length ≤ fuel →
      Mirrors bad (Decoder.ofTag (Decoder.value fuel (depth + 1)) fuel tag) e.seen e'.seen data x) :
    Written bad depth e e' x := by
  refine ⟨_, by simp, hbuf, fun fuel hfuel ↦ ?_⟩
  obtain ⟨fuel, rfl⟩ : ∃ n, fuel = n + 1 := ⟨fuel - 1, by simp at hfuel; omega⟩
  have hread := hread fuel (by simpa using hfuel)
  cases bad with
  | true =>
      intro rest ds hds
      obtain ⟨err, h⟩ := hread rest ds hds
      exact ⟨err, by rw [List.cons_append, Decoder.value_cons hdepth htag, h]⟩
  | false =>
      intro rest ds hds
      obtain ⟨ds', h, hds'⟩ := hread rest ds hds
      exact ⟨ds', by rw [List.cons_append, Decoder.value_cons hdepth htag, h], hds'⟩

/-- A literal that both sides record. -/
theorem IsLiteral.written {depth tag : Nat} {data : Bytes} {v : Obj} {e e' : Encoder}
    (h : IsLiteral tag data v.erase) (hdepth : Encoder.checkDepth depth = .ok ())
    (hbuf : e'.buf = e.buf ++ UInt8.ofNat tag :: data)
    (hseen : e'.seen = e.seen ++ [v] ∨ 48 ≤ e.seen.length ∧ e'.seen = e.seen) :
    Written false depth e e' v.erase := by
  refine written_of_ofTag _ hdepth h.1 hbuf fun fuel _ rest ds hds ↦ ⟨_, h.2 .., ?_⟩
  rcases hseen with hseen | ⟨hlen, hseen⟩
  · rw [hseen]
    exact hds.append v
  · rw [hseen]
    exact hds.append_right hlen v.erase

/-- The three ways out of `_compress`. -/
theorem compress_cases {e e' : Encoder} {v : Obj} {hit : Bool} (h : e.compress v = (hit, e')) :
    (hit = true ∧ ∃ k x, k < 48 ∧ e.seen[k]? = some x ∧ x.pyEq v ∧
        e' = e.emit (Tag.compress + k) []) ∨
      (hit = false ∧ e' = { e with seen := e.seen ++ [v] }) ∨
      (hit = false ∧ 48 ≤ e.seen.length ∧ e' = e) := by
  unfold Encoder.compress at h
  cases hfind : e.seen.findIdx? fun x ↦ x.pyEq v with
  | none =>
      simp only [hfind, Prod.mk.injEq] at h
      exact .inr (.inl ⟨h.1.symm, h.2.symm⟩)
  | some k =>
      obtain ⟨hk, heq, -⟩ := List.findIdx?_eq_some_iff_getElem.mp hfind
      simp only [hfind] at h
      split at h
      · rename_i hle
        obtain ⟨rfl, rfl⟩ := Prod.mk.inj h
        have hlt : k < 48 := by simpa [Nat.lt_succ_iff] using hle
        exact .inl ⟨rfl, k, _, hlt, List.getElem?_eq_getElem hk, heq, rfl⟩
      · rename_i hgt
        obtain ⟨rfl, rfl⟩ := Prod.mk.inj h
        have : 47 < k := by simpa using hgt
        exact .inr (.inr ⟨rfl, by omega, rfl⟩)

/-- A back-reference resolves in the decoder to what the encoder replaced. -/
theorem written_backReference {depth k : Nat} {e : Encoder} {v x : Obj}
    (hdepth : Encoder.checkDepth depth = .ok ()) (hk : k < 48) (hx : e.seen[k]? = some x)
    (herase : x.erase = v.erase) :
    Written false depth e (e.emit (Tag.compress + k) []) v.erase := by
  refine written_of_ofTag [] hdepth (by simp; omega) rfl fun fuel _ rest ds hds ↦
    ⟨ds, ?_, hds⟩
  have hds' : ds[k]? = some v.erase := by rw [hds.getElem? hk, hx, Option.map_some, herase]
  exact Decoder.ofTag_compress hk hds'

/-- A scalar is written as a back-reference or as a literal. -/
theorem scalar_written {depth : Nat} {e e' : Encoder} {v : Obj}
    {payload : Except PyErr (Nat × Bytes)} (hdepth : Encoder.checkDepth depth = .ok ())
    (hmatch : ∀ x : Obj, x.pyEq v → x.erase = v.erase)
    (hpayload : ∀ tag data, payload = .ok (tag, data) → IsLiteral tag data v.erase)
    (h : e.scalar v payload = .ok e') : Written false depth e e' v.erase := by
  unfold Encoder.scalar at h
  rcases hc : e.compress v with ⟨hit, e₁⟩
  rcases compress_cases hc with
    ⟨rfl, k, x, hk, hx, heq, rfl⟩ | ⟨rfl, rfl⟩ | ⟨rfl, hlen, rfl⟩ <;>
    simp only [hc] at h
  · cases h
    exact written_backReference hdepth hk hx (hmatch x heq)
  · obtain ⟨p, hp, rfl⟩ := map_eq_ok.mp h
    exact (hpayload p.1 p.2 hp).written hdepth rfl (.inl rfl)
  · obtain ⟨p, hp, rfl⟩ := map_eq_ok.mp h
    exact (hpayload p.1 p.2 hp).written hdepth rfl (.inr ⟨hlen, rfl⟩)

/-! ## The literals -/

theorem isLiteral_packInt {w : IntWidth} {n : Int} {tag : Nat} {data : Bytes}
    (h : (Encoder.packInt w.bytes n).map (fun b ↦ (intTag w, b)) = .ok (tag, data)) :
    IsLiteral tag data (.int n) := by
  obtain ⟨b, hb, heq⟩ := map_eq_ok.mp h
  obtain ⟨rfl, rfl⟩ := Prod.mk.inj heq
  have hpack : packSigned w.bytes n = some b := by
    unfold Encoder.packInt at hb
    split at hb <;> cases hb
    assumption
  refine ⟨by cases w <;> decide, fun elem fuel rest ds ↦ ?_⟩
  rw [Decoder.ofTag_intTag]
  refine Decoder.literal_append (length_of_packSigned hpack) ?_ rest ds
  rw [Decoder.makeInt, unpackSigned_of_packSigned hpack]

/-- The two forms of a byte string that is written with its length. -/
theorem sized_cases {short long tag : Nat} {raw data : Bytes}
    (h : Encoder.sized short long raw = .ok (tag, data)) :
    (raw.length ≤ 32 ∧ tag = short + raw.length ∧ data = raw) ∨
      ∃ k ≤ 3, raw.length < 256 ^ 2 ^ k ∧ tag = long + k ∧
        data = toLE (2 ^ k) raw.length ++ raw := by
  unfold Encoder.sized at h
  split at h
  · rename_i hle
    obtain ⟨rfl, rfl⟩ := Prod.mk.inj (Except.ok.inj h)
    exact .inl ⟨hle, rfl, rfl⟩
  · obtain ⟨p, hp, heq⟩ := map_eq_ok.mp h
    obtain ⟨rfl, rfl⟩ := Prod.mk.inj heq
    unfold Encoder.lengthField at hp
    right
    split at hp
    · cases hp
      exact ⟨0, by omega, by omega, rfl, rfl⟩
    split at hp
    · cases hp
      exact ⟨1, by omega, by omega, rfl, rfl⟩
    split at hp
    · cases hp
      exact ⟨2, by omega, by omega, rfl, rfl⟩
    split at hp
    · cases hp
      exact ⟨3, by omega, by omega, rfl, rfl⟩
    · cases hp

theorem isLiteral_str {s : PyStr} {tag : Nat} {raw data : Bytes} (hraw : s.encodeUtf8 = some raw)
    (h : Encoder.sized Tag.utf8Short Tag.utf8_8 raw = .ok (tag, data)) :
    IsLiteral tag data (.str s) := by
  have hmake : Decoder.makeStr raw = .ok (.str s) := by
    rw [Decoder.makeStr, PyStr.decodeUtf8_of_encodeUtf8 hraw]
  rcases sized_cases h with ⟨hle, rfl, rfl⟩ | ⟨k, hk, hlt, rfl, rfl⟩
  · refine ⟨by simp; omega, fun elem fuel rest ds ↦ ?_⟩
    rw [Decoder.ofTag_utf8Short hle, Decoder.literal_append rfl hmake]
  · refine ⟨by simp; omega, fun elem fuel rest ds ↦ ?_⟩
    rw [Decoder.ofTag_utf8Sized hk, Decoder.sizedLiteral_append hlt hmake]

theorem isLiteral_bytes {raw data : Bytes} {tag : Nat}
    (h : Encoder.sized Tag.dataShort Tag.data8 raw = .ok (tag, data)) :
    IsLiteral tag data (.bytes .bytes raw) := by
  rcases sized_cases h with ⟨hle, rfl, rfl⟩ | ⟨k, hk, hlt, rfl, rfl⟩
  · refine ⟨by simp; omega, fun elem fuel rest ds ↦ ?_⟩
    rw [Decoder.ofTag_dataShort hle, Decoder.literal_append rfl rfl]
  · refine ⟨by simp; omega, fun elem fuel rest ds ↦ ?_⟩
    rw [Decoder.ofTag_dataSized hk, Decoder.sizedLiteral_append hlt rfl]

theorem isLiteral_uuid {s : PyStr} {b : Bytes} (h : uuidOfStr s = some b) :
    IsLiteral Tag.uuid b (.str (strOfUuid b)) := by
  refine ⟨by decide, fun elem fuel rest ds ↦ ?_⟩
  exact Decoder.literal_append (length_of_uuidOfStr h) rfl rest ds

/-! ## One value -/

section Value

variable {depth : Nat} {e e' : Encoder}

theorem none_written (hdepth : Encoder.checkDepth depth = .ok ()) :
    Written false depth e (e.emit Tag.null []) Obj.none.erase :=
  written_of_ofTag [] hdepth (by decide) rfl fun _ _ _ ds hds ↦ ⟨ds, rfl, hds⟩

theorem bool_written (hdepth : Encoder.checkDepth depth = .ok ()) (b : Bool) :
    Written false depth e
      ((e.emit (if b then Tag.true else Tag.false) []).trackLiteral (.bool b))
      (Obj.bool b).erase := by
  have hlit : IsLiteral (if b then Tag.true else Tag.false) [] (.bool b) := by
    cases b <;> exact ⟨by decide, fun _ _ _ _ ↦ rfl⟩
  have herase : (Obj.bool b).erase = .bool b := by simp [Obj.erase]
  rw [herase]
  exact IsLiteral.written (v := .bool b) (by rwa [herase]) hdepth rfl (.inl rfl)

theorem wrappedInt_written {w : IntWidth} {n : Int}
    (hdepth : Encoder.checkDepth depth = .ok ()) (h : e.wrappedInt w n = .ok e') :
    Written false depth e e' (Obj.intN w n).erase :=
  scalar_written hdepth (fun _ hx ↦ by rw [Obj.eq_of_pyEq_intN hx])
    (fun _ _ hp ↦ isLiteral_packInt hp) h

theorem string_written {s : PyStr} (hdepth : Encoder.checkDepth depth = .ok ())
    (h : e.string s = .ok e') : Written false depth e e' (Obj.str s).erase := by
  refine scalar_written hdepth (fun _ hx ↦ by rw [Obj.eq_of_pyEq_str hx]) (fun tag data hp ↦ ?_) h
  split at hp
  · exact isLiteral_str (by assumption) hp
  · cases hp

theorem bytes_written {b : Bytes} (k : BytesKind) (hdepth : Encoder.checkDepth depth = .ok ())
    (h : e.bytes b = .ok e') : Written false depth e e' (Obj.bytes k b).erase := by
  refine scalar_written (v := .bytes .bytes b) hdepth (fun x hx ↦ ?_)
    (fun _ _ hp ↦ isLiteral_bytes hp) h
  obtain ⟨k', rfl⟩ := Obj.eq_of_pyEq_bytes hx
  rfl

theorem uuid_written {s : PyStr} (hdepth : Encoder.checkDepth depth = .ok ())
    (h : e.uuid s = .ok e') : Written false depth e e' (Obj.uuid s).erase := by
  refine scalar_written hdepth (fun _ hx ↦ by rw [Obj.eq_of_pyEq_uuid hx]) (fun tag data hp ↦ ?_) h
  split at hp
  · rename_i hb
    cases hp
    have herase : (Obj.uuid s).erase = .str (strOfUuid data) := by simp only [Obj.erase, hb]
    rw [herase]
    exact isLiteral_uuid hb
  · cases hp

/-- A small integer is written under a tag of its own, which the decoder knows unless the
integer is 39. -/
theorem integer_written {n : Int} (hdepth : Encoder.checkDepth depth = .ok ())
    (h : e.integer n = .ok e') :
    Written (Obj.int n).hasPlain39 depth e e' (Obj.int n).erase := by
  unfold Encoder.integer at h
  split at h
  case isTrue hn =>
    cases h
    subst hn
    have hlit : IsLiteral Tag.integerMinusOne [] (Obj.int (-1)).erase :=
      ⟨by decide, fun _ _ _ _ ↦ rfl⟩
    exact hlit.written hdepth rfl (.inl rfl)
  split at h
  case isTrue hn =>
    cases h
    obtain ⟨m, rfl⟩ := Int.eq_ofNat_of_zero_le hn.1
    have hm : m ≤ 39 := by omega
    rcases Nat.lt_or_eq_of_le hm with hlt | rfl
    · have hgood : (Obj.int m).hasPlain39 = false := by
        simp only [Obj.hasPlain39, beq_eq_false_iff_ne]
        omega
      have hlit : IsLiteral (Tag.integer0 + m) [] (Obj.int m).erase :=
        ⟨by simp; omega, fun _ _ _ _ ↦ Decoder.ofTag_integer hlt⟩
      rw [hgood]
      exact hlit.written hdepth rfl (.inl rfl)
    · refine written_of_ofTag [] hdepth (by decide) rfl fun fuel _ ↦ ?_
      exact fun _ _ _ ↦ ⟨_, Decoder.ofTag_integer39⟩
  have hgood : (Obj.int n).hasPlain39 = false := by
    simp only [Obj.hasPlain39, beq_eq_false_iff_ne]
    omega
  rw [hgood]
  split at h
  · exact wrappedInt_written hdepth h
  split at h
  · exact wrappedInt_written hdepth h
  split at h
  · exact wrappedInt_written hdepth h
  split at h
  · exact wrappedInt_written hdepth h
  · cases h

end Value

/-! ## The loops -/

section Loops

variable {depth : Nat}

/-- The encoder writes the object, at this depth, as something that the decoder mirrors. -/
def Carried (depth : Nat) (v : Obj) : Prop :=
  ∀ e e', Encoder.value depth v e = .ok e' → Written v.hasPlain39 depth e e' v.erase

/-- Reading the terminator one level down. -/
theorem value_terminator {fuel : Nat} (hdepth : Encoder.checkDepth depth = .ok ())
    (hfuel : 0 < fuel) (rest : Bytes) (ds : List Obj) :
    Decoder.value fuel depth ⟨UInt8.ofNat Tag.terminator :: rest, ds⟩ =
      .ok (.terminator, ⟨rest, ds⟩) := by
  obtain ⟨fuel, rfl⟩ := Nat.exists_eq_add_one.mpr hfuel
  rw [Decoder.value_cons hdepth (by decide)]
  rfl

/-- The loop of `_array` against both loops of the decoder. -/
theorem values_written (hdepth : Encoder.checkDepth depth = .ok ()) {xs : List Obj}
    (hser : ∀ x ∈ xs, x.Serializable) (hxs : ∀ x ∈ xs, Carried depth x) {e e' : Encoder}
    (h : Encoder.values depth xs e = .ok e') :
    ∃ w, xs.length ≤ w.length ∧ e'.buf = e.buf ++ w ∧ ∀ fuel, w.length ≤ fuel →
      Mirrors (Obj.hasPlain39List xs) (Decoder.counted (Decoder.value fuel depth) xs.length)
        e.seen e'.seen w (Obj.eraseList xs) ∧
      (w.length < fuel → ∀ n, xs.length < n →
        Mirrors (Obj.hasPlain39List xs) (Decoder.untilTerminator (Decoder.value fuel depth) n)
          e.seen e'.seen (w ++ [UInt8.ofNat Tag.terminator]) (Obj.eraseList xs)) := by
  induction xs generalizing e with
  | nil =>
      cases h
      refine ⟨[], Nat.le_refl _, (List.append_nil _).symm, fun fuel hfuel ↦
        ⟨fun _ ds hds ↦ ⟨ds, rfl, hds⟩, ?_⟩⟩
      intro hpos n hn rest ds hds
      obtain ⟨n, rfl⟩ := Nat.exists_eq_add_one.mpr hn
      refine ⟨ds, ?_, hds⟩
      simp only [Decoder.untilTerminator, List.nil_append, List.singleton_append,
        value_terminator hdepth hpos, bind_ok, Obj.isTerminator, if_true, Obj.eraseList]
  | cons x xs ih =>
      rw [Encoder.values] at h
      obtain ⟨e₁, hx, h⟩ := bind_eq_ok.mp h
      obtain ⟨w, hw, hbuf, hread⟩ := hxs x (List.mem_cons_self ..) _ _ hx
      obtain ⟨w', hw', hbuf', hread'⟩ := ih (fun y hy ↦ hser y (List.mem_cons_of_mem _ hy))
        (fun y hy ↦ hxs y (List.mem_cons_of_mem _ hy)) h
      have hlen : (w ++ w').length = w.length + w'.length := List.length_append
      refine ⟨w ++ w', by simp only [List.length_cons]; omega,
        by rw [hbuf', hbuf, List.append_assoc], fun fuel hfuel ↦ ⟨?_, fun hlt n hn ↦ ?_⟩⟩
      · have hrest := (hread' fuel (by omega)).1.map (x.erase :: ·)
        exact Mirrors.bind (fun y d ↦ (Decoder.counted (Decoder.value fuel depth) xs.length d).map
          fun p ↦ (y :: p.1, p.2)) (hread fuel (by omega)) hrest
      · obtain ⟨n, rfl⟩ := Nat.exists_eq_add_one.mpr (Nat.zero_lt_of_lt hn)
        have hrest :=
          ((hread' fuel (by omega)).2 (by omega) n (by simpa using hn)).map (x.erase :: ·)
        have hne : x.erase.isTerminator = false :=
          (hser x (List.mem_cons_self ..)).isTerminator_erase
        rw [List.append_assoc]
        refine Mirrors.bind (fun y d ↦ if y.isTerminator then .ok ([], d)
          else (Decoder.untilTerminator (Decoder.value fuel depth) n d).map
            fun p ↦ (y :: p.1, p.2)) (hread fuel (by omega)) ?_
        simp only [hne]
        exact hrest

/-- Storing under a hashable key only rebuilds the result. -/
theorem assign_of_hashable {elem : Decoder → Except PyErr (Obj × Decoder)}
    {items : List (Obj × Obj)} {key : Obj} (hkey : key.hashable) :
    Decoder.assign elem items key =
      fun d ↦ (elem d).map fun p ↦ (Obj.setItem items key p.1, p.2) := by
  funext d
  unfold Decoder.assign
  cases elem d with
  | error err => rfl
  | ok p => simp only [hkey, bind_ok, if_true, Except.map]

/-- One entry: the value is stored at the end, since the key is new. -/
theorem assign_written {k v : Obj} {e e' : Encoder} (hk : k.Serializable)
    (hscalar : k.isContainer = false) (hv : Written v.hasPlain39 depth e e' v.erase) :
    ∃ w, 0 < w.length ∧ e'.buf = e.buf ++ w ∧ ∀ fuel, w.length ≤ fuel → ∀ acc : List (Obj × Obj),
      (∀ p ∈ acc, p.1.pyEq k.erase = false) →
        Mirrors v.hasPlain39 (Decoder.assign (Decoder.value fuel depth) acc k.erase)
          e.seen e'.seen w (acc ++ [(k.erase, v.erase)]) := by
  obtain ⟨w, hw, hbuf, hread⟩ := hv
  refine ⟨w, hw, hbuf, fun fuel hfuel acc hacc ↦ ?_⟩
  rw [assign_of_hashable (hk.hashable_erase hscalar), ← Obj.setItem_of_forall_ne hacc]
  exact (hread fuel hfuel).map (Obj.setItem acc k.erase)

/-- The loop of `_dict` against both loops of the decoder, which start from the entries
`acc` read before. -/
theorem entries_written (hdepth : Encoder.checkDepth depth = .ok ()) {items : List (Obj × Obj)}
    (hser : ∀ p ∈ items, p.1.Serializable) (hscalar : ∀ p ∈ items, p.1.isContainer = false)
    (hdistinct : items.Pairwise fun p q ↦ p.1.erase.pyEq q.1.erase = false)
    (hks : ∀ p ∈ items, Carried depth p.1) (hvs : ∀ p ∈ items, Carried depth p.2)
    {e e' : Encoder} (h : Encoder.entries depth items e = .ok e') :
    ∃ w, items.length ≤ w.length ∧ e'.buf = e.buf ++ w ∧ ∀ fuel, w.length ≤ fuel →
      ∀ acc : List (Obj × Obj), (∀ p ∈ acc, ∀ q ∈ items, p.1.pyEq q.1.erase = false) →
      Mirrors (Obj.hasPlain39Items items)
        (Decoder.countedEntries (Decoder.value fuel depth) items.length acc)
        e.seen e'.seen w (acc ++ Obj.eraseItems items) ∧
      (w.length < fuel → ∀ n, items.length < n →
        Mirrors (Obj.hasPlain39Items items)
          (Decoder.entriesUntilTerminator (Decoder.value fuel depth) n acc)
          e.seen e'.seen (w ++ [UInt8.ofNat Tag.terminator]) (acc ++ Obj.eraseItems items)) := by
  induction items generalizing e with
  | nil =>
      cases h
      refine ⟨[], Nat.le_refl _, (List.append_nil _).symm, fun fuel hfuel acc _ ↦
        ⟨fun _ ds hds ↦ ⟨ds, by rw [Obj.eraseItems, List.append_nil]; rfl, hds⟩, ?_⟩⟩
      intro hpos n hn rest ds hds
      obtain ⟨n, rfl⟩ := Nat.exists_eq_add_one.mpr hn
      refine ⟨ds, ?_, hds⟩
      simp only [Decoder.entriesUntilTerminator, List.nil_append, List.singleton_append,
        value_terminator hdepth hpos, bind_ok, Obj.isTerminator, if_true, Obj.eraseItems,
        List.append_nil]
  | cons item items ih =>
      obtain ⟨k, v⟩ := item
      rw [Encoder.entries] at h
      obtain ⟨e₁, hk, h⟩ := bind_eq_ok.mp h
      obtain ⟨e₂, hv, h⟩ := bind_eq_ok.mp h
      have hkser := hser _ (List.mem_cons_self ..)
      obtain ⟨hnew, hdistinct⟩ := List.pairwise_cons.mp hdistinct
      obtain ⟨wk, hwk, hbufk, hreadk⟩ := hks _ (List.mem_cons_self ..) _ _ hk
      obtain ⟨wv, hwv, hbufv, hreadv⟩ := assign_written hkser (hscalar _ (List.mem_cons_self ..))
        (hvs _ (List.mem_cons_self ..) _ _ hv)
      obtain ⟨w', hw', hbuf', hread'⟩ := ih (fun p hp ↦ hser p (List.mem_cons_of_mem _ hp))
        (fun p hp ↦ hscalar p (List.mem_cons_of_mem _ hp)) hdistinct
        (fun p hp ↦ hks p (List.mem_cons_of_mem _ hp))
        (fun p hp ↦ hvs p (List.mem_cons_of_mem _ hp)) h
      have hlen : (wk ++ (wv ++ w')).length = wk.length + (wv.length + w'.length) := by
        simp only [List.length_append]
      refine ⟨wk ++ (wv ++ w'), by simp only [List.length_cons]; omega,
        by rw [hbuf', hbufv, hbufk]; simp only [List.append_assoc], fun fuel hfuel acc hacc ↦ ?_⟩
      have hkeys : ∀ p ∈ acc, p.1.pyEq k.erase = false :=
        fun p hp ↦ hacc p hp _ (List.mem_cons_self ..)
      have hacc' : ∀ p ∈ acc ++ [(k.erase, v.erase)], ∀ q ∈ items,
          p.1.pyEq q.1.erase = false := by
        intro p hp q hq
        rcases List.mem_append.mp hp with hp | hp
        · exact hacc p hp q (List.mem_cons_of_mem _ hq)
        · rw [List.mem_singleton.mp hp]
          exact hnew q hq
      have hcons : acc ++ Obj.eraseItems ((k, v) :: items) =
          acc ++ [(k.erase, v.erase)] ++ Obj.eraseItems items := by
        rw [Obj.eraseItems, List.append_assoc, List.singleton_append]
      rw [hcons, Obj.hasPlain39Items, Bool.or_assoc]
      have hkey := hreadk fuel (by omega)
      have hval := hreadv fuel (by omega) acc hkeys
      obtain ⟨hcounted, hterm⟩ := hread' fuel (by omega) _ hacc'
      refine ⟨?_, fun hlt n hn ↦ ?_⟩
      · exact hkey.bind (fun key d ↦ Decoder.assign (Decoder.value fuel depth) acc key d >>= fun p ↦
          Decoder.countedEntries (Decoder.value fuel depth) items.length p.1 p.2)
          (hval.bind (Decoder.countedEntries (Decoder.value fuel depth) items.length) hcounted)
      · obtain ⟨n, rfl⟩ := Nat.exists_eq_add_one.mpr (Nat.zero_lt_of_lt hn)
        have hterm := hterm (by omega) n (by simpa using hn)
        have hne : k.erase.isTerminator = false := hkser.isTerminator_erase
        rw [List.append_assoc, List.append_assoc]
        refine hkey.bind (fun key d ↦ if key.isTerminator then .ok (acc, d) else
          Decoder.assign (Decoder.value fuel depth) acc key d >>= fun p ↦
            Decoder.entriesUntilTerminator (Decoder.value fuel depth) n p.1 p.2) ?_
        simp only [hne]
        exact hval.bind (Decoder.entriesUntilTerminator (Decoder.value fuel depth) n) hterm

end Loops

/-! ## The round trip -/

/-- An array or a dictionary: a tag, then what one of the loops wrote, which starts from
the table of `e` since the tag records nothing. -/
theorem container_written {α : Type} {bad : Bool} {depth : Nat} {e e' : Encoder}
    {loop : Nat → Decoder → Except PyErr (α × Decoder)} {x : α} (tag : Nat) (f : α → Obj)
    (w : Bytes) (hdepth : Encoder.checkDepth depth = .ok ()) (htag : tag < 256)
    (hbuf : e'.buf = (e.emit tag []).buf ++ w)
    (hloop : ∀ fuel d, Decoder.ofTag (Decoder.value fuel (depth + 1)) fuel tag d =
      (loop fuel d).map fun p ↦ (f p.1, p.2))
    (hread : ∀ fuel, w.length ≤ fuel → Mirrors bad (loop fuel) e.seen e'.seen w x) :
    Written bad depth e e' (f x) := by
  refine written_of_ofTag w hdepth htag ?_ fun fuel hfuel ↦ ?_
  · rw [hbuf, Encoder.emit, List.append_assoc, List.singleton_append]
  · rw [funext (hloop fuel)]
    exact (hread fuel hfuel).map f

theorem seq_carried {k : SeqKind} {xs : List Obj} (elems : ∀ x ∈ xs, x.Serializable)
    (ih : ∀ x ∈ xs, ∀ depth, Carried depth x) (depth : Nat) : Carried depth (.seq k xs) := by
  intro e e' h
  rw [Encoder.value] at h
  obtain ⟨_, hdepth, h⟩ := bind_eq_ok.mp h
  obtain ⟨_, hdepth', h⟩ := bind_eq_ok.mp h
  split at h
  · rename_i hle
    obtain ⟨w, -, hbuf, hread⟩ :=
      values_written hdepth' elems (fun x hx ↦ ih x hx (depth + 1)) h
    exact container_written _ Obj.list w hdepth (by simp; omega) hbuf
      (fun _ _ ↦ Decoder.ofTag_array (Nat.le_trans hle (by decide)))
      fun fuel hfuel ↦ (hread fuel hfuel).1
  · obtain ⟨e₁, h₁, h⟩ := bind_eq_ok.mp h
    cases h
    obtain ⟨w, hlen, hbuf, hread⟩ :=
      values_written hdepth' elems (fun x hx ↦ ih x hx (depth + 1)) h₁
    refine container_written Tag.arrayTerminated Obj.list (w ++ [UInt8.ofNat Tag.terminator])
      hdepth (by decide) ?_ (fun _ _ ↦ rfl) fun fuel hfuel ↦ ?_
    · rw [Encoder.emit, hbuf, List.append_assoc]
    · rw [List.length_append, List.length_singleton] at hfuel
      exact (hread fuel (by omega)).2 (by omega) fuel (by omega)

theorem dict_carried {items : List (Obj × Obj)} (keys : ∀ p ∈ items, p.1.Serializable)
    (scalarKeys : ∀ p ∈ items, p.1.isContainer = false)
    (distinct : items.Pairwise fun p q ↦ p.1.erase.pyEq q.1.erase = false)
    (ihk : ∀ p ∈ items, ∀ depth, Carried depth p.1)
    (ihv : ∀ p ∈ items, ∀ depth, Carried depth p.2) (depth : Nat) :
    Carried depth (.dict items) := by
  intro e e' h
  rw [Encoder.value] at h
  obtain ⟨_, hdepth, h⟩ := bind_eq_ok.mp h
  obtain ⟨_, hdepth', h⟩ := bind_eq_ok.mp h
  have hloop := fun e e' ↦ @entries_written (depth + 1) hdepth' items keys scalarKeys distinct
    (fun p hp ↦ ihk p hp (depth + 1)) (fun p hp ↦ ihv p hp (depth + 1)) e e'
  split at h
  · rename_i hle
    obtain ⟨w, -, hbuf, hread⟩ := hloop _ _ h
    exact container_written _ Obj.dict w hdepth (by simp; omega) hbuf
      (fun _ _ ↦ Decoder.ofTag_dict hle) fun fuel hfuel ↦ (hread fuel hfuel [] (by simp)).1
  · obtain ⟨e₁, h₁, h⟩ := bind_eq_ok.mp h
    cases h
    obtain ⟨w, hlen, hbuf, hread⟩ := hloop _ _ h₁
    refine container_written Tag.dictTerminated Obj.dict (w ++ [UInt8.ofNat Tag.terminator])
      hdepth (by decide) ?_ (fun _ _ ↦ rfl) fun fuel hfuel ↦ ?_
    · rw [Encoder.emit, hbuf, List.append_assoc]
    · rw [List.length_append, List.length_singleton] at hfuel
      exact (hread fuel (by omega) [] (by simp)).2 (by omega) fuel (by omega)

/-- Every serializable object is written as something that the decoder mirrors, at any
depth. -/
theorem carried_of_serializable {v : Obj} (hv : v.Serializable) (depth : Nat) :
    Carried depth v := by
  induction hv generalizing depth with
  | seq k xs elems ih => exact seq_carried elems ih depth
  | dict items keys values scalarKeys distinct ihk ihv =>
      exact dict_carried keys scalarKeys distinct ihk ihv depth
  | none =>
      intro e e' h
      obtain ⟨_, hdepth, h⟩ := bind_eq_ok.mp h
      cases h
      exact none_written hdepth
  | bool b =>
      intro e e' h
      cases b with
      | true =>
          obtain ⟨_, hdepth, h⟩ := bind_eq_ok.mp h
          cases h
          exact bool_written hdepth true
      | false =>
          obtain ⟨_, hdepth, h⟩ := bind_eq_ok.mp h
          cases h
          exact bool_written hdepth false
  | int n =>
      intro e e' h
      obtain ⟨_, hdepth, h⟩ := bind_eq_ok.mp h
      exact integer_written hdepth h
  | intN w n =>
      intro e e' h
      obtain ⟨_, hdepth, h⟩ := bind_eq_ok.mp h
      exact wrappedInt_written hdepth h
  | str s =>
      intro e e' h
      obtain ⟨_, hdepth, h⟩ := bind_eq_ok.mp h
      exact string_written hdepth h
  | uuid s =>
      intro e e' h
      obtain ⟨_, hdepth, h⟩ := bind_eq_ok.mp h
      exact uuid_written hdepth h
  | bytes k b =>
      intro e e' h
      obtain ⟨_, hdepth, h⟩ := bind_eq_ok.mp h
      exact bytes_written k hdepth h

/-- What `encode` returns for a serializable object, `decode` reads back as the erased
object, and it raises if a plain 39 occurs in the object. -/
theorem decode_encode {v : Obj} (hv : v.Serializable) {b : Bytes} (hb : encode v = .ok b) :
    if v.hasPlain39 then ∃ err, decode b = .error err else decode b = .ok v.erase := by
  obtain ⟨e, he, rfl⟩ := map_eq_ok.mp hb
  obtain ⟨w, -, hbuf, hread⟩ := carried_of_serializable hv 0 _ _ he
  have hw : e.buf = w := by rw [hbuf]; rfl
  rw [hw]
  have hread := hread (w.length + 1) (Nat.le_succ _)
  cases hbad : v.hasPlain39 with
  | true =>
      rw [hbad] at hread
      obtain ⟨err, h⟩ := hread [] [] .nil
      rw [List.append_nil] at h
      exact ⟨err, by rw [decode, h]; rfl⟩
  | false =>
      rw [hbad] at hread
      obtain ⟨ds, h, -⟩ := hread [] [] .nil
      rw [List.append_nil] at h
      have hne := hv.isTerminator_erase
      simp only [decode, h, bind_ok, hne, List.length_nil]
      rfl

/-- The codec round-trips a serializable object exactly when no plain 39 occurs in it. -/
theorem decode_encode_iff (v : Obj) (hv : v.Serializable) (b : Bytes) (hb : encode v = .ok b) :
    decode b = .ok v.erase ↔ v.hasPlain39 = false := by
  have h := decode_encode hv hb
  cases hbad : v.hasPlain39 with
  | true =>
      rw [hbad] at h
      obtain ⟨err, herr⟩ := h
      simp [herr]
  | false =>
      rw [hbad] at h
      exact iff_of_true h rfl

/-- A tuple with a wrapper, a repeated string and a dictionary comes back as a list. -/
theorem decode_encode_iff_tuple :
    decode [0xD3, 0x30, 0x05, 0x42, 0x68, 0x69, 0xE1, 0xA1, 0x04] =
      .ok (.list [.int 5, .text "hi", .dict [(.text "hi", .none)]]) :=
  (decode_encode_iff (.seq .tuple [.intN .int8 5, .text "hi", .dict [(.text "hi", .none)]])
    (.seq _ _ fun x hx ↦ by
      simp only [List.mem_cons, List.not_mem_nil, or_false] at hx
      rcases hx with rfl | rfl | rfl
      · exact .intN ..
      · exact .str _
      · refine .dict _ ?_ ?_ ?_ ?_ <;> simp [Obj.isContainer, Obj.Serializable.str,
          Obj.Serializable.none])
    _ rfl).mpr rfl

/-- The integer 39 is written under the tag `0x2F`, which the decoder does not know. -/
theorem decode_encode_39 : (Obj.int 39).Serializable ∧ encode (.int 39) = .ok [0x2F] ∧
    decode [0x2F] ≠ .ok (Obj.int 39).erase := by
  have herr : decode [0x2F] = .error (.valueError "unknown HDS tag 0x2f") := rfl
  exact ⟨.int 39, rfl, by rw [herr]; exact nofun⟩

end Hds

end AtvRemote
