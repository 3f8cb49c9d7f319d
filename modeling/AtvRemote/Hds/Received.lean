import AtvRemote.Hds.Agreement

/-!
# What the decoder makes of a message

The round trip of a message without floats is that of its scalars.  A float is looked up in the
encoder's table like any other scalar, with Python's `==`, and so the decoder may be told
another one.  `Obj.alone` is what the scalars of a message decode to when each is written alone,
and `Obj.received` what they decode to in the message; `told` says that the decoder makes the
latter of every message that is written, unless it raises.
-/

namespace AtvRemote

open Lib

namespace Obj

/-- Induction over the containers of an object. -/
@[elab_as_elim] theorem containers {P : Obj → Prop} (v : Obj)
    (scalar : ∀ x : Obj, x.isContainer = false → P x)
    (seq : ∀ k xs, (∀ x ∈ xs, P x) → P (.seq k xs))
    (dict : ∀ items, (∀ p ∈ items, P p.1) → (∀ p ∈ items, P p.2) → P (.dict items)) : P v := by
  cases v with
  | seq k xs => exact seq k xs fun x hx ↦ containers x scalar seq dict
  | dict items =>
      have hlt : ∀ p ∈ items, sizeOf p.1 < sizeOf items ∧ sizeOf p.2 < sizeOf items := by
        rintro ⟨k, v⟩ hp
        have hp := List.sizeOf_lt_of_mem hp
        rw [Prod.mk.sizeOf_spec] at hp
        show sizeOf k < sizeOf items ∧ sizeOf v < sizeOf items
        omega
      refine dict items (fun p hp ↦ ?_) fun p hp ↦ ?_
      · have := (hlt p hp).1
        exact containers p.1 scalar seq dict
      · have := (hlt p hp).2
        exact containers p.2 scalar seq dict
  | _ => exact scalar _ rfl

/-! ## Scalars on their own -/

mutual

/-- What an object decodes to when each of its scalars is written with its own payload. -/
def alone : Obj → Obj
  | .float32 x => match x.pack32 with
      | some b => .float (.unpack32 b)
      | Option.none => .float32 x
  | .float64 x | .float x | .date x => .float (.unpack64 x.pack64)
  | .seq _ xs => .list (aloneList xs)
  | .dict items => .dict (aloneItems [] items)
  | v => v.erase

/-- `alone` on the elements of an array. -/
def aloneList : List Obj → List Obj
  | [] => []
  | x :: xs => alone x :: aloneList xs

/-- `alone` on the entries of a dictionary, behind those of `acc`. -/
def aloneItems (acc : List (Obj × Obj)) : List (Obj × Obj) → List (Obj × Obj)
  | [] => acc
  | (k, v) :: items => aloneItems (setItem acc (alone k) (alone v)) items

end

/-! ## The table of the encoder -/

/-- The wrapper that `_integer` picks. -/
def widthOf (n : Int) : IntWidth :=
  if -128 ≤ n ∧ n ≤ 127 then .int8
  else if -32768 ≤ n ∧ n ≤ 32767 then .int16
  else if -(2 ^ 31) ≤ n ∧ n ≤ 2 ^ 31 - 1 then .int32
  else .int64

/-- The object that is looked up in the table for a scalar. -/
def lookedUp? : Obj → Option Obj
  | .int n => if -1 ≤ n ∧ n ≤ 39 then Option.none else some (.intN (widthOf n) n)
  | .float x => some (.float64 x)
  | .bytes _ b => some (.bytes .bytes b)
  | .intN w n => some (.intN w n)
  | .float32 x => some (.float32 x)
  | .float64 x => some (.float64 x)
  | .date x => some (.date x)
  | .str s => some (.str s)
  | .uuid s => some (.uuid s)
  | _ => Option.none

/-- The scalar is recorded without being looked up. -/
def tracked : Obj → Bool
  | .bool _ | .int _ => true
  | _ => false

/-- The table behind a scalar. -/
def record (seen : List Obj) (x : Obj) : List Obj :=
  match x.lookedUp? with
  | some y => if seen.any fun z ↦ z.pyEq y then seen else seen ++ [y]
  | Option.none => if x.tracked then seen ++ [x] else seen

/-- The table behind scalars that are written one after the other. -/
def recordAll (seen : List Obj) (xs : List Obj) : List Obj := xs.foldl record seen

/-- The object that is told for one that is looked up: an equal one at a place that a
back-reference can point to, or itself. -/
def standIn (seen : List Obj) (y : Obj) : Obj :=
  match seen.findIdx? fun z ↦ z.pyEq y with
  | some i => if i ≤ 47 then seen.getD i y else y
  | Option.none => y

@[simp] theorem recordAll_nil (seen : List Obj) : recordAll seen [] = seen := rfl

@[simp] theorem recordAll_singleton (seen : List Obj) (x : Obj) :
    recordAll seen [x] = record seen x := rfl

theorem leaves_scalar {x : Obj} (h : x.isContainer = false) : x.leaves = [x] := by
  cases x with
  | seq | dict => cases h
  | _ => rfl

theorem recordAll_append (seen xs ys : List Obj) :
    recordAll seen (xs ++ ys) = recordAll (recordAll seen xs) ys := List.foldl_append

/-! ## Scalars in a message -/

/-- What a scalar decodes to behind the ones in the table. -/
def receivedScalar (seen : List Obj) (x : Obj) : Obj :=
  match x.lookedUp? with
  | some y => (standIn seen y).alone
  | Option.none => x.alone

mutual

/-- What an object decodes to behind the scalars in the table. -/
def received (seen : List Obj) : Obj → Obj
  | .seq _ xs => .list (receivedList seen xs)
  | .dict items => .dict (receivedItems seen [] items)
  | x => receivedScalar seen x

/-- `received` on the elements of an array. -/
def receivedList (seen : List Obj) : List Obj → List Obj
  | [] => []
  | x :: xs => received seen x :: receivedList (recordAll seen x.leaves) xs

/-- `received` on the entries of a dictionary, behind those of `acc`. -/
def receivedItems (seen : List Obj) (acc : List (Obj × Obj)) :
    List (Obj × Obj) → List (Obj × Obj)
  | [] => acc
  | (k, v) :: items =>
      receivedItems (recordAll (recordAll seen k.leaves) v.leaves)
        (setItem acc (received seen k) (received (recordAll seen k.leaves) v)) items

end

mutual

/-- The decoder raises on the object: a plain 39, or a key that is a container. -/
def unreadable : Obj → Bool
  | .int n => n == 39
  | .seq _ xs => unreadableList xs
  | .dict items => unreadableItems items
  | _ => false

/-- `unreadable` of some element. -/
def unreadableList : List Obj → Bool
  | [] => false
  | x :: xs => unreadable x || unreadableList xs

/-- `unreadable` of some key or value, or a key is a container. -/
def unreadableItems : List (Obj × Obj) → Bool
  | [] => false
  | (k, v) :: items => unreadable k || (unreadable v || k.isContainer) || unreadableItems items

end

theorem received_scalar {x : Obj} (h : x.isContainer = false) (seen : List Obj) :
    received seen x = receivedScalar seen x := by
  cases x with
  | seq | dict => cases h
  | _ => simp only [received]

/-! ## Objects that are equal -/

theorem erase_erase {v : Obj} (h : v.isContainer = false) : v.erase.erase = v.erase := by
  cases v with
  | uuid s =>
      rw [erase]
      split
      · rfl
      · next hnone => rw [erase, hnone]
  | seq | dict => cases h
  | _ => rfl

/-- A scalar that was decoded decodes to itself. -/
theorem erase_alone {x : Obj} (h : x.isContainer = false) : x.alone.erase = x.alone := by
  cases x with
  | float32 x =>
      rw [alone]
      split <;> rfl
  | uuid s => exact erase_erase h
  | seq | dict => cases h
  | _ => rfl

/-- Only an integer wrapper, a string, a UUID or a byte string with the same content equals
one: what it decodes to is the same. -/
theorem alone_of_pyEq {x y : Obj} (h : x.pyEq y = true) (hy : y.isFloat = false)
    (hlooked : y.lookedUp? = some y) : x.alone = y.alone := by
  cases y with
  | intN w n => rw [eq_of_pyEq_intN h]
  | str s => rw [eq_of_pyEq_str h]
  | uuid s => rw [eq_of_pyEq_uuid h]
  | bytes k b =>
      obtain ⟨k', rfl⟩ := eq_of_pyEq_bytes h
      rfl
  | int n =>
      rw [lookedUp?] at hlooked
      split at hlooked <;> cases hlooked
  | float | float32 | float64 | date => cases hy
  | _ => cases hlooked

/-- No container is found in the table. -/
theorem isContainer_of_pyEq {x y : Obj} (h : x.pyEq y = true) : x.isContainer = false := by
  cases x with
  | seq | dict => simp [pyEq] at h
  | _ => rfl

/-- What is looked up decodes to what the scalar does. -/
theorem alone_lookedUp {x y : Obj} (h : x.lookedUp? = some y) : y.alone = x.alone := by
  cases x with
  | int n =>
      rw [lookedUp?] at h
      split at h
      · cases h
      · cases h
        rfl
  | _ => cases h <;> rfl

theorem lookedUp_lookedUp {x y : Obj} (h : x.lookedUp? = some y) :
    y.lookedUp? = some y ∧ y.isContainer = false := by
  cases x with
  | int n =>
      rw [lookedUp?] at h
      split at h
      · cases h
      · cases h
        exact ⟨rfl, rfl⟩
  | _ => cases h <;> exact ⟨rfl, rfl⟩

/-- A stand-in is the object, or an equal one in the table. -/
theorem standIn_cases (seen : List Obj) (y : Obj) :
    standIn seen y = y ∨ ∃ z ∈ seen, z.pyEq y = true ∧ standIn seen y = z := by
  rw [standIn]
  split
  · next i hfind =>
    obtain ⟨hlt, heq, -⟩ := List.findIdx?_eq_some_iff_getElem.mp hfind
    split
    · exact .inr ⟨seen[i], List.getElem_mem hlt, heq, by
        rw [List.getD_eq_getElem?_getD, List.getElem?_eq_getElem hlt]
        rfl⟩
    · exact .inl rfl
  · exact .inl rfl

/-- Only the terminator decodes to a terminator. -/
theorem isTerminator_alone {x : Obj} (h : x.isTerminator = false) :
    x.alone.isTerminator = false := by
  cases x with
  | float32 x =>
      rw [alone]
      split <;> rfl
  | uuid s =>
      rw [alone, erase]
      · split <;> rfl
      all_goals
        intros
        contradiction
  | terminator => cases h
  | _ => rfl

/-- A stand-in is no terminator. -/
theorem isTerminator_standIn {seen : List Obj} {y : Obj} (hy : y.lookedUp? = some y) :
    (standIn seen y).isTerminator = false := by
  have hself : y.isTerminator = false := by
    cases y with
    | terminator => cases hy
    | _ => rfl
  rcases standIn_cases seen y with heq | ⟨z, -, hpyEq, heq⟩
  · rw [heq]
    exact hself
  · rw [heq]
    cases z with
    | terminator =>
        cases y with
        | terminator => cases hself
        | _ => cases hpyEq
    | _ => rfl

end Obj

namespace Hds

namespace Encoder

/-- The encoder, with the scalars in its table as the decoder has them. -/
def shown (e : Encoder) : Encoder := ⟨e.buf, e.seen.map Obj.alone⟩

end Encoder

open Obj

/-! ## Scalars -/

section Scalars

variable {depth : Nat} {e e' : Encoder}

/-- The encoder writes the object, at this depth, as what the decoder receives for it. -/
def Told (depth : Nat) (v : Obj) : Prop :=
  ∀ e e', Encoder.value depth v e = .ok e' → e'.seen = recordAll e.seen v.leaves ∧
    (received e.seen v).isTerminator = false ∧
    Written v.unreadable depth e.shown e'.shown (received e.seen v)

/-- A scalar that is looked up. -/
theorem scalar_told {y : Obj} {payload : Except PyErr (Nat × Bytes)}
    (hdepth : Encoder.checkDepth depth = .ok ()) (hy : y.lookedUp? = some y)
    (hpayload : ∀ tag data, payload = .ok (tag, data) → IsLiteral tag data y.alone)
    (h : e.scalar y payload = .ok e') :
    e'.seen = record e.seen y ∧ Written false depth e.shown e'.shown (standIn e.seen y).alone := by
  have herase := erase_alone (lookedUp_lookedUp hy).2
  have hliteral : ∀ {tag : Nat} {data : Bytes} {e₁ : Encoder},
      payload = .ok (tag, data) → e₁.buf = e.buf ++ UInt8.ofNat tag :: data →
      (e₁.seen = e.seen ++ [y] ∨ 48 ≤ e.seen.length ∧ e₁.seen = e.seen) →
      Written false depth e.shown e₁.shown y.alone := by
    intro tag data e₁ hp hbuf hseen
    have hlit := hpayload tag data hp
    rw [← herase] at hlit ⊢
    refine hlit.written hdepth hbuf ?_
    rcases hseen with hseen | ⟨hlen, hseen⟩
    · exact .inl (by rw [Encoder.shown, hseen, List.map_append]; rfl)
    · exact .inr ⟨by rwa [Encoder.shown, List.length_map], by rw [Encoder.shown, hseen]; rfl⟩
  rw [Encoder.scalar, Encoder.compress] at h
  rw [record, hy, standIn]
  cases hfind : e.seen.findIdx? fun z ↦ z.pyEq y with
  | none =>
      have hany : (e.seen.any fun z ↦ z.pyEq y) = false := by
        rw [← List.findIdx?_isSome, hfind]
        rfl
      rw [hfind] at h
      obtain ⟨p, hp, rfl⟩ := map_eq_ok.mp h
      simp only [hany]
      exact ⟨rfl, hliteral hp rfl (.inl rfl)⟩
  | some i =>
      obtain ⟨hlt, heq, -⟩ := List.findIdx?_eq_some_iff_getElem.mp hfind
      have hany : (e.seen.any fun z ↦ z.pyEq y) = true := by
        rw [← List.findIdx?_isSome, hfind]
        rfl
      rw [hfind] at h
      simp only [hany, if_true]
      split
      · next hle =>
        have hle' : i ≤ Tag.compressEnd - Tag.compress := hle
        simp only [if_pos hle'] at h
        cases h
        refine ⟨rfl, ?_⟩
        have hget : e.seen.getD i y = e.seen[i] := by
          rw [List.getD_eq_getElem?_getD, List.getElem?_eq_getElem hlt]
          rfl
        have hplace : e.shown.seen[i]? = some (e.seen[i]).alone := by
          rw [Encoder.shown, List.getElem?_map, List.getElem?_eq_getElem hlt]
          rfl
        rw [hget]
        have hback : ∀ x : Obj, x.erase = x → e.shown.seen[i]? = some x →
            Written false depth e.shown (e.shown.emit (Tag.compress + i) []) x := by
          intro x hx hsome
          have hback := written_backReference (v := x) hdepth (Nat.lt_succ_of_le hle) hsome rfl
          rwa [hx] at hback
        exact hback _ (erase_alone (isContainer_of_pyEq heq)) hplace
      · next hgt =>
        have hgt' : ¬ i ≤ Tag.compressEnd - Tag.compress := hgt
        simp only [if_neg hgt'] at h
        obtain ⟨p, hp, rfl⟩ := map_eq_ok.mp h
        exact ⟨rfl, hliteral hp rfl (.inr ⟨by omega, rfl⟩)⟩

/-! ### The literals of floats -/

theorem length_pack32 {x : Float64} {b : Bytes} (h : x.pack32 = some b) : b.length = 4 := by
  simp only [Float64.pack32] at h
  split at h
  · cases h
    exact length_toLE ..
  · split at h
    · cases h
      exact length_toLE ..
    · split at h
      · cases h
        exact length_toLE ..
      · split at h
        · cases h
          exact length_toLE ..
        · cases h

theorem isLiteral_float32 {x : Float64} {b : Bytes} (h : x.pack32 = some b) :
    IsLiteral Tag.float32 b (Obj.float32 x).alone := by
  rw [alone, h]
  have hmake : Decoder.makeFloat32 b = .ok (.float (.unpack32 b)) := rfl
  exact ⟨by decide, fun _ _ rest ds ↦ Decoder.literal_append (length_pack32 h) hmake rest ds⟩

theorem isLiteral_float64 (x : Float64) :
    IsLiteral Tag.float64 x.pack64 (.float (.unpack64 x.pack64)) :=
  ⟨by decide, fun _ _ rest ds ↦ Decoder.literal_append (length_toLE ..) rfl rest ds⟩

theorem isLiteral_date (x : Float64) :
    IsLiteral Tag.date x.pack64 (.float (.unpack64 x.pack64)) :=
  ⟨by decide, fun _ _ rest ds ↦ Decoder.literal_append (length_toLE ..) rfl rest ds⟩

/-! ### One scalar -/

/-- A scalar that is looked up, at its place in the message. -/
theorem told_lookedUp {x y : Obj} {payload : Except PyErr (Nat × Bytes)}
    (hlooked : x.lookedUp? = some y) (hscalar : x.isContainer = false)
    (hread : x.unreadable = false)
    (hpayload : ∀ tag data, payload = .ok (tag, data) → IsLiteral tag data y.alone)
    (hvalue : ∀ e, Encoder.value depth x e =
      Encoder.checkDepth depth >>= fun _ ↦ e.scalar y payload) : Told depth x := by
  intro e e' h
  rw [hvalue] at h
  obtain ⟨_, hdepth, h⟩ := bind_eq_ok.mp h
  have hy := (lookedUp_lookedUp hlooked).1
  obtain ⟨hseen, hwritten⟩ := scalar_told hdepth hy hpayload h
  have hrecord : record e.seen y = record e.seen x := by rw [record, record, hy, hlooked]
  have hstand : received e.seen x = (standIn e.seen y).alone := by
    rw [received_scalar hscalar, receivedScalar, hlooked]
  refine ⟨by rw [leaves_scalar hscalar, hseen, hrecord]; rfl, ?_, by rwa [hread, hstand]⟩
  rw [hstand]
  exact isTerminator_alone (isTerminator_standIn hy)

/-- A scalar that is written under a tag of its own and recorded. -/
theorem told_tracked {x : Obj} {tag : Nat} {e e' : Encoder} (hx : x.lookedUp? = Option.none)
    (htracked : x.tracked = true) (hlit : IsLiteral tag [] x.alone)
    (hdepth : Encoder.checkDepth depth = .ok ())
    (he : e' = (e.emit tag []).trackLiteral x) :
    e'.seen = record e.seen x ∧ Written false depth e.shown e'.shown x.alone := by
  subst he
  have hscalar : x.isContainer = false := by
    cases x with
    | seq | dict => cases htracked
    | _ => rfl
  refine ⟨by rw [record, hx, htracked]; rfl, ?_⟩
  have herase := erase_alone hscalar
  rw [← herase] at hlit ⊢
  refine hlit.written hdepth rfl (.inl ?_)
  show (e.seen ++ [x]).map Obj.alone = e.seen.map Obj.alone ++ [x.alone]
  rw [List.map_append]
  rfl

theorem told_int (n : Int) : Told depth (.int n) := by
  intro e e' h
  rw [Encoder.value] at h
  obtain ⟨_, hdepth, h⟩ := bind_eq_ok.mp h
  rw [Encoder.integer] at h
  by_cases hsmall : -1 ≤ n ∧ n ≤ 39
  · -- written under a tag of its own, which the decoder knows unless the integer is 39
    have hnone : (Obj.int n).lookedUp? = Option.none := if_pos hsmall
    have hreceived : received e.seen (.int n) = .int n := by
      rw [received_scalar rfl, receivedScalar, hnone]
      rfl
    have hfinish : ∀ {tag : Nat}, IsLiteral tag [] (.int n) → n ≠ 39 →
        e' = (e.emit tag []).trackLiteral (.int n) → e'.seen = recordAll e.seen [.int n] ∧
          (received e.seen (.int n)).isTerminator = false ∧
          Written (Obj.int n).unreadable depth e.shown e'.shown (received e.seen (.int n)) := by
      intro tag hlit hne he
      obtain ⟨hseen, hwritten⟩ := told_tracked hnone rfl hlit hdepth he
      have hread : (Obj.int n).unreadable = false := by simpa [unreadable] using hne
      rw [hreceived, hread]
      exact ⟨hseen, rfl, hwritten⟩
    split at h
    · next hminus =>
      cases h
      subst hminus
      exact hfinish ⟨by decide, fun _ _ _ _ ↦ rfl⟩ (by decide) rfl
    · next hminus =>
      have hnat : 0 ≤ n ∧ n ≤ 39 := by omega
      rw [if_pos hnat] at h
      cases h
      obtain ⟨m, rfl⟩ := Int.eq_ofNat_of_zero_le hnat.1
      have hm : m ≤ 39 := by omega
      rcases Nat.lt_or_eq_of_le hm with hlt | rfl
      · have htag : Tag.integer0 + m < 256 :=
          Nat.lt_of_le_of_lt (Nat.add_le_add_left hm _) (by decide)
        have hlit : IsLiteral (Tag.integer0 + m) [] (.int m) :=
          ⟨htag, fun _ _ _ _ ↦ Decoder.ofTag_integer hlt⟩
        exact hfinish hlit (by omega) rfl
      · have hseen : record e.seen (.int (39 : Nat)) = e.seen ++ [.int (39 : Nat)] := by
          rw [record, hnone]
          rfl
        refine ⟨hseen.symm, by rw [hreceived]; rfl, ?_⟩
        refine written_of_ofTag [] hdepth (by decide) rfl fun fuel _ ↦ ?_
        exact fun _ _ _ ↦ ⟨_, Decoder.ofTag_integer39⟩
  · have hlooked : (Obj.int n).lookedUp? = some (.intN (widthOf n) n) := if_neg hsmall
    have hread : (Obj.int n).unreadable = false := by
      simp only [unreadable, beq_eq_false_iff_ne]
      omega
    have hwrapped : e.wrappedInt (widthOf n) n = .ok e' := by
      rw [if_neg (by omega), if_neg (by omega)] at h
      rw [widthOf]
      split at h
      · next hrange => rwa [if_pos hrange]
      · next hrange =>
        rw [if_neg hrange]
        split at h
        · next hrange => rwa [if_pos hrange]
        · next hrange =>
          rw [if_neg hrange]
          split at h
          · next hrange => rwa [if_pos hrange]
          · next hrange =>
            rw [if_neg hrange]
            split at h
            · exact h
            · cases h
    obtain ⟨hseen, hwritten⟩ := scalar_told hdepth (lookedUp_lookedUp hlooked).1
      (fun _ _ hp ↦ isLiteral_packInt hp) hwrapped
    have hrecord : record e.seen (.intN (widthOf n) n) = record e.seen (.int n) := by
      rw [record, record, hlooked, lookedUp?]
    have hstand : received e.seen (.int n) = (standIn e.seen (.intN (widthOf n) n)).alone := by
      rw [received_scalar rfl, receivedScalar, hlooked]
    refine ⟨hseen.trans hrecord, ?_, by rwa [hread, hstand]⟩
    rw [hstand]
    exact isTerminator_alone (isTerminator_standIn rfl)

theorem told_bool (b : Bool) : Told depth (.bool b) := by
  intro e e' h
  have hreceived : received e.seen (.bool b) = (Obj.bool b).alone := by
    rw [received_scalar rfl, receivedScalar]
    rfl
  cases b with
  | true =>
      obtain ⟨_, hdepth, h⟩ := bind_eq_ok.mp h
      cases h
      have hlit : IsLiteral Tag.true [] (Obj.bool true).alone := ⟨by decide, fun _ _ _ _ ↦ rfl⟩
      obtain ⟨hseen, hwritten⟩ := told_tracked rfl rfl hlit hdepth rfl
      rw [hreceived]
      exact ⟨hseen, rfl, hwritten⟩
  | false =>
      obtain ⟨_, hdepth, h⟩ := bind_eq_ok.mp h
      cases h
      have hlit : IsLiteral Tag.false [] (Obj.bool false).alone := ⟨by decide, fun _ _ _ _ ↦ rfl⟩
      obtain ⟨hseen, hwritten⟩ := told_tracked rfl rfl hlit hdepth rfl
      rw [hreceived]
      exact ⟨hseen, rfl, hwritten⟩

/-- Every scalar is told. -/
theorem told_scalar {x : Obj} (hx : x.isContainer = false) : Told depth x := by
  cases x with
  | none =>
      intro e e' h
      obtain ⟨_, hdepth, h⟩ := bind_eq_ok.mp h
      cases h
      have hreceived : received e.seen .none = .none := by
        rw [received_scalar rfl, receivedScalar]
        rfl
      rw [hreceived]
      exact ⟨rfl, rfl, none_written (e := e.shown) hdepth⟩
  | bool b => exact told_bool b
  | int n => exact told_int n
  | intN w n =>
      exact told_lookedUp rfl rfl rfl (fun _ _ hp ↦ isLiteral_packInt hp) fun _ ↦ rfl
  | float x =>
      refine told_lookedUp (y := .float64 x) rfl rfl rfl ?_ fun _ ↦ rfl
      rintro tag data ⟨⟩
      exact isLiteral_float64 x
  | float32 x =>
      refine told_lookedUp rfl rfl rfl (fun tag data hp ↦ ?_) fun _ ↦ rfl
      split at hp
      · next b hb =>
        cases hp
        exact isLiteral_float32 hb
      · cases hp
  | float64 x =>
      refine told_lookedUp rfl rfl rfl ?_ fun _ ↦ rfl
      rintro tag data ⟨⟩
      exact isLiteral_float64 x
  | date x =>
      refine told_lookedUp rfl rfl rfl ?_ fun _ ↦ rfl
      rintro tag data ⟨⟩
      exact isLiteral_date x
  | str s =>
      refine told_lookedUp rfl rfl rfl (fun tag data hp ↦ ?_) fun _ ↦ rfl
      split at hp
      · next raw hraw => exact isLiteral_str hraw hp
      · cases hp
  | uuid s =>
      refine told_lookedUp rfl rfl rfl (fun tag data hp ↦ ?_) fun _ ↦ rfl
      split at hp
      · next b hb =>
        cases hp
        have halone : (Obj.uuid s).alone = .str (strOfUuid data) := by
          simp only [alone, erase, hb]
        rw [halone]
        exact isLiteral_uuid hb
      · cases hp
  | bytes k b =>
      exact told_lookedUp (y := .bytes .bytes b) rfl rfl rfl (fun _ _ hp ↦ isLiteral_bytes hp)
        fun _ ↦ rfl
  | seq | dict => cases hx
  | terminator =>
      intro e e' h
      obtain ⟨_, -, h⟩ := bind_eq_ok.mp h
      cases h

end Scalars

/-! ## The loops -/

section Loops

variable {depth : Nat}

/-- The loop of `_array` against both loops of the decoder. -/
theorem values_told (hdepth : Encoder.checkDepth depth = .ok ()) {xs : List Obj}
    (hxs : ∀ x ∈ xs, Told depth x) {e e' : Encoder} (h : Encoder.values depth xs e = .ok e') :
    e'.seen = recordAll e.seen (leavesList xs) ∧
    ∃ w, xs.length ≤ w.length ∧ e'.buf = e.buf ++ w ∧ ∀ fuel, w.length ≤ fuel →
      Mirrors (unreadableList xs) (Decoder.counted (Decoder.value fuel depth) xs.length)
        e.shown.seen e'.shown.seen w (receivedList e.seen xs) ∧
      (w.length < fuel → ∀ n, xs.length < n →
        Mirrors (unreadableList xs) (Decoder.untilTerminator (Decoder.value fuel depth) n)
          e.shown.seen e'.shown.seen (w ++ [UInt8.ofNat Tag.terminator])
          (receivedList e.seen xs)) := by
  induction xs generalizing e with
  | nil =>
      cases h
      refine ⟨rfl, [], Nat.le_refl _, (List.append_nil _).symm, fun fuel hfuel ↦
        ⟨fun _ ds hds ↦ ⟨ds, by rw [receivedList]; rfl, hds⟩, ?_⟩⟩
      intro hpos n hn rest ds hds
      obtain ⟨n, rfl⟩ := Nat.exists_eq_add_one.mpr hn
      refine ⟨ds, ?_, hds⟩
      simp only [Decoder.untilTerminator, List.nil_append, List.singleton_append,
        value_terminator hdepth hpos, bind_ok, Obj.isTerminator, if_true, receivedList]
  | cons x xs ih =>
      rw [Encoder.values] at h
      obtain ⟨e₁, hx, h⟩ := bind_eq_ok.mp h
      obtain ⟨hseen, hne, w, hw, hbuf, hread⟩ := hxs x (List.mem_cons_self ..) _ _ hx
      obtain ⟨hseen', w', hw', hbuf', hread'⟩ :=
        ih (fun y hy ↦ hxs y (List.mem_cons_of_mem _ hy)) h
      have hlen : (w ++ w').length = w.length + w'.length := List.length_append
      rw [hseen] at hseen' hread'
      rw [receivedList, unreadableList]
      refine ⟨by rw [hseen', leavesList, recordAll_append], w ++ w', ?_, ?_,
        fun fuel hfuel ↦ ⟨?_, fun hlt n hn ↦ ?_⟩⟩
      · rw [List.length_cons]
        omega
      · rw [hbuf', ← List.append_assoc]
        exact congrArg (· ++ w') hbuf
      · have hrest := (hread' fuel (by omega)).1.map (received e.seen x :: ·)
        exact Mirrors.bind (fun y d ↦ (Decoder.counted (Decoder.value fuel depth) xs.length d).map
          fun p ↦ (y :: p.1, p.2)) (hread fuel (by omega)) hrest
      · obtain ⟨n, rfl⟩ := Nat.exists_eq_add_one.mpr (Nat.zero_lt_of_lt hn)
        have hrest := ((hread' fuel (by omega)).2 (by omega) n (by simpa using hn)).map
          (received e.seen x :: ·)
        rw [List.append_assoc]
        refine Mirrors.bind (fun y d ↦ if y.isTerminator then .ok ([], d)
          else (Decoder.untilTerminator (Decoder.value fuel depth) n d).map
            fun p ↦ (y :: p.1, p.2)) (hread fuel (by omega)) ?_
        simp only [hne]
        exact hrest

/-- No scalar decodes to a list or a bytearray. -/
theorem hashable_alone {x : Obj} (h : x.isContainer = false) : x.alone.hashable = true := by
  cases x with
  | float32 x =>
      rw [alone]
      split <;> rfl
  | uuid s =>
      rw [alone, erase]
      · split <;> rfl
      all_goals
        intros
        contradiction
  | seq | dict => cases h
  | _ => rfl

/-- A stand-in is no container. -/
theorem isContainer_standIn {seen : List Obj} {y : Obj} (h : y.isContainer = false) :
    (standIn seen y).isContainer = false := by
  rcases standIn_cases seen y with heq | ⟨z, -, hpyEq, heq⟩
  · rwa [heq]
  · rw [heq]
    exact isContainer_of_pyEq hpyEq

/-- A received key can be hashed unless it is a container. -/
theorem hashable_received (seen : List Obj) (k : Obj) :
    (received seen k).hashable = !k.isContainer := by
  cases k with
  | seq | dict =>
      rw [received]
      rfl
  | _ =>
      rw [received_scalar rfl, receivedScalar]
      split
      · next hlooked =>
        exact hashable_alone (isContainer_standIn (lookedUp_lookedUp hlooked).2)
      · exact hashable_alone rfl

/-- One entry: the value is stored under its key, which has to be hashable. -/
theorem assign_told {v : Obj} {e e' : Encoder} {x : Obj} (seen : List Obj) (k : Obj)
    (hv : Written v.unreadable depth e e' x) :
    ∃ w, 0 < w.length ∧ e'.buf = e.buf ++ w ∧ ∀ fuel, w.length ≤ fuel → ∀ acc : List (Obj × Obj),
      Mirrors (v.unreadable || k.isContainer)
        (Decoder.assign (Decoder.value fuel depth) acc (received seen k))
        e.seen e'.seen w (setItem acc (received seen k) x) := by
  obtain ⟨w, hw, hbuf, hread⟩ := hv
  refine ⟨w, hw, hbuf, fun fuel hfuel acc ↦ ?_⟩
  have hhash := hashable_received seen k
  cases hk : k.isContainer with
  | false =>
      rw [hk] at hhash
      rw [assign_of_hashable hhash, Bool.or_false]
      exact (hread fuel hfuel).map (setItem acc (received seen k))
  | true =>
      rw [hk] at hhash
      rw [Bool.or_true]
      intro rest ds hds
      have hassign : ∀ {d : Decoder} {p : Obj × Decoder}, Decoder.value fuel depth d = .ok p →
          Decoder.assign (Decoder.value fuel depth) acc (received seen k) d =
            .error (.valueError "unhashable HDS dictionary key") := by
        intro d p hp
        rw [Decoder.assign, hp]
        exact if_neg (by rw [hhash]; decide)
      have hread := hread fuel hfuel
      cases hv : v.unreadable with
      | true =>
          rw [hv] at hread
          obtain ⟨err, herr⟩ := hread rest ds hds
          exact ⟨err, by rw [Decoder.assign, herr]; rfl⟩
      | false =>
          rw [hv] at hread
          obtain ⟨ds', hok, -⟩ := hread rest ds hds
          exact ⟨_, hassign hok⟩

/-- The loop of `_dict` against both loops of the decoder, which start from the entries
`acc` read before. -/
theorem entries_told (hdepth : Encoder.checkDepth depth = .ok ()) {items : List (Obj × Obj)}
    (hks : ∀ p ∈ items, Told depth p.1) (hvs : ∀ p ∈ items, Told depth p.2)
    {e e' : Encoder} (h : Encoder.entries depth items e = .ok e') :
    e'.seen = recordAll e.seen (leavesItems items) ∧
    ∃ w, items.length ≤ w.length ∧ e'.buf = e.buf ++ w ∧ ∀ fuel, w.length ≤ fuel →
      ∀ acc : List (Obj × Obj),
      Mirrors (unreadableItems items)
        (Decoder.countedEntries (Decoder.value fuel depth) items.length acc)
        e.shown.seen e'.shown.seen w (receivedItems e.seen acc items) ∧
      (w.length < fuel → ∀ n, items.length < n →
        Mirrors (unreadableItems items)
          (Decoder.entriesUntilTerminator (Decoder.value fuel depth) n acc)
          e.shown.seen e'.shown.seen (w ++ [UInt8.ofNat Tag.terminator])
          (receivedItems e.seen acc items)) := by
  induction items generalizing e with
  | nil =>
      cases h
      refine ⟨rfl, [], Nat.le_refl _, (List.append_nil _).symm, fun fuel hfuel acc ↦
        ⟨fun _ ds hds ↦ ⟨ds, by rw [receivedItems]; rfl, hds⟩, ?_⟩⟩
      intro hpos n hn rest ds hds
      obtain ⟨n, rfl⟩ := Nat.exists_eq_add_one.mpr hn
      refine ⟨ds, ?_, hds⟩
      simp only [Decoder.entriesUntilTerminator, List.nil_append, List.singleton_append,
        value_terminator hdepth hpos, bind_ok, Obj.isTerminator, if_true, receivedItems]
  | cons item items ih =>
      obtain ⟨k, v⟩ := item
      rw [Encoder.entries] at h
      obtain ⟨e₁, hk, h⟩ := bind_eq_ok.mp h
      obtain ⟨e₂, hv, h⟩ := bind_eq_ok.mp h
      obtain ⟨hseenk, hne, wk, hwk, hbufk, hreadk⟩ := hks _ (List.mem_cons_self ..) _ _ hk
      obtain ⟨hseenv, -, hwritten⟩ := hvs _ (List.mem_cons_self ..) _ _ hv
      obtain ⟨wv, hwv, hbufv, hreadv⟩ := assign_told e.seen k hwritten
      obtain ⟨hseen', w', hw', hbuf', hread'⟩ := ih
        (fun p hp ↦ hks p (List.mem_cons_of_mem _ hp))
        (fun p hp ↦ hvs p (List.mem_cons_of_mem _ hp)) h
      have hlen : (wk ++ (wv ++ w')).length = wk.length + (wv.length + w'.length) := by
        simp only [List.length_append]
      rw [hseenk] at hseenv hreadv
      rw [hseenv] at hseen' hread'
      have hbuf : e'.buf = e.buf ++ (wk ++ (wv ++ w')) := by
        have hbufk : e₁.buf = e.buf ++ wk := hbufk
        have hbufv : e₂.buf = e₁.buf ++ wv := hbufv
        rw [hbuf', hbufv, hbufk]
        simp only [List.append_assoc]
      refine ⟨?_, wk ++ (wv ++ w'), ?_, hbuf, fun fuel hfuel acc ↦ ?_⟩
      · rw [hseen', leavesItems, recordAll_append, recordAll_append]
      · rw [List.length_cons]
        omega
      rw [receivedItems, unreadableItems, Bool.or_assoc]
      have hkey := hreadk fuel (by omega)
      have hval := hreadv fuel (by omega) acc
      obtain ⟨hcounted, hterm⟩ := hread' fuel (by omega)
        (setItem acc (received e.seen k) (received (recordAll e.seen k.leaves) v))
      refine ⟨?_, fun hlt n hn ↦ ?_⟩
      · exact hkey.bind (fun key d ↦ Decoder.assign (Decoder.value fuel depth) acc key d >>= fun p ↦
          Decoder.countedEntries (Decoder.value fuel depth) items.length p.1 p.2)
          (hval.bind (Decoder.countedEntries (Decoder.value fuel depth) items.length) hcounted)
      · obtain ⟨n, rfl⟩ := Nat.exists_eq_add_one.mpr (Nat.zero_lt_of_lt hn)
        have hterm := hterm (by omega) n (by simpa using hn)
        rw [List.append_assoc, List.append_assoc]
        refine hkey.bind (fun key d ↦ if key.isTerminator then .ok (acc, d) else
          Decoder.assign (Decoder.value fuel depth) acc key d >>= fun p ↦
            Decoder.entriesUntilTerminator (Decoder.value fuel depth) n p.1 p.2) ?_
        simp only [hne]
        exact hval.bind (Decoder.entriesUntilTerminator (Decoder.value fuel depth) n) hterm

end Loops

/-! ## Messages -/

theorem told_seq {k : SeqKind} {xs : List Obj} (ih : ∀ x ∈ xs, ∀ depth, Told depth x)
    (depth : Nat) : Told depth (.seq k xs) := by
  intro e e' h
  rw [Encoder.value] at h
  obtain ⟨_, hdepth, h⟩ := bind_eq_ok.mp h
  obtain ⟨_, hdepth', h⟩ := bind_eq_ok.mp h
  rw [received, leaves, unreadable]
  split at h
  · next hle =>
    obtain ⟨hseen, w, -, hbuf, hread⟩ := values_told hdepth' (fun x hx ↦ ih x hx (depth + 1)) h
    refine ⟨hseen, rfl, ?_⟩
    refine container_written (e := e.shown) (Tag.array + xs.length) Obj.list w hdepth ?_ hbuf
      (fun _ _ ↦ Decoder.ofTag_array (Nat.le_trans hle (by decide)))
      fun fuel hfuel ↦ (hread fuel hfuel).1
    exact Nat.lt_of_le_of_lt (Nat.add_le_add_left hle _) (by decide)
  · obtain ⟨e₁, h₁, h⟩ := bind_eq_ok.mp h
    cases h
    obtain ⟨hseen, w, hlen, hbuf, hread⟩ :=
      values_told hdepth' (fun x hx ↦ ih x hx (depth + 1)) h₁
    refine ⟨hseen, rfl, ?_⟩
    refine container_written (e := e.shown) Tag.arrayTerminated Obj.list
      (w ++ [UInt8.ofNat Tag.terminator]) hdepth (by decide) ?_ (fun _ _ ↦ rfl)
      fun fuel hfuel ↦ ?_
    · show e₁.buf ++ [UInt8.ofNat Tag.terminator] = _
      rw [hbuf, List.append_assoc]
      rfl
    · rw [List.length_append, List.length_singleton] at hfuel
      exact (hread fuel (by omega)).2 (by omega) fuel (by omega)

theorem told_dict {items : List (Obj × Obj)} (ihk : ∀ p ∈ items, ∀ depth, Told depth p.1)
    (ihv : ∀ p ∈ items, ∀ depth, Told depth p.2) (depth : Nat) : Told depth (.dict items) := by
  intro e e' h
  rw [Encoder.value] at h
  obtain ⟨_, hdepth, h⟩ := bind_eq_ok.mp h
  obtain ⟨_, hdepth', h⟩ := bind_eq_ok.mp h
  have hloop := fun e e' ↦ @entries_told (depth + 1) hdepth' items
    (fun p hp ↦ ihk p hp (depth + 1)) (fun p hp ↦ ihv p hp (depth + 1)) e e'
  rw [received, leaves, unreadable]
  split at h
  · next hle =>
    obtain ⟨hseen, w, -, hbuf, hread⟩ := hloop _ _ h
    refine ⟨hseen, rfl, ?_⟩
    refine container_written (e := e.shown) (Tag.dict + items.length) Obj.dict w hdepth ?_ hbuf
      (fun _ _ ↦ Decoder.ofTag_dict hle) fun fuel hfuel ↦ (hread fuel hfuel []).1
    exact Nat.lt_of_le_of_lt (Nat.add_le_add_left hle _) (by decide)
  · obtain ⟨e₁, h₁, h⟩ := bind_eq_ok.mp h
    cases h
    obtain ⟨hseen, w, hlen, hbuf, hread⟩ := hloop _ _ h₁
    refine ⟨hseen, rfl, ?_⟩
    refine container_written (e := e.shown) Tag.dictTerminated Obj.dict
      (w ++ [UInt8.ofNat Tag.terminator]) hdepth (by decide) ?_ (fun _ _ ↦ rfl)
      fun fuel hfuel ↦ ?_
    · show e₁.buf ++ [UInt8.ofNat Tag.terminator] = _
      rw [hbuf, List.append_assoc]
      rfl
    · rw [List.length_append, List.length_singleton] at hfuel
      exact (hread fuel (by omega) []).2 (by omega) fuel (by omega)

/-- **Every object that is written is told**, at any depth. -/
theorem told (v : Obj) (depth : Nat) : Told depth v := by
  induction v using Obj.containers generalizing depth with
  | scalar x hx => exact told_scalar hx
  | seq k xs ih => exact told_seq ih depth
  | dict items ihk ihv => exact told_dict ihk ihv depth

/-- What `encode` returns, `decode` reads as what is received of the message, and it raises
if the message is unreadable. -/
theorem decode_of_encode {v : Obj} {b : Bytes} (hb : encode v = .ok b) :
    if v.unreadable then ∃ err, decode b = .error err else decode b = .ok (received [] v) := by
  obtain ⟨e, he, rfl⟩ := map_eq_ok.mp hb
  obtain ⟨-, hne, w, -, hbuf, hread⟩ := told v 0 _ _ he
  have hw : e.buf = w := hbuf
  rw [hw]
  have hread := hread (w.length + 1) (Nat.le_succ _)
  cases hbad : v.unreadable with
  | true =>
      rw [hbad] at hread
      obtain ⟨err, h⟩ := hread [] [] .nil
      rw [List.append_nil] at h
      exact ⟨err, by rw [decode, h]; rfl⟩
  | false =>
      rw [hbad] at hread
      obtain ⟨ds, h, -⟩ := hread [] [] .nil
      rw [List.append_nil] at h
      show decode w = .ok (received [] v)
      rw [decode, h, bind_ok]
      exact if_neg (by rw [hne]; decide)

end Hds

end AtvRemote
