import AtvRemote.Hds.Grammar

/-!
# Where the terminator may stand

The decoder gives data, except for messages in which the terminator stands where a value
should (`decodesData_iff`): it looks for the terminator at the top, among the elements of a
terminated array and among the keys of a terminated dictionary, and nowhere else.
-/

namespace AtvRemote

open Lib

/-- A tree of data. -/
inductive Obj.IsData : Obj → Prop
  | none : IsData .none
  | bool (b : Bool) : IsData (.bool b)
  | int (n : Int) : IsData (.int n)
  | float (x : Float64) : IsData (.float x)
  | str (s : PyStr) : IsData (.str s)
  | bytes (b : Bytes) : IsData (.bytes .bytes b)
  | list (xs : List Obj) (elems : ∀ x ∈ xs, IsData x) : IsData (.list xs)
  | dict (items : List (Obj × Obj)) (keys : ∀ p ∈ items, IsData p.1)
      (values : ∀ p ∈ items, IsData p.2) : IsData (.dict items)

theorem Obj.isData_of_isScalar {x : Obj} (h : x.isScalar = true) : x.IsData := by
  cases x with
  | bool b => exact .bool b
  | int n => exact .int n
  | float x => exact .float x
  | str s => exact .str s
  | bytes k b =>
      cases k with
      | bytes => exact .bytes b
      | _ => cases h
  | _ => cases h

namespace Hds

/-- `decode` gives data or a `ValueError`, and takes the terminator for nothing but the end of
an array or a dictionary. -/
structure DecodesData (b : Bytes) : Prop where
  errors : ∀ e, decode b = .error e → e.isValueError = true
  data : ∀ x, decode b = .ok x → x.IsData
  /-- No value that is read is the terminator. -/
  terminators : ∀ x seen, decode b = .ok x → ¬Term (maxDepth + 1) [] b x seen true

/-! ## Without a misplaced terminator -/

/-- The entries are data. -/
def DataItems (items : List (Obj × Obj)) : Prop :=
  (∀ p ∈ items, p.1.IsData) ∧ ∀ p ∈ items, p.2.IsData

theorem DataItems.setItem {items : List (Obj × Obj)} (h : DataItems items) {k v : Obj}
    (hk : k.IsData) (hv : v.IsData) : DataItems (Obj.setItem items k v) := by
  rw [Obj.setItem]
  split
  · constructor <;> intro p hp <;> obtain ⟨q, hq, rfl⟩ := List.mem_map.mp hp
    · split
      · exact h.1 q hq
      · exact h.1 q hq
    · split
      · exact hv
      · exact h.2 q hq
  · constructor <;> intro p hp <;> rcases List.mem_append.mp hp with hp | hp
    · exact h.1 p hp
    · exact List.mem_singleton.mp hp ▸ hk
    · exact h.2 p hp
    · exact List.mem_singleton.mp hp ▸ hv

/-- What is read is data, or the terminator, and the table holds data. -/
def ReadsData (R : Reading Obj) : Prop :=
  ∀ ⦃seen b x seen'⦄, R seen b x seen' false → (∀ y ∈ seen, Obj.IsData y) →
    (x.isTerminator = false → x.IsData) ∧ ∀ y ∈ seen', Obj.IsData y

section

variable {R : Reading Obj} (hR : ReadsData R) {seen seen' : List Obj} {b : Bytes}

include hR

theorem data_elements {n : Nat} {xs : List Obj} {m : Bool} (h : Elements R n seen b xs seen' m)
    (hm : m = false) (hseen : ∀ y ∈ seen, Obj.IsData y) :
    (∀ x ∈ xs, x.IsData) ∧ ∀ y ∈ seen', Obj.IsData y := by
  induction h with
  | nil => exact ⟨nofun, hseen⟩
  | cons hx _ ih =>
      obtain ⟨hm, hms⟩ := Bool.or_eq_false_iff.mp hm
      obtain ⟨ht, hm⟩ := Bool.or_eq_false_iff.mp hm
      subst hm
      obtain ⟨hdata, hseen₁⟩ := hR hx hseen
      obtain ⟨hall, hseen₂⟩ := ih hms hseen₁
      exact ⟨List.forall_mem_cons.mpr ⟨hdata ht, hall⟩, hseen₂⟩

theorem data_elementsUntil {xs : List Obj} {m : Bool} (h : ElementsUntil R seen b xs seen' m)
    (hm : m = false) (hseen : ∀ y ∈ seen, Obj.IsData y) :
    (∀ x ∈ xs, x.IsData) ∧ ∀ y ∈ seen', Obj.IsData y := by
  induction h with
  | nil hx =>
      subst hm
      exact ⟨nofun, (hR hx hseen).2⟩
  | cons hx ht _ ih =>
      obtain ⟨hm, hms⟩ := Bool.or_eq_false_iff.mp hm
      subst hm
      obtain ⟨hdata, hseen₁⟩ := hR hx hseen
      obtain ⟨hall, hseen₂⟩ := ih hms hseen₁
      exact ⟨List.forall_mem_cons.mpr ⟨hdata ht, hall⟩, hseen₂⟩

theorem data_entries {n : Nat} {items items' : List (Obj × Obj)} {m : Bool}
    (h : Entries R n items seen b items' seen' m) (hm : m = false)
    (hseen : ∀ y ∈ seen, Obj.IsData y) (hitems : DataItems items) :
    DataItems items' ∧ ∀ y ∈ seen', Obj.IsData y := by
  induction h with
  | nil => exact ⟨hitems, hseen⟩
  | cons hk hv _ _ ih =>
      simp only [Bool.or_eq_false_iff] at hm
      obtain ⟨⟨⟨⟨htk, htv⟩, hm⟩, hm'⟩, hms⟩ := hm
      subst hm hm'
      obtain ⟨hkey, hseen₁⟩ := hR hk hseen
      obtain ⟨hvalue, hseen₂⟩ := hR hv hseen₁
      exact ih hms hseen₂ (hitems.setItem (hkey htk) (hvalue htv))

theorem data_entriesUntil {items items' : List (Obj × Obj)} {m : Bool}
    (h : EntriesUntil R items seen b items' seen' m) (hm : m = false)
    (hseen : ∀ y ∈ seen, Obj.IsData y) (hitems : DataItems items) :
    DataItems items' ∧ ∀ y ∈ seen', Obj.IsData y := by
  induction h with
  | nil hk =>
      subst hm
      exact ⟨hitems, (hR hk hseen).2⟩
  | cons hk htk hv _ _ ih =>
      simp only [Bool.or_eq_false_iff] at hm
      obtain ⟨⟨⟨htv, hm⟩, hm'⟩, hms⟩ := hm
      subst hm hm'
      obtain ⟨hkey, hseen₁⟩ := hR hk hseen
      obtain ⟨hvalue, hseen₂⟩ := hR hv hseen₁
      exact ih hms hseen₂ (hitems.setItem (hkey htk) (hvalue htv))

end

/-- **A message without a misplaced terminator stands for data.** -/
theorem readsData_message (n : Nat) : ReadsData (Term n) := by
  induction n with
  | zero => exact fun _ _ _ _ h ↦ h.elim
  | succ n ih =>
      intro seen b x seen' h hseen
      have hnone : DataItems [] := ⟨nofun, nofun⟩
      cases h with
      | terminator => exact ⟨nofun, hseen⟩
      | null => exact ⟨fun _ ↦ .none, hseen⟩
      | literal _ hx =>
          have hdata := Obj.isData_of_isScalar hx
          refine ⟨fun _ ↦ hdata, fun y hy ↦ ?_⟩
          rcases List.mem_append.mp hy with hy | hy
          · exact hseen y hy
          · exact List.mem_singleton.mp hy ▸ hdata
      | reference _ hx => exact ⟨fun _ ↦ hseen x (List.mem_of_getElem? hx), hseen⟩
      | array _ hxs =>
          obtain ⟨hall, hseen'⟩ := data_elements ih hxs rfl hseen
          exact ⟨fun _ ↦ .list _ hall, hseen'⟩
      | arrayTerminated hxs =>
          obtain ⟨hall, hseen'⟩ := data_elementsUntil ih hxs rfl hseen
          exact ⟨fun _ ↦ .list _ hall, hseen'⟩
      | dict _ hitems =>
          obtain ⟨hall, hseen'⟩ := data_entries ih hitems rfl hseen hnone
          exact ⟨fun _ ↦ .dict _ hall.1 hall.2, hseen'⟩
      | dictTerminated hitems =>
          obtain ⟨hall, hseen'⟩ := data_entriesUntil ih hitems rfl hseen hnone
          exact ⟨fun _ ↦ .dict _ hall.1 hall.2, hseen'⟩

/-- A terminator is misplaced in a container. -/
theorem Term.isTerminator_of_misplaced {n : Nat} {seen seen' : List Obj} {b : Bytes} {x : Obj}
    (h : Term n seen b x seen' true) : x.isTerminator = false := by
  cases n with
  | zero => exact h.elim
  | succ n => cases h <;> rfl

/-- **`decode` gives data or a `ValueError` if and only if the bytes are not a message in which
the terminator stands for an element of a counted array, for a key or a value of a counted
dictionary, or for a value of a terminated one.** -/
theorem decodesData_iff (b : Bytes) :
    DecodesData b ↔ ¬∃ x seen, Term (maxDepth + 1) [] b x seen true := by
  constructor
  · rintro h ⟨x, seen, hmessage⟩
    have hdecode : decode b = .ok x :=
      decode_eq_ok_iff.mpr ⟨hmessage.isTerminator_of_misplaced, seen, true, hmessage⟩
    exact h.terminators x seen hdecode hmessage
  · intro hnone
    refine ⟨onlyValueErrors_decode b, fun x hx ↦ ?_, fun x seen _ hmessage ↦ ?_⟩
    · obtain ⟨ht, seen, m, hmessage⟩ := decode_eq_ok_iff.mp hx
      cases m with
      | true => exact (hnone ⟨x, seen, hmessage⟩).elim
      | false => exact (readsData_message _ hmessage nofun).1 ht
    · exact hnone ⟨x, seen, hmessage⟩

/-- An array of one element that is the terminator. -/
theorem not_decodesData_of_terminator :
    decode [0xD1, 0x03] = .ok (.list [.terminator]) ∧ ¬DecodesData [0xD1, 0x03] := by
  have hdecode : decode [0xD1, 0x03] = .ok (.list [.terminator]) := rfl
  refine ⟨hdecode, fun h ↦ ?_⟩
  cases h.data _ hdecode with
  | list _ helems => cases helems .terminator (List.mem_singleton_self _)

end Hds

end AtvRemote
