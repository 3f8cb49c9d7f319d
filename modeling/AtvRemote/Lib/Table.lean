import Mathlib.Data.List.Basic

/-!
# Lists as tables of objects

A list of all objects of a kind, in which an object is known by its place: objects are
added at the end, changed in place, and never leave.
-/

universe u v

namespace Lib

variable {α : Type u} {β : Type v} {xs : List α}

/-- An object of a table with one more at the end is an old one or the new one. -/
theorem getElem?_concat_eq_some {a x : α} {i : Nat} :
    (xs ++ [a])[i]? = some x ↔ xs[i]? = some x ∨ i = xs.length ∧ a = x := by
  rw [List.getElem?_append]
  split
  · next hlt => exact ⟨.inl, fun h ↦ h.resolve_right fun h ↦ absurd h.1 (Nat.ne_of_lt hlt)⟩
  · next hge =>
    have hlast : i - xs.length = 0 ↔ i = xs.length := by omega
    rw [List.getElem?_singleton, List.getElem?_eq_none (Nat.le_of_not_lt hge)]
    simp [hlast]

/-- The new object of a table. -/
theorem getElem?_concat_length (a : α) : (xs ++ [a])[xs.length]? = some a :=
  getElem?_concat_eq_some.mpr (.inr ⟨rfl, rfl⟩)

/-- An old object of a table with one more at the end. -/
theorem getElem?_concat_of_eq_some {a x : α} {i : Nat} (h : xs[i]? = some x) :
    (xs ++ [a])[i]? = some x := getElem?_concat_eq_some.mpr (.inl h)

/-- A place of a table is below its length. -/
theorem lt_length_of_getElem? {x : α} {i : Nat} (h : xs[i]? = some x) : i < xs.length :=
  (List.getElem?_eq_some_iff.mp h).1

/-- An object of a table that was changed in one place. -/
theorem getElem?_modify_eq_some {f : α → α} {i j : Nat} {y : α} :
    (xs.modify i f)[j]? = some y ↔
      ∃ x, xs[j]? = some x ∧ y = if j = i then f x else x := by
  rcases eq_or_ne j i with rfl | hne
  · rw [List.getElem?_modify_eq, Option.map_eq_map, Option.map_eq_some_iff]
    simp only [if_true, eq_comm]
  · simp only [List.getElem?_modify_ne _ _ hne.symm, if_neg hne, exists_eq_right']

/-- An object of a table in which one place was set. -/
theorem getElem?_set_eq_some {i j : Nat} {x y : α} (hi : i < xs.length) :
    (xs.set i x)[j]? = some y ↔ j = i ∧ y = x ∨ j ≠ i ∧ xs[j]? = some y := by
  rcases eq_or_ne j i with rfl | hne
  · simp [List.getElem?_set_self hi, eq_comm]
  · simp [List.getElem?_set_ne hne.symm, hne]

/-- Setting a place to what it holds changes nothing. -/
theorem set_of_getElem? {i : Nat} {x : α} (h : xs[i]? = some x) : xs.set i x = xs := by
  obtain ⟨hi, rfl⟩ := List.getElem?_eq_some_iff.mp h
  exact List.set_getElem_self hi

/-- A change of an object that is there sets its place. -/
theorem modify_of_getElem? {f : α → α} {i : Nat} {x : α} (h : xs[i]? = some x) :
    xs.modify i f = xs.set i (f x) := by
  rw [List.modify_eq_set_getElem?, h]
  rfl

/-- What a table is mapped to is a prefix of what another is mapped to, when it is so in each
place. -/
theorem map_isPrefix_map {γ : Type*} {ys : List β} {f : α → γ} {g : β → γ}
    (h : ∀ (i : Nat) (x : α), xs[i]? = some x → ∃ y, ys[i]? = some y ∧ g y = f x) :
    xs.map f <+: ys.map g := by
  rw [List.prefix_iff_getElem?]
  intro i hi
  rw [List.length_map] at hi
  obtain ⟨y, hy, hyx⟩ := h i _ (List.getElem?_eq_getElem hi)
  rw [List.getElem?_map, hy, Option.map_some, hyx, List.getElem_map]

/-- What is related to something in each place has what the relation gives. -/
theorem forall_mem_of_forall₂ {R : α → β → Prop} {P : β → Prop} (hP : ∀ x y, R x y → P y)
    {ys : List β} (h : List.Forall₂ R xs ys) : ∀ y ∈ ys, P y := by
  induction h with
  | nil => intro y hy; cases hy
  | cons hxy _ ih => exact List.forall_mem_cons.mpr ⟨hP _ _ hxy, ih⟩

/-- A removal by a predicate that holds of one object is the removal of that object. -/
theorem eraseP_eq_erase [DecidableEq α] {f : α → Bool} {a : α}
    (h : ∀ b ∈ xs, f b = true ↔ b = a) : xs.eraseP f = xs.erase a := by
  induction xs with
  | nil => rfl
  | cons b xs ih =>
      have hb := h b (List.mem_cons_self ..)
      rcases eq_or_ne b a with rfl | hne
      · rw [List.eraseP_cons_of_pos (hb.mpr rfl), List.erase_cons_head]
      · rw [List.eraseP_cons_of_neg (fun hf ↦ hne (hb.mp hf)), List.erase_cons_tail (by simpa),
          ih fun b' hb' ↦ h b' (List.mem_cons_of_mem _ hb')]

end Lib
