import Mathlib.Data.List.Nodup

/-!
# Insertion-ordered dictionaries

`Dict κ α` is a Python `dict` whose keys have decidable equality: its items in
insertion order, no key twice.  Assigning to a key that is present keeps its place;
a new key goes to the end.  Two dictionaries are equal under Python's `==` when they
give every key the same value (`Dict.Equiv`), whatever the order of their items.

The operations keep `nodup` by construction, so no lemma about them asks for it.
-/

universe u v w

namespace Lib

/-- A dictionary: items in insertion order, with pairwise distinct keys. -/
structure Dict (κ : Type u) (α : Type v) where
  /-- The items in insertion order. -/
  items : List (κ × α)
  /-- No key occurs twice. -/
  nodup : (items.map Prod.fst).Nodup
deriving DecidableEq

namespace Dict

variable {κ : Type u} {α : Type v} {β : Type w}

/-- The empty dictionary. -/
def empty : Dict κ α := ⟨[], List.nodup_nil⟩

/-- The keys in insertion order. -/
def keys (d : Dict κ α) : List κ := d.items.map Prod.fst

/-- The values in insertion order. -/
def values (d : Dict κ α) : List α := d.items.map Prod.snd

/-- `len(d)`. -/
def size (d : Dict κ α) : Nat := d.items.length

@[simp] theorem size_empty : (empty : Dict κ α).size = 0 := rfl
@[simp] theorem items_empty : (empty : Dict κ α).items = [] := rfl
@[simp] theorem keys_empty : (empty : Dict κ α).keys = [] := rfl

theorem nodup_keys (d : Dict κ α) : d.keys.Nodup := d.nodup

section

variable [DecidableEq κ]

/-- `d.get(k)`. -/
def get (d : Dict κ α) (k : κ) : Option α := (d.items.find? fun p ↦ p.1 = k).map Prod.snd

/-- `k in d`. -/
def contains (d : Dict κ α) (k : κ) : Bool := (d.get k).isSome

/-- The items of `d` with the value of `k` replaced. -/
def replaceItems (items : List (κ × α)) (k : κ) (v : α) : List (κ × α) :=
  items.map fun p ↦ if p.1 = k then (k, v) else p

theorem map_fst_replaceItems (items : List (κ × α)) (k : κ) (v : α) :
    (replaceItems items k v).map Prod.fst = items.map Prod.fst := by
  rw [replaceItems, List.map_map]
  apply List.map_congr_left
  intro p _
  simp only [Function.comp_apply]
  split
  · next h => exact h.symm
  · rfl

/-- `d[k] = v`. -/
def set (d : Dict κ α) (k : κ) (v : α) : Dict κ α :=
  if h : k ∈ d.keys then
    ⟨replaceItems d.items k v, (map_fst_replaceItems d.items k v).symm ▸ d.nodup⟩
  else
    ⟨d.items ++ [(k, v)], by
      rw [List.map_append, List.map_cons, List.map_nil]
      exact List.nodup_append.mpr ⟨d.nodup, List.nodup_singleton k, fun a ha b hb ↦ by
        rintro rfl
        rw [List.mem_singleton.mp hb] at ha
        exact h ha⟩⟩

/-- `d.pop(k, None)`, without the value. -/
def erase (d : Dict κ α) (k : κ) : Dict κ α :=
  ⟨d.items.filter fun p ↦ p.1 ≠ k, by
    refine d.nodup.sublist ?_
    exact (List.filter_sublist).map Prod.fst⟩

/-- `d.update(items)`. -/
def update (d : Dict κ α) (items : List (κ × α)) : Dict κ α :=
  items.foldl (fun d p ↦ d.set p.1 p.2) d

/-- The dictionary built by assigning the items one after the other. -/
def ofItems (items : List (κ × α)) : Dict κ α := empty.update items

/-! ## Lookup -/

@[simp] theorem get_empty (k : κ) : (empty : Dict κ α).get k = none := rfl

theorem get_eq_some_iff {d : Dict κ α} {k : κ} {v : α} :
    d.get k = some v ↔ (k, v) ∈ d.items := by
  obtain ⟨items, hnd⟩ := d
  simp only [get]
  induction items with
  | nil => simp
  | cons p items ih =>
      obtain ⟨k', v'⟩ := p
      rw [List.map_cons, List.nodup_cons] at hnd
      by_cases hk : k' = k
      · subst hk
        have hnot : (k', v) ∉ items := fun hmem ↦ hnd.1 (List.mem_map.mpr ⟨_, hmem, rfl⟩)
        simp [hnot, eq_comm]
      · simp [hk, Ne.symm hk, ih hnd.2]

theorem mem_keys_iff {d : Dict κ α} {k : κ} : k ∈ d.keys ↔ ∃ v, d.get k = some v := by
  simp only [keys, List.mem_map, get_eq_some_iff]
  constructor
  · rintro ⟨⟨k', v⟩, hmem, rfl⟩
    exact ⟨v, hmem⟩
  · rintro ⟨v, hmem⟩
    exact ⟨(k, v), hmem, rfl⟩

theorem contains_iff {d : Dict κ α} {k : κ} : d.contains k = true ↔ k ∈ d.keys := by
  rw [contains, Option.isSome_iff_exists, mem_keys_iff]

theorem contains_eq_false_iff {d : Dict κ α} {k : κ} : d.contains k = false ↔ d.get k = none := by
  rw [contains, Option.isSome_eq_false_iff, Option.isNone_iff_eq_none]

theorem get_eq_none_iff {d : Dict κ α} {k : κ} : d.get k = none ↔ k ∉ d.keys := by
  rw [mem_keys_iff]
  cases d.get k <;> simp

/-- The dictionary without an entry. -/
theorem eq_empty_iff {d : Dict κ α} : d = empty ↔ ∀ k, d.get k = none := by
  constructor
  · rintro rfl k
    exact get_empty k
  · intro h
    have hitems : d.items = [] := by
      refine List.eq_nil_iff_forall_not_mem.mpr fun p hp ↦ ?_
      have hget : d.get p.1 = some p.2 := get_eq_some_iff.mpr hp
      rw [h] at hget
      cases hget
    cases d
    cases hitems
    rfl

/-! ## Assignment -/

theorem mem_items_set {d : Dict κ α} {k k' : κ} {v v' : α} :
    (k', v') ∈ (d.set k v).items ↔ (k' = k ∧ v' = v) ∨ (k' ≠ k ∧ (k', v') ∈ d.items) := by
  unfold set
  split
  · next hmem =>
    simp only [replaceItems, List.mem_map]
    constructor
    · rintro ⟨⟨a, b⟩, hab, heq⟩
      by_cases ha : a = k
      · rw [if_pos ha] at heq
        obtain ⟨rfl, rfl⟩ := Prod.mk.inj heq
        exact .inl ⟨rfl, rfl⟩
      · rw [if_neg ha] at heq
        obtain ⟨rfl, rfl⟩ := Prod.mk.inj heq
        exact .inr ⟨ha, hab⟩
    · rintro (⟨rfl, rfl⟩ | ⟨hne, hin⟩)
      · obtain ⟨w, hw⟩ := mem_keys_iff.mp hmem
        exact ⟨(k', w), get_eq_some_iff.mp hw, by simp⟩
      · exact ⟨(k', v'), hin, by simp [hne]⟩
  · next hmem =>
    simp only [List.mem_append, List.mem_singleton, Prod.mk.injEq]
    constructor
    · rintro (hin | h)
      · exact .inr ⟨fun heq ↦ hmem (heq ▸ List.mem_map.mpr ⟨_, hin, rfl⟩), hin⟩
      · exact .inl h
    · rintro (h | ⟨-, hin⟩)
      · exact .inr h
      · exact .inl hin

@[simp] theorem get_set_self (d : Dict κ α) (k : κ) (v : α) : (d.set k v).get k = some v :=
  get_eq_some_iff.mpr (mem_items_set.mpr (.inl ⟨rfl, rfl⟩))

theorem get_set_of_ne {d : Dict κ α} {k k' : κ} (h : k' ≠ k) (v : α) :
    (d.set k v).get k' = d.get k' := by
  apply Option.ext
  intro w
  rw [get_eq_some_iff, get_eq_some_iff, mem_items_set]
  simp [h]

theorem get_set (d : Dict κ α) (k k' : κ) (v : α) :
    (d.set k v).get k' = if k' = k then some v else d.get k' := by
  split
  · next h => rw [h, get_set_self]
  · next h => exact get_set_of_ne h v

theorem mem_keys_set {d : Dict κ α} {k k' : κ} {v : α} :
    k' ∈ (d.set k v).keys ↔ k' = k ∨ k' ∈ d.keys := by
  rw [mem_keys_iff, mem_keys_iff, get_set]
  by_cases h : k' = k <;> simp [h]

theorem size_set_of_mem {d : Dict κ α} {k : κ} (h : k ∈ d.keys) (v : α) :
    (d.set k v).size = d.size := by
  simp [set, h, size, replaceItems]

theorem items_set_of_not_mem {d : Dict κ α} {k : κ} (h : k ∉ d.keys) (v : α) :
    (d.set k v).items = d.items ++ [(k, v)] := by
  simp [set, h]

theorem size_set_of_not_mem {d : Dict κ α} {k : κ} (h : k ∉ d.keys) (v : α) :
    (d.set k v).size = d.size + 1 := by
  rw [size, items_set_of_not_mem h, List.length_append]
  rfl

/-- Of two assignments to a key the second one counts. -/
theorem set_set (d : Dict κ α) (k : κ) (v w : α) : (d.set k v).set k w = d.set k w := by
  have hmem : k ∈ (d.set k v).keys := mem_keys_set.mpr (.inl rfl)
  have hitems : ((d.set k v).set k w).items = (d.set k w).items := by
    rw [set, dif_pos hmem]
    dsimp only
    by_cases hk : k ∈ d.keys
    · rw [set, set, dif_pos hk, dif_pos hk]
      simp only [replaceItems, List.map_map]
      apply List.map_congr_left
      intro p _
      simp only [Function.comp_apply]
      split <;> simp_all
    · rw [items_set_of_not_mem hk, items_set_of_not_mem hk, replaceItems, List.map_append]
      refine congrArg₂ (· ++ ·) ?_ (by simp)
      refine (List.map_congr_left fun p hp ↦ if_neg fun heq ↦ hk ?_).trans (List.map_id _)
      exact heq ▸ List.mem_map.mpr ⟨p, hp, rfl⟩
  cases h : (d.set k v).set k w
  cases h' : d.set k w
  rw [h, h'] at hitems
  cases hitems
  rfl

/-- At most one key is new. -/
theorem size_set_le (d : Dict κ α) (k : κ) (v : α) : (d.set k v).size ≤ d.size + 1 := by
  by_cases hk : k ∈ d.keys
  · rw [size_set_of_mem hk]
    exact Nat.le_succ _
  · exact Nat.le_of_eq (size_set_of_not_mem hk v)

/-! ## Removal -/

theorem mem_items_erase {d : Dict κ α} {k k' : κ} {v : α} :
    (k', v) ∈ (d.erase k).items ↔ k' ≠ k ∧ (k', v) ∈ d.items := by
  simp [erase, and_comm]

@[simp] theorem get_erase_self (d : Dict κ α) (k : κ) : (d.erase k).get k = none := by
  apply Option.ext
  intro w
  rw [get_eq_some_iff, mem_items_erase]
  simp

theorem get_erase_of_ne {d : Dict κ α} {k k' : κ} (h : k' ≠ k) :
    (d.erase k).get k' = d.get k' := by
  apply Option.ext
  intro w
  rw [get_eq_some_iff, get_eq_some_iff, mem_items_erase]
  simp [h]

theorem get_erase (d : Dict κ α) (k k' : κ) :
    (d.erase k).get k' = if k' = k then none else d.get k' := by
  split
  · next h => rw [h, get_erase_self]
  · next h => exact get_erase_of_ne h

theorem get_of_get_erase {d : Dict κ α} {k k' : κ} {v : α} (h : (d.erase k).get k' = some v) :
    k' ≠ k ∧ d.get k' = some v := by
  rw [get_erase] at h
  split at h
  · cases h
  · next hne => exact ⟨hne, h⟩

theorem mem_keys_erase {d : Dict κ α} {k k' : κ} :
    k' ∈ (d.erase k).keys ↔ k' ≠ k ∧ k' ∈ d.keys := by
  rw [mem_keys_iff, mem_keys_iff, get_erase]
  by_cases h : k' = k <;> simp [h]

theorem size_erase_le (d : Dict κ α) (k : κ) : (d.erase k).size ≤ d.size :=
  List.length_filter_le ..

/-- What is left after removing several keys was there. -/
theorem get_of_get_foldl_erase {ks : List κ} {d : Dict κ α} {k : κ} {v : α}
    (h : (ks.foldl erase d).get k = some v) : d.get k = some v := by
  induction ks generalizing d with
  | nil => exact h
  | cons k' ks ih => exact (get_of_get_erase (ih h)).2

/-! ## Equality up to order -/

/-- `d == d'`: the same value at every key. -/
def Equiv (d d' : Dict κ α) : Prop := ∀ k, d.get k = d'.get k

theorem Equiv.refl (d : Dict κ α) : d.Equiv d := fun _ ↦ rfl

/-- Assigning items one after the other gives each key the last of its items. -/
theorem get_update_last (items : List (κ × α)) (d : Dict κ α) (k : κ) :
    (d.update items).get k =
      ((items.reverse.find? fun p ↦ p.1 = k).map Prod.snd).or (d.get k) := by
  induction items generalizing d with
  | nil => rfl
  | cons p items ih =>
      have hstep : d.update (p :: items) = (d.set p.1 p.2).update items := rfl
      rw [hstep, ih, get_set, List.reverse_cons, List.find?_append]
      cases hfind : items.reverse.find? fun q ↦ q.1 = k with
      | some q => rfl
      | none =>
          by_cases hk : p.1 = k
          · simp [hk]
          · simp [hk, Ne.symm hk]

/-- Assigning items with distinct keys one after the other gives each key its item. -/
theorem get_update {items : List (κ × α)} (hnd : (items.map Prod.fst).Nodup) (d : Dict κ α)
    (k : κ) : (d.update items).get k =
      ((items.find? fun p ↦ p.1 = k).map Prod.snd).or (d.get k) := by
  induction items generalizing d with
  | nil => rfl
  | cons p items ih =>
      obtain ⟨k₀, v₀⟩ := p
      rw [List.map_cons, List.nodup_cons] at hnd
      have hstep : d.update ((k₀, v₀) :: items) = (d.set k₀ v₀).update items := rfl
      rw [hstep, ih hnd.2, get_set]
      by_cases hk : k₀ = k
      · subst hk
        have hnone : items.find? (fun p ↦ p.1 = k₀) = none := by
          rw [List.find?_eq_none]
          intro q hq heq
          exact hnd.1 (of_decide_eq_true heq ▸ List.mem_map.mpr ⟨q, hq, rfl⟩)
        simp [hnone]
      · have hfind : ((k₀, v₀) :: items).find? (fun p ↦ p.1 = k) =
            items.find? (fun p ↦ p.1 = k) := by simp [hk]
        rw [if_neg (Ne.symm hk), hfind]

theorem get_ofItems {items : List (κ × α)} (hnd : (items.map Prod.fst).Nodup) (k : κ) :
    (ofItems items).get k = (items.find? fun p ↦ p.1 = k).map Prod.snd := by
  rw [ofItems, get_update hnd, get_empty, Option.or_none]

theorem get_ofItems_eq_some_iff {items : List (κ × α)} (hnd : (items.map Prod.fst).Nodup) {k : κ}
    {v : α} : (ofItems items).get k = some v ↔ (k, v) ∈ items := by
  rw [get_ofItems hnd]
  exact get_eq_some_iff (d := ⟨items, hnd⟩)

end

end Dict

end Lib
