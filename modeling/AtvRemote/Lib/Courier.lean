import Mathlib.Data.List.Flatten
import Mathlib.Data.List.Nodup

/-!
# A sender with one batch under way

A courier takes batches of items, one at a time.  A batch that it took waits, is delivered, and
is under way until the courier is told so; it may be dropped at either place.  A dropped batch
is not taken again, so that the items delivered can have gaps.  They have none exactly as long
as a batch with items is delivered only if every item taken before it was (`gapless_deliver_iff`).
-/

universe u v

namespace Lib

variable {α : Type u} {β : Type v}

/-- What a courier took and delivered, and the batch under way, with whether it is delivered. -/
structure Courier (β : Type v) where
  taken : List β
  delivered : List β
  underWay : Option (β × Bool)

namespace Courier

/-! ## Steps -/

/-- Take the next batch. -/
def take (c : Courier β) (b : β) : Courier β :=
  { c with taken := c.taken ++ [b], underWay := some (b, false) }

/-- Deliver the batch. -/
def deliver (c : Courier β) (b : β) : Courier β :=
  { c with delivered := c.delivered ++ [b], underWay := some (b, true) }

/-- The batch is no longer under way, delivered or not. -/
def drop (c : Courier β) : Courier β := { c with underWay := none }

/-- The batch that is under way and not delivered. -/
def waiting (c : Courier β) : List β :=
  match c.underWay with
  | some (b, false) => [b]
  | _ => []

theorem waiting_of_none {c : Courier β} (h : c.underWay = none) : c.waiting = [] := by
  rw [waiting, h]

theorem waiting_of_some {c : Courier β} {b : β} (h : c.underWay = some (b, false)) :
    c.waiting = [b] := by
  rw [waiting, h]

theorem waiting_of_delivered {c : Courier β} {b : β} (h : c.underWay = some (b, true)) :
    c.waiting = [] := by
  rw [waiting, h]

/-! ## What holds between two steps -/

/-- Batches are delivered in the order in which they were taken, and the one that waits was
taken last. -/
structure Ordered (c : Courier β) : Prop where
  sublist : c.delivered.Sublist c.taken
  last : ∀ b, c.underWay = some (b, false) →
    ∃ before, c.taken = before ++ [b] ∧ c.delivered.Sublist before

theorem Ordered.take {c : Courier β} (h : c.Ordered) (b : β) : (c.take b).Ordered where
  sublist := h.sublist.trans (List.sublist_append_left _ _)
  last b' hb := by
    cases hb
    exact ⟨c.taken, rfl, h.sublist⟩

theorem Ordered.deliver {c : Courier β} (h : c.Ordered) {b : β}
    (hb : c.underWay = some (b, false)) : (c.deliver b).Ordered where
  sublist := by
    obtain ⟨before, htaken, hsub⟩ := h.last b hb
    show (c.delivered ++ [b]).Sublist c.taken
    rw [htaken]
    exact hsub.append_right [b]
  last b' hb' := by cases hb'

theorem Ordered.drop {c : Courier β} (h : c.Ordered) : c.drop.Ordered where
  sublist := h.sublist
  last b hb := by cases hb

/-! ## Items without a gap -/

section Items

variable (items : β → List α)

/-- The items delivered are the first of those taken. -/
def Gapless (c : Courier β) : Prop := c.delivered.flatMap items <+: c.taken.flatMap items

/-- Every item taken was delivered or waits. -/
def Complete (c : Courier β) : Prop :=
  c.taken.flatMap items = c.delivered.flatMap items ++ c.waiting.flatMap items

variable {items}

theorem Gapless.take {c : Courier β} (h : c.Gapless items) (b : β) : (c.take b).Gapless items := by
  refine h.trans ?_
  show c.taken.flatMap items <+: (c.taken ++ [b]).flatMap items
  rw [List.flatMap_append]
  exact List.prefix_append _ _

/-- A list without duplicates continues another one where it stops, or not at all. -/
theorem append_prefix_append_iff {xs before rest : List α} (hnodup : (before ++ rest).Nodup)
    (hle : xs.length ≤ before.length) (hxs : xs <+: before ++ rest) :
    xs ++ rest <+: before ++ rest ↔ (rest ≠ [] → before = xs) := by
  have hbefore : xs <+: before := List.prefix_of_prefix_length_le hxs (List.prefix_append _ _) hle
  constructor
  · intro hprefix hne
    obtain ⟨x, rest, rfl⟩ := List.exists_cons_of_ne_nil hne
    obtain ⟨gap, rfl⟩ := hbefore
    cases gap with
    | nil => exact List.append_nil xs
    | cons y gap =>
        -- the next item would stand at two places
        rw [List.append_assoc, List.prefix_append_right_inj, List.cons_append,
          List.cons_prefix_cons] at hprefix
        rw [List.append_assoc] at hnodup
        have hnot := (List.nodup_cons.mp (List.nodup_append.mp hnodup).2.1).1
        refine (hnot ?_).elim
        rw [← hprefix.1]
        exact List.mem_append_right _ List.mem_cons_self
  · intro hrest
    cases rest with
    | nil => simpa using hbefore
    | cons x rest =>
        simp only [hrest (List.cons_ne_nil x rest), List.prefix_refl]

/-- **A delivery leaves no gap exactly when everything taken before was delivered.** -/
theorem Ordered.gapless_deliver_iff {c : Courier β} (h : c.Ordered) {b : β}
    (hb : c.underWay = some (b, false)) (hnodup : (c.taken.flatMap items).Nodup)
    (hgapless : c.Gapless items) :
    (c.deliver b).Gapless items ↔
      (items b ≠ [] → c.taken.flatMap items = c.delivered.flatMap items ++ items b) := by
  obtain ⟨before, htaken, hsub⟩ := h.last b hb
  have hflat : c.taken.flatMap items = before.flatMap items ++ items b := by
    rw [htaken, List.flatMap_append, List.flatMap_singleton]
  have hle : (c.delivered.flatMap items).length ≤ (before.flatMap items).length :=
    (hsub.flatMap items).length_le
  rw [hflat, List.append_left_inj]
  rw [hflat] at hnodup
  rw [Gapless, hflat] at hgapless
  refine Iff.trans ?_ (append_prefix_append_iff hnodup hle hgapless)
  show (c.delivered ++ [b]).flatMap items <+: c.taken.flatMap items ↔ _
  rw [hflat, List.flatMap_append, List.flatMap_singleton]

/-- Nothing is lost while batches are taken after the one before was delivered. -/
theorem Complete.take {c : Courier β} (h : c.Complete items) (hidle : c.waiting = []) (b : β) :
    (c.take b).Complete items := by
  rw [Complete, hidle] at h
  show (c.taken ++ [b]).flatMap items = c.delivered.flatMap items ++ [b].flatMap items
  rw [List.flatMap_append, h, List.flatMap_nil, List.append_nil]

theorem Complete.deliver {c : Courier β} (h : c.Complete items) {b : β}
    (hb : c.underWay = some (b, false)) : (c.deliver b).Complete items := by
  rw [Complete, waiting_of_some hb] at h
  show c.taken.flatMap items = (c.delivered ++ [b]).flatMap items ++ []
  rw [h, List.append_nil, List.flatMap_append]

/-- A batch may be dropped when it is delivered, or has no items. -/
theorem Complete.drop {c : Courier β} (h : c.Complete items)
    (hnone : c.waiting.flatMap items = []) : c.drop.Complete items := by
  rw [Complete, hnone] at h
  exact h

end Items

end Courier

end Lib
