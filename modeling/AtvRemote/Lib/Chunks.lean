import Mathlib.Data.List.Basic

/-!
# Cutting a list into pieces of one length

`chunks k xs` cuts off pieces of length `k` from the front of `xs` as long as there are
that many elements, and keeps what is left over.  Cutting can be done as the list comes
in: what was left over is put in front of the next part (`chunks_append`).
-/

universe u

namespace Lib

variable {α : Type u}

/-- The pieces of `xs`, at most `fuel` of them, and what is left over. -/
def chunksAux (k : Nat) : Nat → List α → List {piece : List α // piece.length = k} × List α
  | 0, xs => ([], xs)
  | fuel + 1, xs =>
      if h : k ≤ xs.length then
        let rest := chunksAux k fuel (xs.drop k)
        (⟨xs.take k, List.length_take_of_le h⟩ :: rest.1, rest.2)
      else ([], xs)

/-- The pieces of length `k` of `xs`, and what is left over. -/
def chunks (k : Nat) (xs : List α) : List {piece : List α // piece.length = k} × List α :=
  chunksAux k xs.length xs

/-- More fuel than elements makes no difference. -/
theorem chunksAux_eq {k : Nat} (hk : 0 < k) {fuel : Nat} {xs : List α}
    (h : xs.length ≤ fuel) : chunksAux k fuel xs = chunks k xs := by
  suffices heq : ∀ {fuel' : Nat}, xs.length ≤ fuel' →
      chunksAux k fuel xs = chunksAux k fuel' xs from heq (Nat.le_refl _)
  intro fuel' h'
  induction fuel generalizing fuel' xs with
  | zero =>
      have hnil : xs = [] := List.length_eq_zero_iff.mp (by omega)
      subst hnil
      cases fuel' with
      | zero => rfl
      | succ fuel' => simp [chunksAux, Nat.not_le.mpr hk]
  | succ fuel ih =>
      cases fuel' with
      | zero =>
          have hnil : xs = [] := List.length_eq_zero_iff.mp (by omega)
          subst hnil
          simp [chunksAux, Nat.not_le.mpr hk]
      | succ fuel' =>
          by_cases hle : k ≤ xs.length
          · have hdrop : (xs.drop k).length = xs.length - k := List.length_drop
            have hrest : chunksAux k fuel (xs.drop k) = chunksAux k fuel' (xs.drop k) :=
              ih (by omega) (by omega)
            simp only [chunksAux, hle, dif_pos, hrest]
          · simp only [chunksAux, hle, dif_neg, not_false_eq_true]

/-- A list shorter than a piece is left over as it is. -/
theorem chunks_of_lt {k : Nat} {xs : List α} (h : xs.length < k) : chunks k xs = ([], xs) := by
  unfold chunks
  cases xs with
  | nil => rfl
  | cons x xs => rw [List.length_cons, chunksAux, dif_neg (Nat.not_le.mpr h)]

/-- Cutting off the first piece. -/
theorem chunks_of_le {k : Nat} (hk : 0 < k) {xs : List α} (h : k ≤ xs.length) :
    chunks k xs = (⟨xs.take k, List.length_take_of_le h⟩ :: (chunks k (xs.drop k)).1,
      (chunks k (xs.drop k)).2) := by
  obtain ⟨n, hn⟩ : ∃ n, xs.length = n + 1 := ⟨xs.length - 1, by omega⟩
  have hdrop : (xs.drop k).length = xs.length - k := List.length_drop
  rw [chunks, hn, chunksAux, dif_pos h, chunksAux_eq hk (by omega)]

/-- What is left over is shorter than a piece. -/
theorem length_chunks_snd_lt {k : Nat} (hk : 0 < k) (xs : List α) :
    (chunks k xs).2.length < k := by
  rcases Nat.lt_or_ge xs.length k with h | h
  · rw [chunks_of_lt h]
    exact h
  · have hdrop : (xs.drop k).length = xs.length - k := List.length_drop
    rw [chunks_of_le hk h]
    exact length_chunks_snd_lt hk (xs.drop k)
termination_by xs.length

/-- There are as many pieces as fit. -/
theorem length_chunks_fst {k : Nat} (hk : 0 < k) (xs : List α) :
    (chunks k xs).1.length = xs.length / k := by
  rcases Nat.lt_or_ge xs.length k with h | h
  · rw [chunks_of_lt h, Nat.div_eq_of_lt h]
    rfl
  · have hdrop : (xs.drop k).length = xs.length - k := List.length_drop
    rw [chunks_of_le hk h]
    simp only [List.length_cons]
    rw [length_chunks_fst hk (xs.drop k), hdrop, Nat.div_eq_sub_div hk h]
termination_by xs.length

/-- Induction along the pieces of a list. -/
theorem chunk_induction {k : Nat} (hk : 0 < k) {motive : List α → Prop}
    (short : ∀ xs : List α, xs.length ≤ k → motive xs)
    (long : ∀ xs : List α, k < xs.length → motive (xs.drop k) → motive xs) (xs : List α) :
    motive xs := by
  rcases Nat.lt_or_ge k xs.length with h | h
  · have hdrop : (xs.drop k).length = xs.length - k := List.length_drop
    exact long xs h (chunk_induction hk short long (xs.drop k))
  · exact short xs h
termination_by xs.length

/-- Cutting as the list comes in. -/
theorem chunks_append {k : Nat} (hk : 0 < k) (xs ys : List α) :
    chunks k (xs ++ ys) =
      ((chunks k xs).1 ++ (chunks k ((chunks k xs).2 ++ ys)).1,
        (chunks k ((chunks k xs).2 ++ ys)).2) := by
  rcases Nat.lt_or_ge xs.length k with h | h
  · rw [chunks_of_lt h]
    rfl
  · have hdrop : (xs.drop k).length = xs.length - k := List.length_drop
    have hle : k ≤ (xs ++ ys).length := by rw [List.length_append]; omega
    have htake : (xs ++ ys).take k = xs.take k := List.take_append_of_le_length h
    have hrest : (xs ++ ys).drop k = xs.drop k ++ ys := List.drop_append_of_le_length h
    rw [chunks_of_le hk hle, chunks_of_le hk h]
    simp only [htake, hrest, chunks_append hk (xs.drop k) ys]
    rfl
termination_by xs.length

end Lib
