import AtvRemote.Hds.Grammar
import AtvRemote.Hds.Message

/-!
# No message begins another

The decoder reads a message up to its own end, whatever follows (`read_append`), and then
insists that nothing follows.  No accepted byte string is therefore the beginning of another
one (`prefixFree_decode`), so the header and the message of a payload cannot be cut at any
other place (`decodeMessage_rejected`).
-/

namespace AtvRemote.Hds

open Lib

/-- A `ValueError` is raised. -/
def Rejected {α : Type} (x : Except PyErr α) : Prop := ∃ e, x = .error e ∧ e.isValueError = true

namespace Rejected

variable {α β : Type} {x : Except PyErr α}

/-- What raises `ValueError`s only is rejected unless it is accepted. -/
theorem of_onlyValueErrors (hx : OnlyValueErrors x) (h : ∀ a, x ≠ .ok a) : Rejected x := by
  cases x with
  | error e => exact ⟨e, rfl, hx e rfl⟩
  | ok a => exact absurd rfl (h a)

theorem bind (hx : Rejected x) (f : α → Except PyErr β) : Rejected (x >>= f) := by
  obtain ⟨e, rfl, he⟩ := hx
  exact ⟨e, rfl, he⟩

end Rejected

/-- **What follows an accepted message is not looked at.** -/
theorem read_append {b : Bytes} {x : Obj} (h : decode b = .ok x) :
    x.isTerminator = false ∧ ∃ seen, ∀ rest,
      Decoder.value ((b ++ rest).length + 1) 0 ⟨b ++ rest, []⟩ = .ok (x, ⟨rest, seen⟩) := by
  obtain ⟨ht, seen, m, hmessage⟩ := decode_eq_ok_iff.mp h
  exact ⟨ht, seen, fun rest ↦
    Decoder.complete_value _ 0 (Nat.zero_add _) rest hmessage (Nat.lt_succ_self _)⟩

/-- What follows an accepted message is refused. -/
theorem decode_append {b rest : Bytes} {x : Obj} (h : decode b = .ok x) (hrest : rest ≠ []) :
    decode (b ++ rest) = .error (.valueError s!"trailing HDS bytes: {rest.length}") := by
  obtain ⟨ht, seen, hread⟩ := read_append h
  have hlength : rest.length ≠ 0 := fun h ↦ hrest (List.length_eq_zero_iff.mp h)
  rw [decode, hread rest, bind_ok]
  simp only [ht, Bool.false_eq_true, if_false, if_pos hlength]

/-- Bytes of which one extends the other. -/
theorem eq_of_isPrefix {b c : Bytes} {x y : Obj} (hb : decode b = .ok x) (hc : decode c = .ok y)
    (h : b <+: c) : b = c := by
  obtain ⟨rest, rfl⟩ := h
  by_contra hne
  have hrest : rest ≠ [] := fun h ↦ hne (by rw [h, List.append_nil])
  rw [decode_append hb hrest] at hc
  cases hc

/-- Of two byte strings of which one extends the other, at most one is accepted. -/
theorem rejected_of_isPrefix {b c : Bytes} {x : Obj} (hb : decode b = .ok x)
    (h : b <+: c ∨ c <+: b) (hne : c ≠ b) : Rejected (decode c) := by
  refine .of_onlyValueErrors (onlyValueErrors_decode c) fun y hc ↦ hne ?_
  rcases h with h | h
  · exact (eq_of_isPrefix hb hc h).symm
  · exact eq_of_isPrefix hc hb h

/-! ## Payloads -/

variable (reprOf : Obj → String)

/-- Behind the byte that holds its length, a header cannot be cut elsewhere. -/
theorem rejected_of_headerLen {n n' : UInt8} {b b' : Bytes} {m : Message}
    (h : decodeMessage reprOf (n :: b) = .ok m) (hb : b <+: b' ∨ b' <+: b) (hn : n' ≠ n) :
    Rejected (decodeMessage reprOf (n' :: b')) := by
  rw [decodeMessage] at h ⊢
  rcases Decoder.ite_cases h with ⟨-, h⟩ | ⟨hlen, h⟩
  · cases h
  obtain ⟨header, hheader, -⟩ := bind_eq_ok.mp h
  split
  · exact ⟨_, rfl, rfl⟩
  · next hlen' =>
    refine .bind (rejected_of_isPrefix hheader ?_ fun heq ↦ hn ?_) _
    · have hbelow : ∀ {c c' : Bytes}, c <+: c' → ∀ k k', c.take k <+: c'.take k' ∨
          c'.take k' <+: c.take k := fun {c c'} hc k k' ↦
        List.prefix_or_prefix_of_prefix ((List.take_prefix k c).trans hc) (List.take_prefix k' c')
      rcases hb with hb | hb
      · exact hbelow hb _ _
      · exact (hbelow hb _ _).symm
    · have hlength := congrArg List.length heq
      rw [List.length_take_of_le (Nat.le_of_not_lt hlen'),
        List.length_take_of_le (Nat.le_of_not_lt hlen)] at hlength
      exact UInt8.toNat_inj.mp hlength

/-- Behind its header, a message can neither be cut short nor be extended. -/
theorem rejected_of_message {n : UInt8} {b b' : Bytes} {m : Message}
    (h : decodeMessage reprOf (n :: b) = .ok m) (hb : b <+: b' ∨ b' <+: b) (hne : b' ≠ b) :
    Rejected (decodeMessage reprOf (n :: b')) := by
  rw [decodeMessage] at h ⊢
  rcases Decoder.ite_cases h with ⟨-, h⟩ | ⟨hlen, h⟩
  · cases h
  obtain ⟨header, hheader, h⟩ := bind_eq_ok.mp h
  obtain ⟨message, hmessage, -⟩ := bind_eq_ok.mp h
  split
  · exact ⟨_, rfl, rfl⟩
  · next hlen' =>
    -- both are long enough to hold the same header
    have hsame : b'.take n.toNat = b.take n.toNat := by
      rcases hb with hb | hb
      · exact (List.prefix_iff_eq_take.mp hb ▸ by
          rw [List.take_take, Nat.min_eq_left (Nat.le_of_not_lt hlen)])
      · exact (List.prefix_iff_eq_take.mp hb ▸ by
          rw [List.take_take, Nat.min_eq_left (Nat.le_of_not_lt hlen')])
    rw [hsame, hheader, bind_ok]
    refine .bind (rejected_of_isPrefix hmessage ?_ fun heq ↦ hne ?_) _
    · have hcut : b' = b.take n.toNat ++ b'.drop n.toNat := by
        rw [← hsame, List.take_append_drop]
      have hcut' := (List.take_append_drop n.toNat b).symm
      rwa [hcut', hcut, List.prefix_append_right_inj, List.prefix_append_right_inj] at hb
    · rw [← List.take_append_drop n.toNat b', hsame, heq, List.take_append_drop]

/-- **An accepted payload is the only one that begins like it**: a payload of which it is the
beginning, or that is its beginning, is rejected, whatever header length it announces. -/
theorem decodeMessage_rejected {n n' : UInt8} {b b' : Bytes} {m : Message}
    (h : decodeMessage reprOf (n :: b) = .ok m) (hb : b <+: b' ∨ b' <+: b)
    (hne : n' :: b' ≠ n :: b) : Rejected (decodeMessage reprOf (n' :: b')) := by
  rcases eq_or_ne n' n with rfl | hn
  · exact rejected_of_message reprOf h hb fun heq ↦ hne (by rw [heq])
  · exact rejected_of_headerLen reprOf h hb hn

/-- **The byte strings that `decode` accepts are prefix-free**, and so a payload is cut into a
header and a message in one way at most. -/
theorem prefixFree_decode :
    (∀ b x, decode b = .ok x →
      (∀ c, c <+: b → c ≠ b → Rejected (decode c)) ∧
        ∀ c, b <+: c → c ≠ b → Rejected (decode c)) ∧
      ∀ reprOf n b m, decodeMessage reprOf (n :: b) = .ok m → ∀ n' b', b <+: b' ∨ b' <+: b →
        n' :: b' ≠ n :: b → Rejected (decodeMessage reprOf (n' :: b')) := by
  refine ⟨fun b x hb ↦ ⟨fun c hc ↦ ?_, fun c hc ↦ ?_⟩, fun reprOf n b m h n' b' ↦ ?_⟩
  · exact rejected_of_isPrefix hb (.inr hc)
  · exact rejected_of_isPrefix hb (.inl hc)
  · exact decodeMessage_rejected reprOf h

/-- An array that is cut short or followed by a byte. -/
theorem prefixFree_decode_array :
    decode [0xD1, 0x42, 0x68, 0x69] = .ok (.list [.text "hi"]) ∧
      Rejected (decode [0xD1, 0x42, 0x68]) ∧ Rejected (decode [0xD1, 0x42, 0x68, 0x69, 0x00]) := by
  have hdecode : decode [0xD1, 0x42, 0x68, 0x69] = .ok (.list [.text "hi"]) := rfl
  have hfree := prefixFree_decode.1 _ _ hdecode
  exact ⟨hdecode, hfree.1 _ ⟨[0x69], rfl⟩ (by decide), hfree.2 _ ⟨[0x00], rfl⟩ (by decide)⟩

end AtvRemote.Hds
