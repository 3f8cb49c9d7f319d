import AtvRemote.Lib.Bytes

/-!
# Sealed channels: numbered AEAD frames on a byte stream

A sender cuts what it says into payloads and writes one frame for each: a header that
announces the payload's length, then the payload encrypted under the channel's key with the
header as associated data.  The nonce of a frame is a function of its number, so neither
side transmits it; each counts for itself.

* `sealFrom k ps` is the byte stream of the payloads, numbered from `k` on, and `openFrom`
  is the receiver that splits such a stream by its headers.  `openAll_of_sealAll` is the
  law between them.
* `SealedOnly key ms` says what an ideal cipher gives to the receiver's side: whatever
  decrypts under the key is one of the payloads `ms`, under the nonce of its place.  A
  receiver with its own counter therefore accepts a prefix of `ms`, whatever arrives
  (`SealedOnly.isPrefix`).
-/

namespace Lib

/-- A cipher with associated data. -/
structure Aead where
  /-- The ciphertext of `data`, which authenticates `associatedData` too. -/
  encrypt (key nonce data associatedData : Bytes) : Bytes
  /-- The plaintext, `none` when the tag does not fit. -/
  decrypt (key nonce data associatedData : Bytes) : Option Bytes

/-- Decryption undoes encryption, and a ciphertext is longer than its plaintext by the tag. -/
structure Aead.Lawful (A : Aead) (tagLength : Nat) : Prop where
  decrypt_encrypt (key nonce data ad : Bytes) :
    A.decrypt key nonce (A.encrypt key nonce data ad) ad = some data
  length_encrypt (key nonce data ad : Bytes) :
    (A.encrypt key nonce data ad).length = data.length + tagLength

/-- How a channel frames and numbers its payloads. -/
structure Framing where
  /-- The length of a frame's header. -/
  headerLength : Nat
  /-- By how much a ciphertext is longer than its plaintext. -/
  tagLength : Nat
  /-- The longest payload. -/
  maxLength : Nat
  /-- The header of a payload of the given length. -/
  header : Nat → Bytes
  /-- The payload length that a header announces. -/
  payloadLength : Bytes → Option Nat
  /-- The nonce of a frame by its number, `none` when the counter is exhausted. -/
  nonce : Nat → Option Bytes

/-- A header can be told from what follows it, and no nonce has two numbers. -/
structure Framing.Lawful (F : Framing) : Prop where
  headerLength_pos : 0 < F.headerLength
  length_header (n : Nat) : (F.header n).length = F.headerLength
  payloadLength_header (n : Nat) : n ≤ F.maxLength → F.payloadLength (F.header n) = some n
  nonce_injective {i j : Nat} {n : Bytes} : F.nonce i = some n → F.nonce j = some n → i = j

namespace Framing

section

variable (F : Framing) (A : Aead) (key : Bytes)

/-! ## Sending -/

/-- The frame of a payload under a nonce. -/
def frame (nonce payload : Bytes) : Bytes :=
  F.header payload.length ++ A.encrypt key nonce payload (F.header payload.length)

/-- The frames of the payloads, one after the other, numbered from `k` on. -/
def sealFrom : Nat → List Bytes → Option Bytes
  | _, [] => some []
  | k, p :: ps => (F.nonce k).bind fun n ↦
      (sealFrom (k + 1) ps).map fun rest ↦ F.frame A key n p ++ rest

/-- The byte stream of the payloads of a channel. -/
def sealAll (ps : List Bytes) : Option Bytes := F.sealFrom A key 0 ps

/-! ## Receiving -/

/-- The payload of the first frame of a stream, and what follows the frame. -/
def openFrame (k : Nat) (stream : Bytes) : Option (Bytes × Bytes) :=
  (F.payloadLength (stream.take F.headerLength)).bind fun length ↦
    if (stream.drop F.headerLength).length < length + F.tagLength then none
    else (F.nonce k).bind fun n ↦
      (A.decrypt key n ((stream.drop F.headerLength).take (length + F.tagLength))
        (stream.take F.headerLength)).map fun p ↦
          (p, (stream.drop F.headerLength).drop (length + F.tagLength))

/-- The payloads of a stream whose frames are numbered from `k` on, at most `fuel` of them. -/
def openFrom : Nat → Nat → Bytes → Option (List Bytes)
  | _, _, [] => some []
  | 0, _, _ :: _ => none
  | fuel + 1, k, b :: stream => (F.openFrame A key k (b :: stream)).bind fun p ↦
      (openFrom fuel (k + 1) p.2).map fun ps ↦ p.1 :: ps

/-- The payloads of a byte stream, `none` when it is not a sequence of whole frames that
open one after the other. -/
def openAll (stream : Bytes) : Option (List Bytes) := F.openFrom A key stream.length 0 stream

end

variable {F : Framing} {A : Aead} {key : Bytes}

@[simp] theorem sealFrom_nil (k : Nat) : F.sealFrom A key k [] = some [] := rfl

@[simp] theorem sealAll_nil : F.sealAll A key [] = some [] := rfl

/-- One more payload goes behind the stream, under the next number. -/
theorem sealFrom_concat {k : Nat} {ps : List Bytes} {out n p : Bytes}
    (h : F.sealFrom A key k ps = some out) (hn : F.nonce (k + ps.length) = some n) :
    F.sealFrom A key k (ps ++ [p]) = some (out ++ F.frame A key n p) := by
  induction ps generalizing k out with
  | nil =>
      obtain rfl : [] = out := Option.some.inj h
      rw [List.length_nil, Nat.add_zero] at hn
      simp only [List.nil_append, sealFrom, hn, Option.bind_some, Option.map_some,
        List.append_nil]
  | cons q ps ih =>
      obtain ⟨m, hm, h⟩ := Option.bind_eq_some_iff.mp h
      obtain ⟨rest, hrest, rfl⟩ := Option.map_eq_some_iff.mp h
      have hn' : F.nonce (k + 1 + ps.length) = some n := by
        rw [List.length_cons] at hn
        rwa [Nat.add_assoc, Nat.add_comm 1]
      rw [List.cons_append, sealFrom, hm, Option.bind_some, ih hrest hn', Option.map_some,
        List.append_assoc]

variable (key)

/-- The first frame opens under its own number, and leaves the rest of the stream. -/
theorem openFrame_frame (hF : F.Lawful) (hA : A.Lawful F.tagLength) {k : Nat} {n p : Bytes}
    (hn : F.nonce k = some n) (hp : p.length ≤ F.maxLength) (rest : Bytes) :
    F.openFrame A key k (F.frame A key n p ++ rest) = some (p, rest) := by
  have hlen := hF.length_header p.length
  have hcipher := hA.length_encrypt key n p (F.header p.length)
  have htake : (F.frame A key n p ++ rest).take F.headerLength = F.header p.length := by
    rw [frame, List.append_assoc, ← hlen, List.take_left]
  have hdrop : (F.frame A key n p ++ rest).drop F.headerLength =
      A.encrypt key n p (F.header p.length) ++ rest := by
    rw [frame, List.append_assoc, ← hlen, List.drop_left]
  have hlong :
      ¬(A.encrypt key n p (F.header p.length) ++ rest).length < p.length + F.tagLength := by
    rw [List.length_append, hcipher]
    exact Nat.not_lt.mpr (Nat.le_add_right ..)
  rw [openFrame, htake, hF.payloadLength_header _ hp, Option.bind_some, hdrop, if_neg hlong, hn,
    Option.bind_some, ← hcipher, List.take_left, List.drop_left, hA.decrypt_encrypt,
    Option.map_some]

variable {key}

/-- The receiver recovers the payloads of a stream, given one unit of fuel for each. -/
theorem openFrom_of_sealFrom (hF : F.Lawful) (hA : A.Lawful F.tagLength) {fuel k : Nat}
    {ps : List Bytes} {out : Bytes} (h : F.sealFrom A key k ps = some out)
    (hps : ∀ p ∈ ps, p.length ≤ F.maxLength) (hfuel : ps.length ≤ fuel) :
    F.openFrom A key fuel k out = some ps := by
  induction ps generalizing fuel k out with
  | nil =>
      obtain rfl : [] = out := Option.some.inj h
      cases fuel <;> rfl
  | cons p ps ih =>
      obtain ⟨n, hn, h⟩ := Option.bind_eq_some_iff.mp h
      obtain ⟨rest, hrest, rfl⟩ := Option.map_eq_some_iff.mp h
      obtain ⟨fuel, rfl⟩ := Nat.exists_eq_add_of_le' (Nat.lt_of_lt_of_le (Nat.succ_pos _) hfuel)
      have hopen := openFrame_frame key hF hA hn (hps p (List.mem_cons_self ..)) rest
      have hne : F.frame A key n p ++ rest ≠ [] := by
        intro hnil
        have hnil := congrArg List.length hnil
        rw [frame, List.append_assoc, List.length_append, hF.length_header, List.length_nil] at hnil
        exact absurd hnil (Nat.ne_of_gt (Nat.add_pos_left hF.headerLength_pos _))
      obtain ⟨b, stream, hstream⟩ := List.exists_cons_of_ne_nil hne
      rw [hstream] at hopen ⊢
      have hrest := ih hrest (fun q hq ↦ hps q (List.mem_cons_of_mem _ hq))
        (Nat.le_of_succ_le_succ hfuel)
      rw [openFrom, hopen, Option.bind_some, hrest, Option.map_some]

/-- A stream is at least as long as the number of its frames. -/
theorem length_le_of_sealFrom (hF : F.Lawful) {k : Nat} {ps : List Bytes} {out : Bytes}
    (h : F.sealFrom A key k ps = some out) : ps.length ≤ out.length := by
  induction ps generalizing k out with
  | nil => exact Nat.zero_le _
  | cons p ps ih =>
      obtain ⟨n, -, h⟩ := Option.bind_eq_some_iff.mp h
      obtain ⟨rest, hrest, rfl⟩ := Option.map_eq_some_iff.mp h
      have hlen := ih hrest
      have hpos := hF.headerLength_pos
      simp only [frame, List.length_append, List.length_cons, hF.length_header]
      omega

/-- **The receiver recovers what was sent.** -/
theorem openAll_of_sealAll (hF : F.Lawful) (hA : A.Lawful F.tagLength) {ps : List Bytes}
    {out : Bytes} (h : F.sealAll A key ps = some out) (hps : ∀ p ∈ ps, p.length ≤ F.maxLength) :
    F.openAll A key out = some ps :=
  openFrom_of_sealFrom hF hA h hps (length_le_of_sealFrom hF h)

/-! ## Authenticity -/

/-- The payloads `ms` were sealed under the key, each under the nonce of its place and with
its own header, and nothing else decrypts under the key. -/
def SealedOnly (F : Framing) (A : Aead) (key : Bytes) (ms : List Bytes) : Prop :=
  ∀ nonce data ad p, A.decrypt key nonce data ad = some p →
    ∃ i, ms[i]? = some p ∧ F.nonce i = some nonce ∧ ad = F.header p.length ∧
      data = A.encrypt key nonce p ad

namespace SealedOnly

variable {ms : List Bytes}

/-- What decrypts under the nonce of a place is the payload of that place. -/
theorem getElem?_eq (h : F.SealedOnly A key ms) (hF : F.Lawful) {i : Nat} {n data ad p : Bytes}
    (hn : F.nonce i = some n) (hp : A.decrypt key n data ad = some p) : ms[i]? = some p := by
  obtain ⟨j, hj, hnonce, -, -⟩ := h n data ad p hp
  rwa [hF.nonce_injective hn hnonce]

/-- **Payloads accepted one after the other are a prefix of those that were sealed.** -/
theorem isPrefix (h : F.SealedOnly A key ms) (hF : F.Lawful) {ps : List Bytes}
    (hps : ∀ i p, ps[i]? = some p →
      ∃ n data ad, F.nonce i = some n ∧ A.decrypt key n data ad = some p) : ps <+: ms := by
  rw [List.prefix_iff_getElem?]
  intro i hi
  obtain ⟨n, data, ad, hn, hp⟩ := hps i _ (List.getElem?_eq_getElem hi)
  exact h.getElem?_eq hF hn hp

end SealedOnly

end Framing

end Lib
