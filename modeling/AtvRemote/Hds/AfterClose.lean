import AtvRemote.Hds.Steps

/-!
# Messages of a closed connection

`_run` looks at `_closed` before it reads a frame, and not again when it has read it.  A frame
that has arrived when the connection is closed is still handed out by `readexactly`, and its
message reaches `on_message`.

This is the only way: `on_message` is called on a closed connection exactly when the reader
goes on, behind the close, with a frame that holds an event or a request (`handled_iff`).
-/

namespace AtvRemote.Hds.HDSConnection

open Lib

variable {aead : Aead} {reprOf : Obj → String} {c c' : HDSConnection}

/-- The reader goes on with a frame that is there, and opens to an event or a request. -/
def OpensMessage (aead : Aead) (reprOf : Obj → String) (c : HDSConnection) (a : Label) : Prop :=
  a = .resume ∧ ∃ header length n payload m, c.run = .body header length ∧
    length + 16 ≤ c.buffer.length ∧ nonce c.inNonce = .ok n ∧
    aead.decrypt c.inKey n (c.buffer.take (length + 16)) header = some payload ∧
    decodeMessage reprOf payload = .ok m ∧ m.kind ≠ .response

/-- An event or a request is passed to `on_message`. -/
theorem handled_readBody {header encrypted n payload : Bytes} {m : Message}
    (hn : nonce c.inNonce = .ok n) (hopen : aead.decrypt c.inKey n encrypted header = some payload)
    (hm : decodeMessage reprOf payload = .ok m) (hkind : m.kind ≠ .response) :
    (c.readBody aead reprOf header encrypted).handled = c.handled ++ [c.closed] := by
  have hdecrypt : c.decryptFrame aead header encrypted = .ok payload := by
    rw [decryptFrame, hn, bind_ok, hopen]
  simp only [readBody, hdecrypt, receivePayload, hm, dispatch]

/-- `on_message` is called with what the frame opens to. -/
theorem OpensMessage.handled {a : Label} (h : c.step aead reprOf a = some c')
    (hopens : OpensMessage aead reprOf c a) : c'.handled = c.handled ++ [c.closed] := by
  obtain ⟨rfl, header, length, n, payload, m, hrun, hfits, hn, hopen, hm, hkind⟩ := hopens
  have hresume : c.resume aead reprOf = some (readBody aead reprOf
      { c with buffer := c.buffer.drop (length + 16) } header (c.buffer.take (length + 16))) := by
    rw [resume, hrun]
    show Option.map _ (c.readExactly (length + 16)) = _
    rw [readExactly, if_pos hfits]
    rfl
  obtain rfl := Option.some.inj (hresume.symm.trans h)
  exact handled_readBody (c := { c with buffer := c.buffer.drop (length + 16) }) hn hopen hm hkind

/-- **One step calls `on_message` once, when it opens such a frame, or not at all.** -/
theorem step_handled {a : Label} (h : c.step aead reprOf a = some c') :
    (c'.handled = c.handled ∧ ¬OpensMessage aead reprOf c a) ∨
      (c'.handled = c.handled ++ [c.closed] ∧ OpensMessage aead reprOf c a) := by
  by_cases hopens : OpensMessage aead reprOf c a
  · exact .inr ⟨hopens.handled h, hopens⟩
  · refine .inl ⟨?_, hopens⟩
    cases step_reader h with
    | idle h | greet _ _ _ _ h | ended _ _ h | next _ _ h | header _ _ _ h =>
        exact congrArg Reader.handled h
    | message header length n payload m run handled ha hrun hfits hn hopen hm hkind h =>
        rcases hkind with ⟨-, -, hhandled⟩ | ⟨hkind, -, -⟩
        · exact (congrArg Reader.handled h).trans hhandled
        · exact (hopens ⟨ha, header, length, n, payload, m, hrun, hfits, hn, hopen, hm,
            hkind⟩).elim

/-- **`on_message` is never called on a closed connection exactly when the reader of a closed
connection never goes on with a frame that opens to an event or a request.** -/
theorem handled_iff (aead : Aead) (reprOf : Obj → String)
    (hist : List (HDSConnection × Label)) (c : HDSConnection)
    (h : (connections aead reprOf).Run hist c) :
    (∀ closed ∈ c.handled, closed = false) ↔
      ∀ p ∈ hist, p.1.closed = true → ¬OpensMessage aead reprOf p.1 p.2 := by
  induction h with
  | init hinit =>
      obtain ⟨session, outKey, inKey, firstPayload, buffer, eof, rfl⟩ := hinit
      exact ⟨fun _ _ hp ↦ (List.not_mem_nil hp).elim, fun _ _ hc ↦ (List.not_mem_nil hc).elim⟩
  | @step hist c c' a _ hstep ih =>
      rw [List.forall_mem_append, ← ih, List.forall_mem_singleton]
      rcases step_handled hstep with ⟨heq, hnot⟩ | ⟨heq, hopens⟩
      · rw [heq]
        exact ⟨fun h ↦ ⟨h, fun _ ↦ hnot⟩, fun h ↦ h.1⟩
      · rw [heq, List.forall_mem_append, List.forall_mem_singleton]
        refine and_congr_right fun _ ↦ ⟨fun hopen hclosed _ ↦ ?_, fun hlate ↦ ?_⟩
        · rw [hopen] at hclosed
          cases hclosed
        · exact Bool.eq_false_iff.mpr fun hclosed ↦ hlate hclosed hopens

/-- The greeting is answered, and the event arrives in two pieces; the second is in the buffer,
and the reader has not gone on. -/
def eventArrives : List Label :=
  let whoami : Outgoing := ⟨.event, .ofString "targetControl", .ofString "whoami", none⟩
  let event := hdsFraming.frame plain [] [] (whoami.payload.toOption.getD [])
  [.resume, .acquire 0, .drained 0, .resume, .receive (event.take 4), .resume,
    .receive (event.drop 4)]

/-- The event of a connection that is closed reaches `on_message`. -/
theorem handled_of_close : ∃ c, (connections plain fun _ ↦ "").Reachable c ∧
    c.closed = true ∧ ¬∀ closed ∈ c.handled, closed = false := by
  have hrun : ((connections plain fun _ ↦ "").exec greeted (eventArrives ++ [.close, .resume])).map
      (fun c ↦ (c.closed, c.handled)) = some (true, [true]) := by decide +kernel
  obtain ⟨c, hc, hstate⟩ := Option.map_eq_some_iff.mp hrun
  obtain ⟨hclosed, hhandled⟩ := Prod.mk.inj hstate
  refine ⟨c, .exec (.init ⟨_, _, _, _, _, _, rfl⟩) hc, hclosed, fun hopen ↦ ?_⟩
  rw [hhandled] at hopen
  exact Bool.noConfusion (hopen true (List.mem_singleton_self _))

/-- Without the close, the same event is handled while the connection is open. -/
theorem handled_iff_open : ∃ c, (connections plain fun _ ↦ "").exec greeted
      (eventArrives ++ [.resume]) = some c ∧ c.handled = [false] ∧
    ((∀ closed ∈ c.handled, closed = false) ↔
      ∀ p ∈ (connections plain fun _ ↦ "").trace greeted (eventArrives ++ [.resume]),
        p.1.closed = true → ¬OpensMessage plain (fun _ ↦ "") p.1 p.2) := by
  have hrun : ((connections plain fun _ ↦ "").exec greeted (eventArrives ++ [.resume])).map
      handled = some [false] := by decide +kernel
  obtain ⟨c, hc, hhandled⟩ := Option.map_eq_some_iff.mp hrun
  have hgreeted : (connections plain fun _ ↦ "").Run [] greeted := .init ⟨_, _, _, _, _, _, rfl⟩
  exact ⟨c, hc, hhandled, handled_iff plain _ _ c (hgreeted.exec hc)⟩

end AtvRemote.Hds.HDSConnection
