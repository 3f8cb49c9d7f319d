import AtvRemote.Hds.Steps
import AtvRemote.Lib.Table

/-!
# The calls of a connection, one by one

A step of a connection moves one call, or the reader.  The reader moves no call but its own
answer to the greeting, which it begins once; whatever it does to the others is to their
futures.  Only a call that takes the lock writes its frame.
-/

namespace AtvRemote.Hds

open Lib

/-- The call that the reader waits for. -/
def RunPc.call? : RunPc → Option Nat
  | .replying i => some i
  | _ => none

namespace HDSConnection

/-- The call that a label moves. -/
def Label.call? : Label → Option Nat
  | .acquire i | .drained i | .answered i | .timeout i | .fail i _ => some i
  | _ => none

/-- The label begins a call. -/
def Label.begins : Label → Bool
  | .sendEvent _ _ _ | .sendResponse _ _ _ _ _ | .sendRequest _ _ _ _ _ => true
  | _ => false

/-- The answer to a greeting. -/
def reply (requestId : Int) : Outgoing :=
  ⟨.response requestId 0, .ofString hdsProtocolControl, .ofString hdsTopicHello, none⟩

/-- The calls are the same, but for their futures and for the place of one of them. -/
structure Stirs (moved : Option Nat) (c c' : HDSConnection) : Prop where
  length : c'.calls.length = c.calls.length
  kept : ∀ (i : Nat) (k : Call), c.calls[i]? = some k → ∃ k' : Call, c'.calls[i]? = some k' ∧
    k'.outgoing = k.outgoing ∧ k'.future.isSome = k.future.isSome ∧
    (moved ≠ some i → k'.pc = k.pc)
  written : c'.written = c.written

variable {aead : Aead} {reprOf : Obj → String} {c c' c'' : HDSConnection} {moved : Option Nat}

namespace Stirs

theorem of_calls (h : c'.calls = c.calls) (hw : c'.written = c.written) : Stirs moved c c' where
  length := by rw [h]
  kept i k hk := ⟨k, h ▸ hk, rfl, rfl, fun _ ↦ rfl⟩
  written := hw

theorem trans (h : Stirs moved c c') (h' : Stirs moved c' c'') : Stirs moved c c'' where
  length := h'.length.trans h.length
  kept i k hk := by
    obtain ⟨k', hk', hout, hfuture, hpc⟩ := h.kept i k hk
    obtain ⟨k'', hk'', hout', hfuture', hpc'⟩ := h'.kept i k' hk'
    exact ⟨k'', hk'', hout'.trans hout, hfuture'.trans hfuture,
      fun hne ↦ (hpc' hne).trans (hpc hne)⟩
  written := h'.written.trans h.written

/-- A call is changed, and keeps what it sends. -/
theorem modify (i : Nat) {f : Call → Call} (hout : ∀ k, (f k).outgoing = k.outgoing)
    (hfuture : ∀ k, (f k).future.isSome = k.future.isSome)
    (hpc : moved = some i ∨ ∀ k, (f k).pc = k.pc) (hcalls : c'.calls = c.calls.modify i f)
    (hw : c'.written = c.written) : Stirs moved c c' where
  length := by rw [hcalls, List.length_modify]
  kept j k hk := by
    refine ⟨_, hcalls ▸ getElem?_modify_eq_some.mpr ⟨k, hk, rfl⟩, ?_⟩
    split
    · next heq =>
      subst heq
      refine ⟨hout k, hfuture k, fun hne ↦ ?_⟩
      rcases hpc with hpc | hpc
      · exact (hne hpc).elim
      · exact hpc k
    · exact ⟨rfl, rfl, fun _ ↦ rfl⟩
  written := hw

theorem isSome_settle (k : Call) (f : Future) : (k.settle f).future.isSome = k.future.isSome := by
  rw [Call.settle]
  split
  · next h => rw [h]; rfl
  · rfl

/-- A future is settled. -/
theorem settle (i : Nat) (f : Future) (hcalls : c'.calls = c.calls.modify i (·.settle f))
    (hw : c'.written = c.written) : Stirs moved c c' :=
  modify i (fun k ↦ k.outgoing_settle f) (fun k ↦ isSome_settle k f)
    (.inr fun k ↦ k.pc_settle f) hcalls hw

theorem goto (c : HDSConnection) (i : Nat) (pc : CallPc) : Stirs (some i) c (c.goto i pc) :=
  modify (f := fun k ↦ { k with pc }) i (fun _ ↦ rfl) (fun _ ↦ rfl) (.inl rfl) rfl rfl

theorem endCall (c : HDSConnection) (i : Nat) (pc : CallPc) :
    Stirs (some i) c (c.endCall i pc) := by
  rw [HDSConnection.endCall]
  split
  · exact goto c i pc
  · next requestId _ =>
    have hsettled : Stirs (some i) c { c with
        responses := c.responses.erase requestId
        calls := c.calls.modify i (·.settle .cancelled) } := settle i .cancelled rfl rfl
    exact hsettled.trans (goto _ i pc)

theorem failCalls (responses : List Nat) (hcalls : c'.calls = failCalls c.calls responses)
    (hw : c'.written = c.written) : Stirs moved c c' := by
  rw [HDSConnection.failCalls] at hcalls
  induction responses generalizing c with
  | nil => exact of_calls hcalls hw
  | cons i responses ih =>
      have hsettled : Stirs moved c { c with
          calls := c.calls.modify i
            (·.settle (.failed (.connectionError "HDS connection closed"))) } :=
        settle i _ rfl rfl
      exact hsettled.trans (ih hcalls hw)

theorem close (c : HDSConnection) : Stirs moved c c.close := by
  rw [HDSConnection.close]
  split
  · exact of_calls rfl rfl
  · exact failCalls _ rfl rfl

theorem endRun (c : HDSConnection) : Stirs moved c c.endRun := by
  have hended : Stirs moved c { c with run := .ended } := of_calls rfl rfl
  exact hended.trans (close _)

theorem loop (c : HDSConnection) : Stirs moved c c.loop := by
  rw [HDSConnection.loop]
  split
  · exact endRun c
  · exact of_calls rfl rfl

theorem resolve (c : HDSConnection) (requestId status : Int) (message : Items) :
    Stirs moved c (c.resolve requestId status message) := by
  cases h : c.responses.get requestId with
  | some i =>
      refine settle i (.result status message) ?_ rfl
      rw [HDSConnection.resolve, h]
  | none =>
      refine of_calls ?_ rfl
      rw [HDSConnection.resolve, h]

theorem dispatch (c : HDSConnection) (m : Message) : Stirs moved c (c.dispatch m) := by
  have hmore : Stirs moved c { c with dispatched := c.dispatched ++ [m] } := of_calls rfl rfl
  rw [HDSConnection.dispatch]
  split
  · exact hmore.trans ((resolve _ _ _ _).trans (loop _))
  · exact of_calls rfl rfl

theorem readExactly {n : Nat} {r : Option Bytes} (h : c.readExactly n = some (r, c')) :
    Stirs moved c c' := by
  rw [HDSConnection.readExactly] at h
  split at h
  · obtain ⟨-, rfl⟩ := Prod.mk.inj (Option.some.inj h)
    exact of_calls rfl rfl
  · split at h
    · obtain ⟨-, rfl⟩ := Prod.mk.inj (Option.some.inj h)
      exact of_calls rfl rfl
    · cases h

theorem readHeader (c : HDSConnection) (header : Bytes) : Stirs moved c (c.readHeader header) := by
  rw [HDSConnection.readHeader]
  split
  · exact of_calls rfl rfl
  · exact endRun c

theorem readBody (c : HDSConnection) (header encrypted : Bytes) :
    Stirs moved c (c.readBody aead reprOf header encrypted) := by
  rw [HDSConnection.readBody]
  split
  · next payload _ =>
    have hread : Stirs moved c { c with inNonce := c.inNonce + 1 } := of_calls rfl rfl
    refine hread.trans ?_
    rw [receivePayload]
    split
    · exact dispatch _ _
    · exact endRun _
  · exact endRun c

end Stirs

/-! ## The reader -/

section Reader

variable (c)

@[simp] theorem run_close : c.close.run = c.run := by
  rw [close]
  split <;> rfl

@[simp] theorem run_endRun : c.endRun.run = .ended := run_close _

theorem call?_run_loop : c.loop.run.call? = none := by
  rw [loop]
  split
  · rw [run_endRun]
    rfl
  · rfl

theorem call?_run_dispatch (m : Message) : (c.dispatch m).run.call? = none := by
  rw [dispatch]
  split
  · exact call?_run_loop _
  · rfl

theorem call?_run_readHeader (header : Bytes) : (c.readHeader header).run.call? = none := by
  rw [readHeader]
  split
  · rfl
  · rw [run_endRun]
    rfl

theorem call?_run_readBody (header encrypted : Bytes) :
    (c.readBody aead reprOf header encrypted).run.call? = none := by
  rw [readBody]
  split
  · rw [receivePayload]
    split
    · exact call?_run_dispatch _ _
    · rw [run_endRun]
      rfl
  · rw [run_endRun]
    rfl

end Reader

/-- The reader begins its answer to the greeting. -/
structure Greets (c c' : HDSConnection) : Prop where
  calls : ∃ requestId, c'.calls = c.calls ++ [⟨reply requestId, none, .waiting⟩]
  run : c'.run = .replying c.calls.length
  written : c'.written = c.written

theorem greet_calls (c : HDSConnection) (m : Message) :
    Greets c (c.greet m) ∨ Stirs moved c (c.greet m) ∧ (c.greet m).run.call? = none := by
  rw [greet]
  split
  · exact .inl ⟨⟨_, rfl⟩, rfl, rfl⟩
  · refine .inr ⟨.endRun c, ?_⟩
    rw [run_endRun]
    rfl

/-- The reader goes on. -/
theorem resume_calls (h : c.resume aead reprOf = some c') :
    Greets c c' ∨ Stirs moved c c' ∧ c'.run.call? = none := by
  have hended : Stirs moved c c.endRun ∧ c.endRun.run.call? = none :=
    ⟨.endRun c, by rw [run_endRun]; rfl⟩
  rw [HDSConnection.resume] at h
  split at h
  · split at h <;> cases h
    · exact greet_calls c _
    · exact .inr hended
  · split at h
    · cases h
      exact .inr ⟨.loop c, call?_run_loop c⟩
    · cases h
      exact .inr hended
    · cases h
  · obtain ⟨⟨r, c₁⟩, hread, rfl⟩ := Option.map_eq_some_iff.mp h
    right
    cases r with
    | some header =>
        exact ⟨(Stirs.readExactly hread).trans (.readHeader c₁ header), call?_run_readHeader c₁ _⟩
    | none =>
        exact ⟨(Stirs.readExactly hread).trans (.endRun c₁), by rw [run_endRun]; rfl⟩
  · obtain ⟨⟨r, c₁⟩, hread, rfl⟩ := Option.map_eq_some_iff.mp h
    right
    cases r with
    | some encrypted =>
        exact ⟨(Stirs.readExactly hread).trans (.readBody c₁ _ encrypted),
          call?_run_readBody c₁ _ encrypted⟩
    | none =>
        exact ⟨(Stirs.readExactly hread).trans (.endRun c₁), by rw [run_endRun]; rfl⟩
  · cases h
  · cases h

/-- The reader is cancelled, or raises. -/
theorem failRun_calls {e : PyErr} (h : c.failRun e = some c') :
    Stirs c.run.call? c c' ∧ c'.run.call? = none := by
  have hended : ∀ c₁ : HDSConnection, c₁.endRun.run.call? = none := by
    intro c₁
    rw [run_endRun]
    rfl
  rw [HDSConnection.failRun] at h
  split at h
  · cases h
    exact ⟨.of_calls rfl rfl, rfl⟩
  · cases h
    exact ⟨.endRun c, hended c⟩
  · cases h
    exact ⟨.endRun c, hended c⟩
  · cases h
    exact ⟨.endRun c, hended c⟩
  · next i hrun =>
    have hcall : c.run.call? = some i := by rw [hrun]; rfl
    rw [hcall]
    split at h
    · cases h
      exact ⟨(Stirs.endCall c i _).trans (.endRun _), hended _⟩
    · cases h
      have hreleased : Stirs (some i) c c.release := .of_calls rfl rfl
      exact ⟨hreleased.trans ((Stirs.endCall c.release i _).trans (.endRun _)), hended _⟩
    · cases h
  · cases h

/-- **The reader begins its answer to the greeting, or no call, and moves only that one.** -/
theorem step_reader_calls {a : Label} (h : c.step aead reprOf a = some c') (ha : a.call? = none)
    (hbegins : a.begins = false) :
    Greets c c' ∨ Stirs c.run.call? c c' ∧ (c'.run.call? = none ∨ c'.run = c.run) := by
  cases a with
  | sendEvent | sendResponse | sendRequest => cases hbegins
  | acquire | drained | answered | timeout | fail => cases ha
  | receive data =>
      rw [step] at h
      split at h
      · cases h
      · cases h
        exact .inr ⟨.of_calls rfl rfl, .inr rfl⟩
  | receiveEof =>
      cases h
      exact .inr ⟨.of_calls rfl rfl, .inr rfl⟩
  | resume =>
      rcases resume_calls h with hgreets | ⟨hstirs, hrun⟩
      · exact .inl hgreets
      · exact .inr ⟨hstirs, .inl hrun⟩
  | handled =>
      rw [step] at h
      split at h
      · cases h
        exact .inr ⟨.loop c, .inl (call?_run_loop c)⟩
      · cases h
  | failRun e =>
      obtain ⟨hstirs, hrun⟩ := failRun_calls h
      exact .inr ⟨hstirs, .inl hrun⟩
  | close =>
      cases h
      exact .inr ⟨.close c, .inr (run_close c)⟩

/-! ## A call -/

/-- Where a call gets without writing its frame. -/
inductive Onward (k : Call) : CallPc → Prop
  | raised (e : PyErr) : k.pc.ended = false → Onward k (.raised e)
  | sent : k.pc = .draining → k.future.isSome = false → Onward k (.returned none)
  | awaits : k.pc = .draining → k.future.isSome = true → Onward k .awaiting
  | abandons (e : PyErr) : k.pc = .awaiting → Onward k (.abandoned e)
  | answered (status : Int) (message : Items) : k.pc = .awaiting →
      k.future = some (.result status message) → Onward k (.returned (some (status, message)))

theorem Onward.live {k : Call} {pc : CallPc} (h : Onward k pc) : k.pc.ended = false := by
  cases h with
  | raised _ hlive => exact hlive
  | sent hpc => rw [hpc]; rfl
  | awaits hpc => rw [hpc]; rfl
  | abandons _ hpc => rw [hpc]; rfl
  | answered _ _ hpc => rw [hpc]; rfl

/-- What a step does that moves the call with this number. -/
inductive Moves (c : HDSConnection) (i : Nat) (k : Call) (c' : HDSConnection) : Prop
  /-- It has got the lock, and writes its frame. -/
  | writes (hpc : k.pc = .waiting) (hopen : c.closed = false)
      (hcalls : c'.calls = c.calls.set i { k with pc := .draining })
      (hwritten : c'.written = c.written ++ [i])
  | goes (k' : Call) (hstirs : Stirs (some i) c c') (hk' : c'.calls[i]? = some k')
      (honward : Onward k k'.pc)

theorem Moves.live {i : Nat} {k : Call} (h : Moves c i k c') : k.pc.ended = false := by
  cases h with
  | writes hpc => rw [hpc]; rfl
  | goes k' _ _ honward => exact honward.live

theorem Moves.written {i : Nat} {k : Call} (h : Moves c i k c') :
    c'.written = c.written ++ [i] ∨ c'.written = c.written := by
  cases h with
  | writes _ _ _ hwritten => exact .inl hwritten
  | goes k' hstirs => exact .inr hstirs.written

/-- A step of a call moves no other. -/
theorem Moves.stirs {i : Nat} {k : Call} (h : Moves c i k c') (hk : c.calls[i]? = some k) :
    Stirs (some i) c { c' with written := c.written } := by
  cases h with
  | writes _ _ hcalls _ =>
      have hset : c.calls.modify i (fun k ↦ { k with pc := .draining }) =
          c.calls.set i { k with pc := .draining } := modify_of_getElem? hk
      refine .modify (f := fun k ↦ { k with pc := .draining }) i (fun _ ↦ rfl) (fun _ ↦ rfl)
        (.inl rfl) ?_ rfl
      exact hcalls.trans hset.symm
  | goes k' hstirs _ _ => exact ⟨hstirs.length, hstirs.kept, rfl⟩

theorem getElem?_goto {i : Nat} {k : Call} (hk : c.calls[i]? = some k) (pc : CallPc) :
    (c.goto i pc).calls[i]? = some { k with pc } :=
  getElem?_modify_eq_some.mpr ⟨k, hk, (if_pos rfl).symm⟩

theorem moves_goto {i : Nat} {k : Call} (hk : c.calls[i]? = some k) (b : HDSConnection)
    (hcalls : b.calls = c.calls) (hw : b.written = c.written) {pc : CallPc} (h : Onward k pc) :
    Moves c i k (b.goto i pc) := by
  have hsame : Stirs (some i) c b := .of_calls hcalls hw
  exact .goes _ (hsame.trans (.goto b i pc)) (getElem?_goto (hcalls ▸ hk) pc) h

theorem moves_endCall {i : Nat} {k : Call} (hk : c.calls[i]? = some k) (b : HDSConnection)
    (hcalls : b.calls = c.calls) (hw : b.written = c.written) {pc : CallPc} (h : Onward k pc) :
    Moves c i k (b.endCall i pc) := by
  have hsame : Stirs (some i) c b := .of_calls hcalls hw
  have hk' : ∃ k', (b.endCall i pc).calls[i]? = some k' ∧ k'.pc = pc := by
    rw [endCall]
    split
    · exact ⟨_, getElem?_goto (hcalls ▸ hk) pc, rfl⟩
    · refine ⟨_, getElem?_goto (k := k.settle .cancelled) ?_ pc, rfl⟩
      show (b.calls.modify i (·.settle .cancelled))[i]? = _
      rw [hcalls]
      exact getElem?_modify_eq_some.mpr ⟨k, hk, (if_pos rfl).symm⟩
  obtain ⟨k', hk', rfl⟩ := hk'
  exact .goes k' (hsame.trans (.endCall b i _)) hk' h

theorem run_endCall (c : HDSConnection) (i : Nat) (pc : CallPc) : (c.endCall i pc).run = c.run :=
  congrArg Reader.run (reader_endCall c i pc)

/-- Where a call can get, and what stays as it is. -/
theorem moves_acquired {i : Nat} {k : Call} (hk : c.calls[i]? = some k) (hpc : k.pc = .waiting) :
    Moves c i k (c.acquired aead i k.outgoing) ∧ (c.acquired aead i k.outgoing).run = c.run ∧
      (c.acquired aead i k.outgoing).closed = c.closed := by
  rw [acquired]
  split
  · next payload n hframe =>
    have hopen : c.closed = false := by
      rw [prepareFrame] at hframe
      split at hframe
      · cases hframe
      · next hopen => exact Bool.eq_false_iff.mpr hopen
    exact ⟨.writes hpc hopen (modify_of_getElem? hk) rfl, rfl, rfl⟩
  · next e _ =>
    exact ⟨moves_endCall hk c rfl rfl (.raised e (by rw [hpc]; rfl)), run_endCall c i _,
      closed_endCall c i _⟩

theorem moves_abandon {i : Nat} {k : Call} (hk : c.calls[i]? = some k) (hpc : k.pc = .awaiting)
    (e : PyErr) : Moves c i k (c.abandon i e) := by
  have hsettled : Stirs (some i) c { c with calls := c.calls.modify i (·.settle .cancelled) } :=
    .settle i .cancelled rfl rfl
  have hk' : ({ c with calls := c.calls.modify i (·.settle .cancelled) } :
      HDSConnection).calls[i]? = some (k.settle .cancelled) := getElem?_modify_eq_some.mpr ⟨k, hk, (if_pos rfl).symm⟩
  exact .goes _ (hsettled.trans (.goto _ i _)) (getElem?_goto hk' _) (.abandons e hpc)

/-- **What a step of a call does.** -/
theorem step_moves {a : Label} {i : Nat} (h : c.step aead reprOf a = some c')
    (ha : a.call? = some i) :
    ∃ k, c.calls[i]? = some k ∧ Moves c i k c' ∧ c'.run = c.run ∧ c'.closed = c.closed := by
  cases a with
  | acquire j =>
      cases ha
      simp only [step] at h
      split at h
      · next o future hk =>
        split at h
        · cases h
          exact ⟨_, hk, moves_acquired hk rfl⟩
        · cases h
      · cases h
  | drained j =>
      cases ha
      simp only [step] at h
      split at h
      · next o future hk =>
        cases h
        rw [sent]
        split
        · next hfuture =>
          exact ⟨_, hk, moves_goto hk c.release rfl rfl (.awaits rfl hfuture), rfl, rfl⟩
        · next hfuture =>
          exact ⟨_, hk, moves_goto hk c.release rfl rfl
            (.sent rfl (Bool.eq_false_iff.mpr hfuture)), rfl, rfl⟩
      · cases h
  | answered j =>
      cases ha
      obtain ⟨k, hk, h⟩ := Option.bind_eq_some_iff.mp h
      refine ⟨k, hk, ?_⟩
      rw [finishWait] at h
      split at h
      · next hpc =>
        obtain ⟨pc, hout, rfl⟩ := Option.map_eq_some_iff.mp h
        obtain ⟨f, hf, hout⟩ := Option.bind_eq_some_iff.mp hout
        refine ⟨moves_endCall hk c rfl rfl ?_, run_endCall c i pc, closed_endCall c i pc⟩
        have hlive : k.pc.ended = false := by rw [hpc]; rfl
        cases f with
        | pending => cases hout
        | result status message =>
            cases hout
            exact .answered status message hpc hf
        | failed e =>
            cases hout
            exact .raised e hlive
        | cancelled =>
            cases hout
            exact .raised _ hlive
      · next e hpc =>
        cases h
        exact ⟨moves_endCall hk c rfl rfl (.raised e (by rw [hpc]; rfl)), run_endCall c i _,
          closed_endCall c i _⟩
      · cases h
  | timeout j =>
      cases ha
      simp only [step] at h
      split at h
      · next o future hk =>
        cases h
        exact ⟨_, hk, moves_abandon hk rfl _, rfl, rfl⟩
      · cases h
  | fail j e =>
      cases ha
      obtain ⟨pc, hpc, h⟩ := Option.bind_eq_some_iff.mp h
      obtain ⟨k, hk, rfl⟩ := Option.map_eq_some_iff.mp hpc
      refine ⟨k, hk, ?_⟩
      cases hpc : k.pc with
      | waiting =>
          rw [hpc, failCall] at h
          split at h
          · cases h
            exact ⟨moves_endCall hk c rfl rfl (.raised e (by rw [hpc]; rfl)), run_endCall c i _,
              closed_endCall c i _⟩
          · cases h
      | draining =>
          rw [hpc, failCall] at h
          cases h
          exact ⟨moves_endCall hk c.release rfl rfl
            (.raised e (by rw [hpc]; rfl)), run_endCall c.release i _, closed_endCall c.release i _⟩
      | awaiting =>
          rw [hpc, failCall] at h
          split at h
          · cases h
            exact ⟨moves_abandon hk hpc e, rfl, rfl⟩
          · cases h
      | abandoned | returned | raised =>
          rw [hpc] at h
          cases h
  | _ => cases ha

end HDSConnection

end AtvRemote.Hds
