import AtvRemote.Hds.Server
import Mathlib.Logic.Relation

/-!
# What one step of a connection can do

A step of `HDSConnection` is seen from two sides.

* From the side of the calls it is a short sequence of `CallStep`s: a call begins, writes its
  frame, waits, ends; a response comes; the connection is closed.  Whatever else the reader
  does is one `CallStep` that leaves all of these alone.
* From the side of the reader it is at most one `ReaderStep`, or it leaves the reader alone.

`step_calls` and `step_reader` list the cases once; the laws about connections are derived
from them.
-/

namespace AtvRemote.Hds

open Lib Relation

namespace Call

variable (k : Call) (f : Future)

@[simp] theorem outgoing_settle : (k.settle f).outgoing = k.outgoing := by
  rw [settle]
  split <;> rfl

@[simp] theorem pc_settle : (k.settle f).pc = k.pc := by
  rw [settle]
  split <;> rfl

@[simp] theorem requestId_settle : (k.settle f).requestId = k.requestId := by
  rw [requestId, requestId, outgoing_settle]

/-- A future that is not done takes what it is given. -/
theorem settle_of_pending {k : Call} (h : k.future = some .pending) :
    k.settle f = { k with future := some f } := by
  rw [settle, h]

/-- A future that is done stays as it is. -/
theorem settle_of_done {k : Call} (h : k.future ≠ some .pending) : k.settle f = k := by
  rw [settle]
  split
  · next heq => exact (h heq).elim
  · rfl

/-- A future takes what it is given once. -/
theorem settle_settle : (k.settle f).settle f = k.settle f := by
  by_cases h : k.future = some .pending
  · rw [settle_of_pending f h, settle]
    split
    · next heq => rw [Option.some.inj heq]
    · rfl
  · rw [settle_of_done f h, settle_of_done f h]

end Call

namespace HDSConnection

/-! ## The calls -/

/-- What happens to the calls of a connection; `draw` says which ids a request may draw. -/
inductive CallStep (aead : Aead) (draw : HDSConnection → Nat → Prop) (c : HDSConnection) :
    HDSConnection → Prop
  /-- Only the reader moves. -/
  | reader (run : RunPc) (buffer : Bytes) (eof : Bool) (inNonce : Nat) (hello : Option Message)
      (dispatched : List Message) (handled : List Bool) :
      CallStep aead draw c { c with run, buffer, eof, inNonce, hello, dispatched, handled }
  | send (o : Outgoing) : (∀ requestId, o.kind ≠ .request requestId) →
      CallStep aead draw c (c.send o)
  | request (requestId : Nat) (protocol topic : PyStr) (message : Option Items) :
      c.responses.get requestId = none → draw c requestId →
      CallStep aead draw c (c.request requestId protocol topic message)
  | write (i : Nat) (k : Call) (payload n : Bytes) :
      c.calls[i]? = some k → k.pc = .waiting → c.sendLock = none → c.closed = false →
      k.outgoing.payload = .ok payload → nonce c.outNonce = .ok n →
      CallStep aead draw c (c.writeFrame aead i payload n)
  /-- `_send` raises before the frame is written. -/
  | refused (i : Nat) (k : Call) (e : PyErr) :
      c.calls[i]? = some k → k.pc = .waiting → c.prepareFrame k.outgoing = .error e →
      CallStep aead draw c (c.endCall i (.raised e))
  | sent (i : Nat) (k : Call) :
      c.calls[i]? = some k → k.pc = .draining → CallStep aead draw c (c.sent i k)
  | abandon (i : Nat) (k : Call) (e : PyErr) :
      c.calls[i]? = some k → k.pc = .awaiting → (∀ text, e ≠ .connectionError text) →
      CallStep aead draw c (c.abandon i e)
  /-- A call is cancelled before it has the lock. -/
  | cancelled (i : Nat) (k : Call) (e : PyErr) :
      c.calls[i]? = some k → k.pc = .waiting → CallStep aead draw c (c.endCall i (.raised e))
  /-- `writer.drain()` raises. -/
  | drainRaised (i : Nat) (k : Call) (e : PyErr) :
      c.calls[i]? = some k → k.pc = .draining →
      CallStep aead draw c (c.release.endCall i (.raised e))
  | answered (i : Nat) (k : Call) (f : Future) (pc : CallPc) :
      c.calls[i]? = some k → k.pc = .awaiting → k.future = some f → outcome f = some pc →
      CallStep aead draw c (c.endCall i pc)
  | gaveUp (i : Nat) (k : Call) (e : PyErr) :
      c.calls[i]? = some k → k.pc = .abandoned e → CallStep aead draw c (c.endCall i (.raised e))
  | resolve (requestId status : Int) (message : Items) :
      CallStep aead draw c (c.resolve requestId status message)
  | close : CallStep aead draw c c.close

variable {aead : Aead} {draw : HDSConnection → Nat → Prop} {reprOf : Obj → String}
  {c c' : HDSConnection}

namespace CallStep

/-- The reader moves on. -/
theorem setRun (c : HDSConnection) (run : RunPc) : CallStep aead draw c { c with run } :=
  .reader run c.buffer c.eof c.inNonce c.hello c.dispatched c.handled

/-- The reader ends. -/
theorem endRun (c : HDSConnection) : ReflTransGen (CallStep aead draw) c c.endRun :=
  .head (setRun c .ended) (.single .close)

theorem loop (c : HDSConnection) : ReflTransGen (CallStep aead draw) c c.loop := by
  rw [HDSConnection.loop]
  split
  · exact endRun c
  · exact .single (setRun c .header)

theorem dispatch (c : HDSConnection) (m : Message) :
    ReflTransGen (CallStep aead draw) c (c.dispatch m) := by
  have hmore : CallStep aead draw c { c with dispatched := c.dispatched ++ [m] } :=
    .reader c.run c.buffer c.eof c.inNonce c.hello _ c.handled
  simp only [HDSConnection.dispatch]
  split
  · exact .head hmore (.head (.resolve _ _ _) (loop _))
  · exact .head hmore (.single (.reader _ _ _ _ _ _ _))

theorem greet (c : HDSConnection) (m : Message) :
    ReflTransGen (CallStep aead draw) c (c.greet m) := by
  rw [HDSConnection.greet]
  split
  · exact .head (.reader _ c.buffer c.eof c.inNonce _ c.dispatched c.handled)
      (.single (.send _ nofun))
  · exact endRun c

/-- What `readexactly` leaves is the connection with other bytes to read. -/
theorem readExactly {n : Nat} {r : Option Bytes} (h : c.readExactly n = some (r, c')) :
    CallStep aead draw c c' := by
  rw [HDSConnection.readExactly] at h
  split at h
  · obtain ⟨-, rfl⟩ := Prod.mk.inj (Option.some.inj h)
    exact .reader c.run _ c.eof c.inNonce c.hello c.dispatched c.handled
  · split at h
    · obtain ⟨-, rfl⟩ := Prod.mk.inj (Option.some.inj h)
      exact .reader c.run _ c.eof c.inNonce c.hello c.dispatched c.handled
    · cases h

theorem readHeader (c : HDSConnection) (header : Bytes) :
    ReflTransGen (CallStep aead draw) c (c.readHeader header) := by
  rw [HDSConnection.readHeader]
  split
  · exact .single (setRun c _)
  · exact endRun c

theorem readBody (c : HDSConnection) (header encrypted : Bytes) :
    ReflTransGen (CallStep aead draw) c (c.readBody aead reprOf header encrypted) := by
  rw [HDSConnection.readBody]
  split
  · refine .head (.reader c.run c.buffer c.eof (c.inNonce + 1) c.hello c.dispatched c.handled) ?_
    rw [receivePayload]
    split
    · exact dispatch _ _
    · exact endRun _
  · exact endRun c

theorem resume (h : c.resume aead reprOf = some c') : ReflTransGen (CallStep aead draw) c c' := by
  rw [HDSConnection.resume] at h
  split at h
  · split at h <;> cases h
    · exact greet c _
    · exact endRun c
  · split at h
    · cases h
      exact loop c
    · cases h
      exact endRun c
    · cases h
  · obtain ⟨⟨r, c₁⟩, hread, rfl⟩ := Option.map_eq_some_iff.mp h
    refine .head (readExactly hread) ?_
    cases r with
    | some header => exact readHeader c₁ header
    | none => exact endRun c₁
  · obtain ⟨⟨r, c₁⟩, hread, rfl⟩ := Option.map_eq_some_iff.mp h
    refine .head (readExactly hread) ?_
    cases r with
    | some encrypted => exact readBody c₁ _ encrypted
    | none => exact endRun c₁
  · cases h
  · cases h

theorem failRun {e : PyErr} (h : c.failRun e = some c') :
    ReflTransGen (CallStep aead draw) c c' := by
  rw [HDSConnection.failRun] at h
  split at h
  · cases h
    exact .single (setRun c _)
  · cases h
    exact endRun c
  · cases h
    exact endRun c
  · cases h
    exact endRun c
  · next i _ =>
    cases hk : c.calls[i]? with
    | none =>
        rw [hk] at h
        cases h
    | some k =>
        rw [hk, Option.map_some] at h
        split at h
        · next hpc =>
          cases h
          exact .head (.cancelled i k e hk (Option.some.inj hpc)) (endRun _)
        · next hpc =>
          cases h
          exact .head (.drainRaised i k e hk (Option.some.inj hpc)) (endRun _)
        · cases h
  · cases h

theorem acquired {i : Nat} {k : Call} (hk : c.calls[i]? = some k) (hpc : k.pc = .waiting)
    (hlock : c.sendLock = none) : CallStep aead draw c (c.acquired aead i k.outgoing) := by
  rw [HDSConnection.acquired]
  split
  · next payload n hframe =>
    rw [prepareFrame] at hframe
    split at hframe
    · cases hframe
    · next hopen =>
      obtain ⟨payload', hpayload, hframe⟩ := bind_eq_ok.mp hframe
      obtain ⟨n', hn, hframe⟩ := bind_eq_ok.mp hframe
      obtain ⟨rfl, rfl⟩ := Prod.mk.inj (Except.ok.inj hframe)
      exact .write i k _ _ hk hpc hlock (Bool.eq_false_iff.mpr hopen) hpayload hn
  · next e hframe => exact .refused i k e hk hpc hframe

theorem failCall {i : Nat} {e : PyErr} {k : Call} (hk : c.calls[i]? = some k)
    (h : c.failCall i e k.pc = some c') : CallStep aead draw c c' := by
  cases hpc : k.pc with
  | waiting =>
      rw [hpc, HDSConnection.failCall] at h
      split at h
      · cases h
        exact .cancelled i k e hk hpc
      · cases h
  | draining =>
      rw [hpc] at h
      cases h
      exact .drainRaised i k e hk hpc
  | awaiting =>
      rw [hpc, HDSConnection.failCall] at h
      split at h
      · next hcancelled =>
        cases h
        exact .abandon i k e hk hpc (by rw [hcancelled]; nofun)
      · cases h
  | abandoned | returned | raised =>
      rw [hpc] at h
      cases h

theorem finishWait {i : Nat} {k : Call} (hk : c.calls[i]? = some k)
    (h : c.finishWait i k = some c') : CallStep aead draw c c' := by
  rw [HDSConnection.finishWait] at h
  split at h
  · next hpc =>
    obtain ⟨pc, hout, rfl⟩ := Option.map_eq_some_iff.mp h
    obtain ⟨f, hf, hout⟩ := Option.bind_eq_some_iff.mp hout
    exact .answered i k f pc hk hpc hf hout
  · next e hpc =>
    cases h
    exact .gaveUp i k e hk hpc
  · cases h

end CallStep

/-- **Every step is a sequence of steps of the calls.** -/
theorem step_calls {a : Label}
    (hdraw : ∀ protocol topic message requestId,
      a = .sendRequest protocol topic message true requestId → draw c requestId)
    (h : c.step aead reprOf a = some c') :
    ReflTransGen (CallStep aead draw) c c' := by
  cases a with
  | sendEvent protocol topic message =>
      cases h
      exact .single (.send _ (by rintro _ ⟨⟩))
  | sendResponse protocol topic requestId status message =>
      cases h
      exact .single (.send _ (by rintro _ ⟨⟩))
  | sendRequest protocol topic message timeoutPositive requestId =>
      cases timeoutPositive with
      | false =>
          cases h
          exact .refl
      | true =>
          rw [step, if_neg Bool.false_ne_true.symm] at h
          split at h
          · next hfresh =>
            cases h
            exact .single (.request requestId protocol topic message hfresh.2
              (hdraw protocol topic message requestId rfl))
          · cases h
  | acquire i =>
      simp only [step] at h
      split at h
      · next o future hk =>
        split at h
        · next hlock =>
          cases h
          exact .single (.acquired (k := ⟨o, future, .waiting⟩) hk rfl hlock)
        · cases h
      · cases h
  | drained i =>
      simp only [step] at h
      split at h
      · next o future hk =>
        cases h
        exact .single (.sent i _ hk rfl)
      · cases h
  | answered i =>
      obtain ⟨k, hk, h⟩ := Option.bind_eq_some_iff.mp h
      exact .single (.finishWait hk h)
  | timeout i =>
      simp only [step] at h
      split at h
      · next o future hk =>
        cases h
        exact .single (.abandon i _ _ hk rfl (by rintro _ ⟨⟩))
      · cases h
  | fail i e =>
      obtain ⟨pc, hpc, h⟩ := Option.bind_eq_some_iff.mp h
      obtain ⟨k, hk, rfl⟩ := Option.map_eq_some_iff.mp hpc
      exact .single (.failCall hk h)
  | receive data =>
      simp only [step] at h
      split at h
      · cases h
      · cases h
        exact .single (.reader c.run _ c.eof c.inNonce c.hello c.dispatched c.handled)
  | receiveEof =>
      cases h
      exact .single (.reader c.run c.buffer _ c.inNonce c.hello c.dispatched c.handled)
  | resume => exact CallStep.resume h
  | handled =>
      simp only [step] at h
      split at h
      · cases h
        exact CallStep.loop c
      · cases h
  | failRun e => exact CallStep.failRun h
  | close =>
      cases h
      exact .single .close

/-- What every step of the calls preserves, every step whose request draws such an id
preserves. -/
theorem step_invariant_of_draw {P : HDSConnection → Prop}
    (hP : ∀ c c' : HDSConnection, CallStep aead draw c c' → P c → P c') {a : Label}
    (hdraw : ∀ protocol topic message requestId,
      a = .sendRequest protocol topic message true requestId → draw c requestId)
    (h : c.step aead reprOf a = some c') (hc : P c) : P c' := by
  have hsteps := step_calls hdraw h
  clear h hdraw
  induction hsteps with
  | refl => exact hc
  | tail _ hstep ih => exact hP _ _ hstep ih

/-- What every step of the calls preserves, every step preserves. -/
theorem step_invariant {P : HDSConnection → Prop}
    (hP : ∀ c c' : HDSConnection, CallStep aead (fun _ _ ↦ True) c c' → P c → P c') {a : Label}
    (h : c.step aead reprOf a = some c') (hc : P c) : P c' :=
  step_invariant_of_draw hP (fun _ _ _ _ _ ↦ trivial) h hc

/-- What a connection is made with stays as it is. -/
def Fixed (c c' : HDSConnection) : Prop :=
  c'.session = c.session ∧ c'.outKey = c.outKey ∧ c'.inKey = c.inKey ∧
    c'.firstPayload = c.firstPayload

theorem fixed_endCall (c : HDSConnection) (i : Nat) (pc : CallPc) : Fixed c (c.endCall i pc) := by
  rw [endCall]
  split <;> exact ⟨rfl, rfl, rfl, rfl⟩

theorem CallStep.fixed (h : CallStep aead draw c c') : Fixed c c' := by
  cases h with
  | sent i k hk hpc =>
      rw [HDSConnection.sent]
      split <;> exact ⟨rfl, rfl, rfl, rfl⟩
  | refused | cancelled | answered | gaveUp => exact fixed_endCall ..
  | drainRaised i k e => exact fixed_endCall c.release i (.raised e)
  | close =>
      rw [HDSConnection.close]
      split <;> exact ⟨rfl, rfl, rfl, rfl⟩
  | _ => exact ⟨rfl, rfl, rfl, rfl⟩

theorem step_fixed {a : Label} (h : c.step aead reprOf a = some c') : Fixed c c' := by
  refine step_invariant (P := Fixed c) (fun c₁ c₂ hstep h ↦ ?_) h ⟨rfl, rfl, rfl, rfl⟩
  obtain ⟨hsession, hout, hin, hfirst⟩ := hstep.fixed
  exact ⟨hsession.trans h.1, hout.trans h.2.1, hin.trans h.2.2.1, hfirst.trans h.2.2.2⟩

/-- A closed connection stays closed. -/
theorem CallStep.closed (h : CallStep aead draw c c') (hc : c.closed = true) :
    c'.closed = true := by
  have hend : ∀ (c : HDSConnection) (i : Nat) (pc : CallPc), c.closed = true →
      (c.endCall i pc).closed = true := by
    intro c i pc hc
    rw [endCall]
    split <;> exact hc
  cases h with
  | sent i k =>
      rw [HDSConnection.sent]
      split <;> exact hc
  | refused | cancelled | answered | gaveUp => exact hend c _ _ hc
  | drainRaised i k e => exact hend c.release i (.raised e) hc
  | close =>
      rw [HDSConnection.close, if_pos hc]
      exact hc
  | _ => exact hc

theorem step_closed {a : Label} (h : c.step aead reprOf a = some c') (hc : c.closed = true) :
    c'.closed = true :=
  step_invariant (P := fun c ↦ c.closed = true) (fun _ _ ↦ CallStep.closed) h hc

/-! ## The reader -/

/-- What the reader task has. -/
structure Reader where
  inKey : Bytes
  firstPayload : Bytes
  inNonce : Nat
  run : RunPc
  hello : Option Message
  dispatched : List Message
  handled : List Bool

/-- What the reader task of a connection has. -/
def reader (c : HDSConnection) : Reader where
  inKey := c.inKey
  firstPayload := c.firstPayload
  inNonce := c.inNonce
  run := c.run
  hello := c.hello
  dispatched := c.dispatched
  handled := c.handled

section

variable (c : HDSConnection) (i : Nat)

@[simp] theorem reader_endCall (pc : CallPc) : (c.endCall i pc).reader = c.reader := by
  rw [endCall]
  split <;> rfl

@[simp] theorem reader_close : c.close.reader = c.reader := by
  rw [close]
  split <;> rfl

@[simp] theorem reader_sent (k : Call) : (c.sent i k).reader = c.reader := by
  rw [sent]
  split <;> rfl

@[simp] theorem reader_acquired (o : Outgoing) : (c.acquired aead i o).reader = c.reader := by
  rw [acquired]
  split
  · rfl
  · exact reader_endCall ..

@[simp] theorem reader_endRun : c.endRun.reader = { c.reader with run := .ended } :=
  reader_close _

theorem reader_loop : c.loop.reader =
    { c.reader with run := if c.closed then .ended else .header } := by
  rw [loop]
  split
  · exact reader_endRun c
  · rfl

/-- Only `close` closes a connection. -/
@[simp] theorem closed_endCall (pc : CallPc) : (c.endCall i pc).closed = c.closed := by
  rw [endCall]
  split <;> rfl

@[simp] theorem closed_close : c.close.closed = true := by
  rw [close]
  split
  · assumption
  · rfl

end

/-- What happens to the reader in the step of a label. -/
inductive ReaderStep (aead : Aead) (reprOf : Obj → String) (c : HDSConnection) (a : Label)
    (c' : HDSConnection) : Prop
  | idle : c'.reader = c.reader → ReaderStep aead reprOf c a c'
  /-- The greeting is decoded, and answered. -/
  | greet (m : Message) :
      c.run = .start → decodeMessage reprOf c.firstPayload = .ok m → m.isHello = true →
      c'.reader = { c.reader with hello := some m, run := .replying c.calls.length } →
      ReaderStep aead reprOf c a c'
  | ended (inNonce : Nat) :
      c.run ≠ .ended → c'.reader = { c.reader with run := .ended, inNonce } →
      ReaderStep aead reprOf c a c'
  /-- The reader waits for the next frame: the greeting is answered, or `on_message` has
  returned. -/
  | next :
      c.closed = false → (∃ i, c.run = .replying i) ∨ (∃ m, c.run = .handling m) →
      c'.reader = { c.reader with run := .header } → ReaderStep aead reprOf c a c'
  | header (header : Bytes) (length : Nat) :
      c.run = .header → c'.reader = { c.reader with run := .body header length } →
      ReaderStep aead reprOf c a c'
  /-- A frame is opened and decoded, and its message dispatched. -/
  | message (header : Bytes) (length : Nat) (n payload : Bytes) (m : Message)
      (run : RunPc) (handled : List Bool) :
      a = .resume → c.run = .body header length → length + 16 ≤ c.buffer.length →
      nonce c.inNonce = .ok n →
      aead.decrypt c.inKey n (c.buffer.take (length + 16)) header = some payload →
      decodeMessage reprOf payload = .ok m →
      (m.kind = .response ∧ run = (if c.closed then .ended else .header) ∧ handled = c.handled) ∨
        (m.kind ≠ .response ∧ run = .handling m ∧ handled = c.handled ++ [c.closed]) →
      c'.reader = { c.reader with
        inNonce := c.inNonce + 1
        dispatched := c.dispatched ++ [m]
        run
        handled } →
      ReaderStep aead reprOf c a c'

namespace ReaderStep

variable {a : Label}

/-- `readexactly` hands out what is in the buffer, and leaves the rest of the reader alone. -/
theorem readExactly {n : Nat} {r : Option Bytes} {c₁ : HDSConnection}
    (h : c.readExactly n = some (r, c₁)) :
    c₁.reader = c.reader ∧ c₁.closed = c.closed ∧
      ∀ b, r = some b → n ≤ c.buffer.length ∧ b = c.buffer.take n := by
  rw [HDSConnection.readExactly] at h
  split at h
  · next hfits =>
    obtain ⟨rfl, rfl⟩ := Prod.mk.inj (Option.some.inj h)
    exact ⟨rfl, rfl, fun b hb ↦ ⟨hfits, (Option.some.inj hb).symm⟩⟩
  · split at h
    · obtain ⟨rfl, rfl⟩ := Prod.mk.inj (Option.some.inj h)
      exact ⟨rfl, rfl, nofun⟩
    · cases h

/-- The reader ends where it is not at its end. -/
theorem ofEndRun {c₁ : HDSConnection} (hrun : c.run ≠ .ended) (h : c₁.reader = c.reader) :
    ReaderStep aead reprOf c a c₁.endRun :=
  .ended c.inNonce hrun (by rw [reader_endRun, h]; rfl)

theorem greeting {m : Message} (hrun : c.run = .start)
    (hm : decodeMessage reprOf c.firstPayload = .ok m) :
    ReaderStep aead reprOf c a (c.greet m) := by
  rw [HDSConnection.greet]
  split
  · next hhello => exact .greet m hrun hm hhello rfl
  · exact ofEndRun (by rw [hrun]; nofun) rfl

/-- The reader goes back to its loop. -/
theorem looping (hrun : (∃ i, c.run = .replying i) ∨ (∃ m, c.run = .handling m)) :
    ReaderStep aead reprOf c a c.loop := by
  cases hclosed : c.closed with
  | false => exact .next hclosed hrun (by rw [reader_loop, hclosed]; rfl)
  | true =>
      refine .ended c.inNonce ?_ (by rw [reader_loop, hclosed]; rfl)
      rcases hrun with ⟨i, hrun⟩ | ⟨m, hrun⟩ <;> rw [hrun] <;> nofun

theorem readHeader {c₁ : HDSConnection} (hrun : c.run = .header) (h : c₁.reader = c.reader)
    (bytes : Bytes) : ReaderStep aead reprOf c a (c₁.readHeader bytes) := by
  rw [HDSConnection.readHeader]
  split
  · next length _ =>
    have hreader : ({ c₁ with run := .body bytes length } : HDSConnection).reader =
        { c₁.reader with run := .body bytes length } := rfl
    exact .header bytes length hrun (by rw [hreader, h])
  · exact ofEndRun (by rw [hrun]; nofun) h

theorem reader_dispatch (c : HDSConnection) (m : Message) :
    (m.kind = .response ∧ (c.dispatch m).reader = { c.reader with
      dispatched := c.dispatched ++ [m], run := if c.closed then .ended else .header }) ∨
    (m.kind ≠ .response ∧ (c.dispatch m).reader = { c.reader with
      dispatched := c.dispatched ++ [m]
      run := .handling m
      handled := c.handled ++ [c.closed] }) := by
  simp only [dispatch]
  split
  · next hkind => exact .inl ⟨hkind, reader_loop _⟩
  · next hkind => exact .inr ⟨hkind, rfl⟩

theorem readBody {c₁ : HDSConnection} {header : Bytes} {length : Nat}
    (hrun : c.run = .body header length) (hfits : length + 16 ≤ c.buffer.length)
    (h : c₁.reader = c.reader) (hclosed : c₁.closed = c.closed) :
    ReaderStep aead reprOf c .resume
      (c₁.readBody aead reprOf header (c.buffer.take (length + 16))) := by
  have hne : c.run ≠ .ended := by rw [hrun]; nofun
  have hkey : c₁.inKey = c.inKey := congrArg Reader.inKey h
  have hnonce : c₁.inNonce = c.inNonce := congrArg Reader.inNonce h
  have hdispatched : c₁.dispatched = c.dispatched := congrArg Reader.dispatched h
  have hhandled : c₁.handled = c.handled := congrArg Reader.handled h
  have hmore : ({ c₁ with inNonce := c₁.inNonce + 1 } : HDSConnection).reader =
      { c.reader with inNonce := c.inNonce + 1 } := by rw [← h, ← hnonce]; rfl
  rw [HDSConnection.readBody]
  split
  · next payload hdecrypt =>
    obtain ⟨n, hn, hdecrypt⟩ := bind_eq_ok.mp hdecrypt
    rw [hnonce] at hn
    rw [hkey] at hdecrypt
    split at hdecrypt
    · next payload' hopen =>
      obtain rfl := Except.ok.inj hdecrypt
      rw [receivePayload]
      split
      · next m hm =>
        rcases reader_dispatch { c₁ with inNonce := c₁.inNonce + 1 } m with
          ⟨hkind, hreader⟩ | ⟨hkind, hreader⟩
        · refine .message header length n _ m _ c.handled rfl hrun hfits hn hopen hm
            (.inl ⟨hkind, rfl, rfl⟩) ?_
          rw [hreader, hmore]
          simp only [hdispatched, hclosed]
          rfl
        · refine .message header length n _ m _ _ rfl hrun hfits hn hopen hm
            (.inr ⟨hkind, rfl, rfl⟩) ?_
          rw [hreader, hmore]
          simp only [hdispatched, hclosed, hhandled]
      · exact .ended (c.inNonce + 1) hne (by rw [reader_endRun, hmore])
    · cases hdecrypt
  · exact ofEndRun hne h

theorem resuming (h : c.resume aead reprOf = some c') : ReaderStep aead reprOf c .resume c' := by
  rw [HDSConnection.resume] at h
  split at h
  · next hrun =>
    split at h <;> cases h
    · next m hm => exact greeting hrun hm
    · exact ofEndRun (by rw [hrun]; nofun) rfl
  · next i hrun =>
    split at h
    · cases h
      exact looping (.inl ⟨i, hrun⟩)
    · cases h
      exact ofEndRun (by rw [hrun]; nofun) rfl
    · cases h
  · next hrun =>
    obtain ⟨⟨r, c₁⟩, hread, rfl⟩ := Option.map_eq_some_iff.mp h
    obtain ⟨hreader, -, -⟩ := readExactly hread
    cases r with
    | some bytes => exact readHeader hrun hreader bytes
    | none => exact ofEndRun (by rw [hrun]; nofun) hreader
  · next header length hrun =>
    obtain ⟨⟨r, c₁⟩, hread, rfl⟩ := Option.map_eq_some_iff.mp h
    obtain ⟨hreader, hclosed, hbytes⟩ := readExactly hread
    cases r with
    | some encrypted =>
        obtain ⟨hfits, rfl⟩ := hbytes encrypted rfl
        exact readBody hrun hfits hreader hclosed
    | none => exact ofEndRun (by rw [hrun]; nofun) hreader
  · cases h
  · cases h

theorem failing {e : PyErr} (h : c.failRun e = some c') : ReaderStep aead reprOf c a c' := by
  rw [HDSConnection.failRun] at h
  split at h
  · next hrun =>
    cases h
    exact .ended c.inNonce (by rw [hrun]; nofun) rfl
  · next hrun =>
    cases h
    exact ofEndRun (by rw [hrun]; nofun) rfl
  · next hrun =>
    cases h
    exact ofEndRun (by rw [hrun]; nofun) rfl
  · next hrun =>
    cases h
    exact ofEndRun (by rw [hrun]; nofun) rfl
  · next hrun =>
    have hne : c.run ≠ .ended := by rw [hrun]; nofun
    split at h
    · cases h
      exact ofEndRun hne (reader_endCall ..)
    · cases h
      exact ofEndRun hne (reader_endCall ..)
    · cases h
  · cases h

end ReaderStep

/-- A step of a call leaves the reader alone. -/
theorem reader_failCall {i : Nat} {e : PyErr} {pc : CallPc} (h : c.failCall i e pc = some c') :
    c'.reader = c.reader := by
  cases pc with
  | waiting =>
      rw [failCall] at h
      split at h
      · cases h
        exact reader_endCall ..
      · cases h
  | draining =>
      cases h
      exact reader_endCall ..
  | awaiting =>
      rw [failCall] at h
      split at h
      · cases h
        rfl
      · cases h
  | abandoned | returned | raised => cases h

theorem reader_finishWait {i : Nat} {k : Call} (h : c.finishWait i k = some c') :
    c'.reader = c.reader := by
  rw [finishWait] at h
  split at h
  · obtain ⟨pc, -, rfl⟩ := Option.map_eq_some_iff.mp h
    exact reader_endCall ..
  · cases h
    exact reader_endCall ..
  · cases h

/-- **Every step is a step of the reader, or leaves it alone.** -/
theorem step_reader {a : Label} (h : c.step aead reprOf a = some c') :
    ReaderStep aead reprOf c a c' := by
  cases a with
  | sendEvent | sendResponse | receiveEof =>
      cases h
      exact .idle rfl
  | sendRequest protocol topic message timeoutPositive requestId =>
      simp only [step] at h
      split at h
      · cases h
        exact .idle rfl
      · split at h
        · cases h
          exact .idle rfl
        · cases h
  | acquire i =>
      simp only [step] at h
      split at h
      · split at h
        · cases h
          exact .idle (reader_acquired ..)
        · cases h
      · cases h
  | drained i =>
      simp only [step] at h
      split at h
      · cases h
        exact .idle (reader_sent ..)
      · cases h
  | answered i =>
      obtain ⟨k, -, h⟩ := Option.bind_eq_some_iff.mp h
      exact .idle (reader_finishWait h)
  | timeout i =>
      simp only [step] at h
      split at h
      · cases h
        exact .idle rfl
      · cases h
  | fail i e =>
      obtain ⟨pc, -, h⟩ := Option.bind_eq_some_iff.mp h
      exact .idle (reader_failCall h)
  | receive data =>
      simp only [step] at h
      split at h
      · cases h
      · cases h
        exact .idle rfl
  | resume => exact ReaderStep.resuming h
  | handled =>
      simp only [step] at h
      split at h
      · next m hrun =>
        cases h
        exact ReaderStep.looping (.inr ⟨m, hrun⟩)
      · cases h
  | failRun e => exact ReaderStep.failing h
  | close =>
      cases h
      exact .idle (reader_close c)

end HDSConnection

end AtvRemote.Hds
