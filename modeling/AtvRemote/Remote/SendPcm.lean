import AtvRemote.Lib.Simulation
import AtvRemote.Remote.Served

/-!
# Sending one utterance

`send_pcm` of the controller, called any number of times: each call starts a session with
`start_siri`, awaits one `write` for each of its chunks and then `finish`, and cancels the
session in a shielded task when anything of that raises.  A coroutine that is awaited runs in
the same step up to its first wait, and its call goes on when it is done.

The session of a call is known to it and to the controller alone, so that nobody else calls
`write` and `finish` on it.  Nobody cancels a shielded task; and a task that has not begun is
cancelled only through the coroutine that awaits it.
-/

namespace AtvRemote.Remote

open Lib Audio

/-- What `send_pcm` is given: bytes, or an iterable whose chunks are up to the caller. -/
inductive Source where
  | raw (pcm : Bytes) (realtime : Bool)
  | chunks
deriving DecidableEq, Repr

/-- Where a call of `send_pcm` is, with the session and the task that it awaits. -/
inductive SendPc where
  /-- In `start_siri`. -/
  | starting
  /-- In front of its next chunk, or asleep, or waiting for its iterable. -/
  | between (sid : Nat)
  /-- In `session.write`. -/
  | writing (sid t : Nat)
  /-- In `session.finish`. -/
  | finishing (sid t : Nat)
  /-- In front of the shielded `session.cancel`, with what it raises then. -/
  | cancelling (sid t : Nat) (e : PyErr)
  | returned
  | raised (e : PyErr)
deriving DecidableEq, Repr

/-- A call of `send_pcm`. -/
structure SendCall where
  /-- `pcm` and `realtime` -/
  source : Source
  /-- Its call of `start_siri`. -/
  siri : Nat
  /-- The PCM that it has handed to `write`, which tells the `offset`. -/
  written : Bytes
  /-- `cancel_task`, with the session that it cancels. -/
  cancelTask : Option (Nat × Nat)
  pc : SendPc
deriving DecidableEq, Repr

/-- The session that a call of `start_siri` returned. -/
def AppleTVHomeKitRemote.siriSession? {ε T : Type} (r : AppleTVHomeKitRemote ε T) (t : Nat) :
    Option Nat :=
  match r.siriCalls[t]?.map SiriCall.pc with
  | some (.returned sid) => some sid
  | _ => none

/-- The controller, and every call of `send_pcm`. -/
structure Dictation (ε T : Type) where
  remote : AppleTVHomeKitRemote ε T
  sends : List SendCall

namespace Dictation

/-- What happens to the calls. -/
inductive Label where
  /-- A step of the controller. -/
  | remote (a : AppleTVHomeKitRemote.Label)
  /-- `send_pcm` is called. -/
  | send (source : Source) (target : Option Int)
  /-- `start_siri` returned, or raised. -/
  | begin (i : Nat)
  /-- The next frame of the bytes is written; behind the last one comes `finish`. -/
  | next (i : Nat)
  /-- The iterable yields a chunk. -/
  | chunk (i : Nat) (pcm : Bytes)
  /-- The iterable is exhausted. -/
  | exhausted (i : Nat)
  /-- The iterable raises, or the call is cancelled between two chunks. -/
  | fail (i : Nat) (e : PyErr)
  /-- The coroutine or the task that the call awaits is done. -/
  | goOn (i : Nat)
  /-- The wait for the shielded task is cancelled. -/
  | unshield (i : Nat)
deriving Repr

section

variable {ε : Type} {json : JsonText}

/-- The session that the `start_siri` of a call returned. -/
def sessionOf (d : Dictation ε json.Text) (k : SendCall) : Option Nat :=
  d.remote.siriSession? k.siri

/-- The session belongs to a call. -/
def owns (d : Dictation ε json.Text) (sid : Nat) : Bool :=
  d.sends.any fun k ↦ d.sessionOf k = some sid

/-- An open task that has not begun, and that no `finish` awaits. -/
def unawaited (s : Session ε) (t : Nat) : Bool :=
  s.openTask = some t ∧ s.pc? t = some .start ∧ s.tasks.all fun k ↦ k.pc ≠ .awaitOpen

/-- What only a call of `send_pcm` does to its session, and what nobody does to a task: the
shielded one is not cancelled, and the open task by who awaits it only. -/
def reserved (d : Dictation ε json.Text) : AppleTVHomeKitRemote.Label → Bool
  | .session sid (.call (.write _)) | .session sid (.call (.finish _ _)) => d.owns sid
  | .session sid (.fail t .cancelledError) =>
      (d.sends.any fun k ↦ k.cancelTask = some (sid, t)) ||
        d.remote.sessions[sid]?.any fun u ↦ unawaited u.session t
  | _ => false

/-- Change a call. -/
def onSend (d : Dictation ε json.Text) (i : Nat) (f : SendCall → SendCall) :
    Dictation ε json.Text := { d with sends := d.sends.modify i f }

/-- Move a call. -/
def goto (d : Dictation ε json.Text) (i : Nat) (pc : SendPc) : Dictation ε json.Text :=
  d.onSend i fun k ↦ { k with pc }

/-- The place of a task in a session. -/
def pc? (d : Dictation ε json.Text) (sid t : Nat) : Option Pc :=
  d.remote.sessions[sid]?.bind fun u ↦ u.session.pc? t

/-- How many tasks a session has. -/
def tasksOf (d : Dictation ε json.Text) (sid : Nat) : Nat :=
  (d.remote.sessions[sid]?.map fun u ↦ u.session.tasks.length).getD 0

variable (json) (opus : OpusEncoder ε) (d : Dictation ε json.Text)

/-- The steps of the controller in which a coroutine of a session is called, and runs to its
first wait. -/
def await (sid : Nat) (c : Call) : Option (AppleTVHomeKitRemote ε json.Text) :=
  (d.remote.step json opus (.session sid (.call c))).bind fun r ↦
    r.step json opus (.session sid (.run (d.tasksOf sid)))

/-- `await session.write(chunk)` -/
def write (i sid : Nat) (pcm : Bytes) : Option (Dictation ε json.Text) :=
  (d.await json opus sid (.write pcm)).map fun remote ↦ onSend { d with remote } i fun k ↦
    { k with written := k.written ++ pcm, pc := .writing sid (d.tasksOf sid) }

/-- `await session.finish()` -/
def finish (i sid : Nat) : Option (Dictation ε json.Text) :=
  (d.await json opus sid (.finish true true)).map fun remote ↦
    goto { d with remote } i (.finishing sid (d.tasksOf sid))

/-- The `except` block: `cancel_task` is created, and awaited behind a shield. -/
def cancel (i sid : Nat) (e : PyErr) : Option (Dictation ε json.Text) :=
  (d.remote.step json opus (.session sid (.call (.cancel .cancelled)))).map fun remote ↦
    onSend { d with remote } i fun k ↦
      { k with cancelTask := some (sid, d.tasksOf sid), pc := .cancelling sid (d.tasksOf sid) e }

/-- The exceptions that a call meets between two chunks: what its iterable raises, or a
cancellation of the sleep between two frames. -/
def failsBetween (k : SendCall) (e : PyErr) : Bool :=
  match k.source with
  | .chunks => true
  | .raw pcm realtime => realtime && e = .cancelledError && !k.written.isEmpty &&
      decide (k.written.length < pcm.length)

/-- A step of one call. -/
def stepSend (i : Nat) (k : SendCall) : Label → Option (Dictation ε json.Text)
  | .begin _ => match k.pc, d.remote.siriCalls[k.siri]?.map SiriCall.pc with
      | .starting, some (.returned sid) => some (d.goto i (.between sid))
      | .starting, some (.raised e) => some (d.goto i (.raised e))
      | _, _ => none
  | .next _ => match k.pc, k.source with
      | .between sid, .raw pcm _ =>
          if k.written.length < pcm.length then
            d.write json opus i sid ((pcm.drop k.written.length).take frameBytes)
          else d.finish json opus i sid
      | _, _ => none
  | .chunk _ pcm => match k.pc, k.source with
      | .between sid, .chunks => d.write json opus i sid pcm
      | _, _ => none
  | .exhausted _ => match k.pc, k.source with
      | .between sid, .chunks => d.finish json opus i sid
      | _, _ => none
  | .fail _ e => match k.pc with
      | .between sid => if failsBetween k e then d.cancel json opus i sid e else none
      | _ => none
  | .goOn _ => match k.pc with
      | .writing sid t => match d.pc? sid t with
          | some .returned => some (d.goto i (.between sid))
          | some (.raised e) => d.cancel json opus i sid e
          | _ => none
      | .finishing sid t => match d.pc? sid t with
          | some .returned => some (d.goto i .returned)
          | some (.raised e) => d.cancel json opus i sid e
          | _ => none
      | .cancelling sid t e =>
          if (d.pc? sid t).any Pc.done then some (d.goto i (.raised e)) else none
      | _ => none
  | .unshield _ => match k.pc with
      | .cancelling _ _ e => some (d.goto i (.raised e))
      | _ => none
  | _ => none

/-- The call that a label moves. -/
def Label.send? : Label → Option Nat
  | .begin i | .next i | .chunk i _ | .exhausted i | .fail i _ | .goOn i | .unshield i => some i
  | _ => none

/-- One step. -/
def step (d : Dictation ε json.Text) : Label → Option (Dictation ε json.Text)
  | .remote a =>
      if d.reserved a then none
      else (d.remote.step json opus a).map fun remote ↦ { d with remote }
  | .send source target => (d.remote.step json opus (.startSiri target true)).map fun remote ↦
      ⟨remote, d.sends ++ [⟨source, d.remote.siriCalls.length, [], none, .starting⟩]⟩
  | a => a.send?.bind fun i ↦ d.sends[i]?.bind fun k ↦ d.stepSend json opus i k a

end

end Dictation

/-- A controller from its construction on, with its calls of `send_pcm`. -/
def dictations {ε : Type} (json : JsonText) (opus : OpusEncoder ε) (file : Option json.Text) :
    System (Dictation ε json.Text) Dictation.Label where
  init d := d = ⟨.new json file, []⟩
  step d a := d.step json opus a

/-! ## The steps of the controller -/

namespace Dictation

section

variable {ε : Type} {json : JsonText} {opus : OpusEncoder ε} {d d' : Dictation ε json.Text}
  {k : SendCall}

theorem await_of_write {i sid : Nat} {pcm : Bytes} (hi : d.sends[i]? = some k)
    (h : d.write json opus i sid pcm = some d') :
    d.await json opus sid (.write pcm) = some d'.remote ∧ d'.sends = d.sends.set i
      { k with written := k.written ++ pcm, pc := .writing sid (d.tasksOf sid) } := by
  obtain ⟨remote, hremote, rfl⟩ := Option.map_eq_some_iff.mp h
  exact ⟨hremote, modify_of_getElem? hi⟩

theorem await_of_finish {i sid : Nat} (hi : d.sends[i]? = some k)
    (h : d.finish json opus i sid = some d') :
    d.await json opus sid (.finish true true) = some d'.remote ∧
      d'.sends = d.sends.set i { k with pc := .finishing sid (d.tasksOf sid) } := by
  obtain ⟨remote, hremote, rfl⟩ := Option.map_eq_some_iff.mp h
  exact ⟨hremote, modify_of_getElem? hi⟩

theorem step_of_cancel {i sid : Nat} {e : PyErr} (hi : d.sends[i]? = some k)
    (h : d.cancel json opus i sid e = some d') :
    d.remote.step json opus (.session sid (.call (.cancel .cancelled))) = some d'.remote ∧
      d'.sends = d.sends.set i
        { k with
          cancelTask := some (sid, d.tasksOf sid)
          pc := .cancelling sid (d.tasksOf sid) e } := by
  obtain ⟨remote, hremote, rfl⟩ := Option.map_eq_some_iff.mp h
  exact ⟨hremote, modify_of_getElem? hi⟩

/-- What a step does to the call that it moves. -/
inductive SendTurn (json : JsonText) (opus : OpusEncoder ε) (d : Dictation ε json.Text)
    (k : SendCall) : SendCall → AppleTVHomeKitRemote ε json.Text → Prop
  /-- `start_siri` returned. -/
  | begins (sid : Nat) (hk : k.pc = .starting) (hsid : d.sessionOf k = some sid) :
      SendTurn json opus d k { k with pc := .between sid } d.remote
  /-- `start_siri` raised. -/
  | refused (e : PyErr) (hk : k.pc = .starting)
      (hcall : d.remote.siriCalls[k.siri]?.map SiriCall.pc = some (.raised e)) :
      SendTurn json opus d k { k with pc := .raised e } d.remote
  /-- A chunk is written. -/
  | writes (sid : Nat) (pcm : Bytes) (r : AppleTVHomeKitRemote ε json.Text)
      (hk : k.pc = .between sid)
      (hnext : k.source = .chunks ∨ ∃ raw realtime, k.source = .raw raw realtime ∧
        k.written.length < raw.length ∧ pcm = (raw.drop k.written.length).take frameBytes)
      (hr : d.await json opus sid (.write pcm) = some r) :
      SendTurn json opus d k
        { k with written := k.written ++ pcm, pc := .writing sid (d.tasksOf sid) } r
  /-- There are no more chunks. -/
  | finishes (sid : Nat) (r : AppleTVHomeKitRemote ε json.Text) (hk : k.pc = .between sid)
      (hend : ∀ raw realtime, k.source = .raw raw realtime → raw.length ≤ k.written.length)
      (hr : d.await json opus sid (.finish true true) = some r) :
      SendTurn json opus d k { k with pc := .finishing sid (d.tasksOf sid) } r
  /-- Something raised. -/
  | cancels (sid : Nat) (e : PyErr) (r : AppleTVHomeKitRemote ε json.Text)
      (hk : k.pc = .between sid ∨
        ∃ t, (k.pc = .writing sid t ∨ k.pc = .finishing sid t) ∧ d.pc? sid t = some (.raised e))
      (hr : d.remote.step json opus (.session sid (.call (.cancel .cancelled))) = some r) :
      SendTurn json opus d k
        { k with
          cancelTask := some (sid, d.tasksOf sid)
          pc := .cancelling sid (d.tasksOf sid) e } r
  /-- A chunk is written. -/
  | wrote (sid t : Nat) (hk : k.pc = .writing sid t) (hpc : d.pc? sid t = some .returned) :
      SendTurn json opus d k { k with pc := .between sid } d.remote
  /-- The utterance is finished. -/
  | finished (sid t : Nat) (hk : k.pc = .finishing sid t) (hpc : d.pc? sid t = some .returned) :
      SendTurn json opus d k { k with pc := .returned } d.remote
  /-- The call raises behind its `except` block. -/
  | raises (sid t : Nat) (e : PyErr) (hk : k.pc = .cancelling sid t e) :
      SendTurn json opus d k { k with pc := .raised e } d.remote

theorem sendTurn_stepSend {i : Nat} {a : Label} (hi : d.sends[i]? = some k)
    (h : d.stepSend json opus i k a = some d') :
    ∃ k', SendTurn json opus d k k' d'.remote ∧ d'.sends = d.sends.set i k' := by
  have hcancel : ∀ {sid : Nat} {e : PyErr}, (k.pc = .between sid ∨
      ∃ t, (k.pc = .writing sid t ∨ k.pc = .finishing sid t) ∧ d.pc? sid t = some (.raised e)) →
      d.cancel json opus i sid e = some d' →
      ∃ k', SendTurn json opus d k k' d'.remote ∧ d'.sends = d.sends.set i k' := by
    intro sid e hk h
    obtain ⟨hr, hsends⟩ := step_of_cancel hi h
    exact ⟨_, .cancels sid e _ hk hr, hsends⟩
  cases a with
  | remote | send => cases h
  | begin i' =>
      simp only [stepSend] at h
      split at h
      · next sid hk hcall =>
        cases h
        refine ⟨_, .begins sid hk ?_, modify_of_getElem? hi⟩
        rw [sessionOf, AppleTVHomeKitRemote.siriSession?, hcall]
      · next e hk hcall =>
        cases h
        exact ⟨_, .refused e hk hcall, modify_of_getElem? hi⟩
      · cases h
  | next i' =>
      simp only [stepSend] at h
      split at h
      · next sid pcm realtime hk hsource =>
        split at h
        · next hlt =>
          obtain ⟨hr, hsends⟩ := await_of_write hi h
          exact ⟨_, .writes sid _ _ hk (.inr ⟨pcm, realtime, hsource, hlt, rfl⟩) hr, hsends⟩
        · next hge =>
          obtain ⟨hr, hsends⟩ := await_of_finish hi h
          refine ⟨_, .finishes sid _ hk (fun raw realtime' heq ↦ ?_) hr, hsends⟩
          rw [hsource] at heq
          cases heq
          exact Nat.le_of_not_lt hge
      · cases h
  | chunk i' pcm =>
      simp only [stepSend] at h
      split at h
      · next sid hk hsource =>
        obtain ⟨hr, hsends⟩ := await_of_write hi h
        exact ⟨_, .writes sid pcm _ hk (.inl hsource) hr, hsends⟩
      · cases h
  | exhausted i' =>
      simp only [stepSend] at h
      split at h
      · next sid hk hsource =>
        obtain ⟨hr, hsends⟩ := await_of_finish hi h
        refine ⟨_, .finishes sid _ hk (fun raw realtime heq ↦ ?_) hr, hsends⟩
        rw [hsource] at heq
        cases heq
      · cases h
  | fail i' e =>
      simp only [stepSend] at h
      split at h
      · next sid hk =>
        split at h
        · exact hcancel (.inl hk) h
        · cases h
      · cases h
  | goOn i' =>
      simp only [stepSend] at h
      split at h
      · next sid t hk =>
        split at h
        · next hpc =>
          cases h
          exact ⟨_, .wrote sid t hk hpc, modify_of_getElem? hi⟩
        · next e hpc => exact hcancel (.inr ⟨t, .inl hk, hpc⟩) h
        · cases h
      · next sid t hk =>
        split at h
        · next hpc =>
          cases h
          exact ⟨_, .finished sid t hk hpc, modify_of_getElem? hi⟩
        · next e hpc => exact hcancel (.inr ⟨t, .inr hk, hpc⟩) h
        · cases h
      · next sid t e hk =>
        split at h
        · cases h
          exact ⟨_, .raises sid t e hk, modify_of_getElem? hi⟩
        · cases h
      · cases h
  | unshield i' =>
      simp only [stepSend] at h
      split at h
      · next sid t e hk =>
        cases h
        exact ⟨_, .raises sid t e hk, modify_of_getElem? hi⟩
      · cases h

/-- **The steps of the calls of `send_pcm`.** -/
theorem step_cases {a : Label} (h : d.step json opus a = some d') :
    (∃ b, a = .remote b ∧ d.reserved b = false ∧ d.remote.step json opus b = some d'.remote ∧
        d'.sends = d.sends) ∨
      (∃ source target, a = .send source target ∧
        d.remote.step json opus (.startSiri target true) = some d'.remote ∧
        d'.sends = d.sends ++ [⟨source, d.remote.siriCalls.length, [], none, .starting⟩]) ∨
      ∃ i k k', a.send? = some i ∧ d.sends[i]? = some k ∧
        SendTurn json opus d k k' d'.remote ∧ d'.sends = d.sends.set i k' := by
  have hsend : a.send?.bind (fun i ↦ d.sends[i]?.bind fun k ↦ d.stepSend json opus i k a) =
      some d' → ∃ i k k', a.send? = some i ∧ d.sends[i]? = some k ∧
        SendTurn json opus d k k' d'.remote ∧ d'.sends = d.sends.set i k' := by
    intro h
    obtain ⟨i, ha, h⟩ := Option.bind_eq_some_iff.mp h
    obtain ⟨k, hk, h⟩ := Option.bind_eq_some_iff.mp h
    obtain ⟨k', hturn, hsends⟩ := sendTurn_stepSend hk h
    exact ⟨i, k, k', ha, hk, hturn, hsends⟩
  cases a with
  | remote b =>
      simp only [step] at h
      split at h
      · cases h
      · next hfree =>
        obtain ⟨r, hr, rfl⟩ := Option.map_eq_some_iff.mp h
        exact .inl ⟨b, rfl, Bool.eq_false_iff.mpr hfree, hr, rfl⟩
  | send source target =>
      simp only [step] at h
      obtain ⟨r, hr, rfl⟩ := Option.map_eq_some_iff.mp h
      exact .inr (.inl ⟨source, target, rfl, hr, rfl⟩)
  | _ => exact .inr (.inr (hsend h))

/-- A call of a coroutine is two steps of the controller. -/
theorem exec_await (file : Option json.Text) (sid : Nat) (c : Call) :
    (remotes json opus file).exec d.remote
      [.session sid (.call c), .session sid (.run (d.tasksOf sid))] = d.await json opus sid c := by
  simp only [System.exec_cons, System.exec_nil, Option.bind_fun_some, await]
  rfl

/-- What the calls of `send_pcm` do to the controller are steps of the controller. -/
theorem SendTurn.exec {k' : SendCall} {r : AppleTVHomeKitRemote ε json.Text}
    (h : SendTurn json opus d k k' r) (file : Option json.Text) :
    ∃ bs, (remotes json opus file).exec d.remote bs = some r := by
  cases h with
  | writes sid pcm r _ _ hr => exact ⟨_, (exec_await file sid _).trans hr⟩
  | finishes sid r _ _ hr => exact ⟨_, (exec_await file sid _).trans hr⟩
  | cancels sid e r _ hr =>
      refine ⟨[.session sid (.call (.cancel .cancelled))], ?_⟩
      simp only [System.exec_cons, System.exec_nil, Option.bind_fun_some]
      exact hr
  | begins | refused | wrote | finished | raises => exact ⟨[], rfl⟩

end

end Dictation

/-- A controller with its calls of `send_pcm` is a controller. -/
def dictated {ε : Type} (json : JsonText) (opus : OpusEncoder ε) (file : Option json.Text) :
    Simulation (dictations json opus file) (remotes json opus file) where
  state := Dictation.remote
  init := by
    rintro d rfl
    rfl
  step := by
    intro d a d' h
    rcases Dictation.step_cases h with ⟨b, -, -, hstep, -⟩ | ⟨source, target, -, hstep, -⟩ |
      ⟨i, k, k', -, -, hturn, -⟩
    · refine ⟨[b], ?_⟩
      simp only [System.exec_cons, System.exec_nil, Option.bind_fun_some]
      exact hstep
    · refine ⟨[.startSiri target true], ?_⟩
      simp only [System.exec_cons, System.exec_nil, Option.bind_fun_some]
      exact hstep
    · exact hturn.exec file

end AtvRemote.Remote
