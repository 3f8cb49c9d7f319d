import AtvRemote.Audio.Leaving
import AtvRemote.Remote.SendPcm
import AtvRemote.Remote.Shutdown

/-!
# A call of `send_pcm` and its session

A call of `send_pcm` is the only one that writes to its session, and awaits what it calls.  So
its session has accepted what the call has written, but for the chunk of the `write` that is
awaited (`Follows`).  Whatever else happens to the session leaves that as it is
(`Follows.step`), and so does every step of the controller that is not one of the call itself
(`Speaks.step`).
-/

namespace AtvRemote.Remote

open Lib Audio Relation

/-! ## The session of a call -/

section

variable {ε : Type}

namespace SendPc

/-- The session of the place. -/
def session? : SendPc → Option Nat
  | .between sid | .writing sid _ | .finishing sid _ | .cancelling sid _ _ => some sid
  | _ => none

/-- In front of `finish`, and not in the `except` block. -/
def writes : SendPc → Bool
  | .starting | .between _ | .writing _ _ => true
  | _ => false

/-- The `except` block was entered, or `start_siri` raised. -/
def failed : SendPc → Bool
  | .cancelling _ _ _ | .raised _ => true
  | _ => false

/-- `send_pcm` returned or raised. -/
def done : SendPc → Bool
  | .returned | .raised _ => true
  | _ => false

end SendPc

/-- Everything that the call was given is written; of an iterable that is what it yielded. -/
def SendCall.Whole (k : SendCall) : Prop :=
  ∀ pcm realtime, k.source = .raw pcm realtime → k.written = pcm

/-- What a session may do that does not come from its call. -/
def SendCall.Leaves (k : SendCall) (s : Session ε) : Session.Label → Prop
  | .call (.write _) | .call (.finish _ _) => False
  | .fail t .cancelledError =>
      (∀ sid, k.cancelTask ≠ some (sid, t)) ∧ Dictation.unawaited s t = false
  | _ => True

/-- Where a call of `write` is that a call of `send_pcm` awaits. -/
structure Brings (s : Session ε) (written pcm : Bytes) (pc : Pc) : Prop where
  waits : Task.waiting ⟨.write pcm, pc⟩ = some pcm → s.accepted ++ pcm = written
  brought : Task.waiting ⟨.write pcm, pc⟩ = none → s.accepted = written ∨ ∃ e, pc = .raised e

/-- Where a call of `send_pcm` is with its session. -/
structure Follows (k : SendCall) (s : Session ε) : Prop where
  /-- The `write` that the call awaits is the only one that waits. -/
  waits : ∀ (t : Nat) (k' : Task), s.tasks[t]? = some k' → k'.waiting.isSome = true →
    ∃ sid, k.pc = .writing sid t
  brings : ∀ (sid t : Nat), k.pc = .writing sid t →
    ∃ (pcm : Bytes) (pc : Pc), s.tasks[t]? = some ⟨.write pcm, pc⟩ ∧ Brings s k.written pcm pc
  accepted : s.accepted <+: k.written
  settled : k.pc.failed = false → (∀ sid t, k.pc ≠ .writing sid t) → s.accepted = k.written
  finishes : ∀ (t : Nat) (positive pad : Bool) (pc : Pc),
    s.tasks[t]? = some ⟨.finish positive pad, pc⟩ →
      k.pc.writes = false ∧ positive = true ∧ pad = true ∧ s.accepted = k.written ∧ k.Whole
  /-- A `finish` is awaited until it is done. -/
  finishing : ∀ (t : Nat) (positive pad : Bool) (pc : Pc),
    s.tasks[t]? = some ⟨.finish positive pad, pc⟩ →
      (∃ sid, k.pc = .finishing sid t) ∨ pc.done = true
  awaits : ∀ (sid t : Nat), k.pc = .finishing sid t →
    ∃ pc : Pc, s.tasks[t]? = some ⟨.finish true true, pc⟩
  returned : k.pc = .returned → ∃ t : Nat, s.tasks[t]? = some ⟨.finish true true, .returned⟩
  cancels : ∀ (sid t : Nat), k.cancelTask = some (sid, t) →
    ∃ pc : Pc, s.tasks[t]? = some ⟨.cancel .cancelled, pc⟩ ∧ (pc = .start ∨ s.Parting)
  failed : k.pc.failed = k.cancelTask.isSome

section Steps

variable {opus : OpusEncoder ε} {s s' : Session ε} {cc : Bool} {a : Session.Label} {k : SendCall}

/-- A task that is new was just called, and is none of the call's. -/
theorem SendCall.Leaves.new_task (ha : k.Leaves s a) (hs : s.Proper)
    (h : s.step opus cc a = some s') {t : Nat} {k' : Task} (ht : s'.tasks[t]? = some k')
    (hnew : s.tasks[t]? = none) :
    k'.waiting = none ∧ ∀ positive pad, k'.call ≠ .finish positive pad := by
  have hcall : ∀ {c : Call}, (s.tasks ++ [⟨c, .start⟩])[t]? = some k' → k'.call = c := by
    intro c h
    rcases getElem?_concat_eq_some.mp h with hold | ⟨-, rfl⟩
    · cases hold.symm.trans hnew
    · rfl
  rcases hs.turn_cases h with
    ⟨-, rfl⟩ | ⟨c, rfl, -, rfl⟩ | ⟨reason, -, rfl⟩ | ⟨t', k₀, -, ht', hturn⟩
  · rw [Session.start] at ht
    split at ht
    · have hopen := hcall ht
      exact ⟨Session.waiting_of_ne (by rw [hopen]; rintro pcm ⟨⟩), by rw [hopen]; rintro _ _ ⟨⟩⟩
    · cases ht.symm.trans hnew
  · have hc := hcall ht
    cases c with
    | write | finish => exact ha.elim
    | _ => exact ⟨Session.waiting_of_ne (by rw [hc]; rintro pcm ⟨⟩), by rw [hc]; rintro _ _ ⟨⟩⟩
  · rcases s.handleClose_cases reason with ⟨-, heq⟩ | ⟨-, heq⟩
    · rw [heq] at ht
      cases ht.symm.trans hnew
    · rw [heq] at ht
      cases ht.symm.trans hnew
  · have hne : t ≠ t' := by
      rintro rfl
      cases ht'.symm.trans hnew
    rw [hturn.others hne] at ht
    cases ht.symm.trans hnew

/-- A task of a call that is the call's own was there before. -/
theorem SendCall.Leaves.old_task (ha : k.Leaves s a) (hs : s.Proper)
    (h : s.step opus cc a = some s') {t : Nat} {k' : Task} (ht : s'.tasks[t]? = some k')
    (hk' : k'.waiting.isSome = true ∨ ∃ positive pad, k'.call = .finish positive pad) :
    ∃ pc : Pc, s.tasks[t]? = some ⟨k'.call, pc⟩ := by
  cases hold : s.tasks[t]? with
  | none =>
      obtain ⟨hwaits, hcall⟩ := ha.new_task hs h ht hold
      rcases hk' with hsome | ⟨positive, pad, hfinish⟩
      · rw [hwaits] at hsome
        cases hsome
      · exact absurd hfinish (hcall positive pad)
  | some k₀ =>
      obtain ⟨pc, ht', -⟩ := hs.stays h hold
      rw [ht] at ht'
      cases ht'
      exact ⟨k₀.pc, rfl⟩

/-- The task that cancels the session of a call has not begun, or makes it part. -/
theorem Follows.parting (hk : Follows k s) (ha : k.Leaves s a) (hs : s.Regular opus)
    (h : s.step opus cc a = some s') {sid t : Nat} (hcancel : k.cancelTask = some (sid, t)) :
    ∃ pc : Pc, s'.tasks[t]? = some ⟨.cancel .cancelled, pc⟩ ∧ (pc = .start ∨ s'.Parting) := by
  obtain ⟨pc, ht, hpc⟩ := hk.cancels sid t hcancel
  obtain ⟨pc', ht', hsame⟩ := hs.proper.stays h ht
  refine ⟨pc', ht', ?_⟩
  rcases hpc with rfl | hparting
  · by_cases hmoves : a.task = some t
    · right
      have hstart : s.pc? t = some .start := Option.map_eq_some_iff.mpr ⟨_, ht, rfl⟩
      cases a with
      | run t' =>
          cases hmoves
          simp only [Session.step, ht, Option.bind_some, Session.runTask] at h
          cases h
          exact hs.opener.parting_cancel ht
      | response t' status message onOpen =>
          cases hmoves
          simp only [Session.step, hstart] at h
          cases h
      | sent t' | timeout t' =>
          cases hmoves
          simp only [Session.step, hstart] at h
          cases h
      | resume t' =>
          cases hmoves
          simp only [Session.step, hstart, Option.bind_some, Session.resumeTask] at h
          cases h
      | fail t' e =>
          cases hmoves
          simp only [Session.step, hstart, Option.bind_some, Session.failTask] at h
          split at h
          · next he =>
            subst he
            exact absurd hcancel (ha.1 sid)
          · cases h
      | _ => cases hmoves
    · exact .inl (hsame hmoves)
  · right
    refine hs.proper.parting hs.opener hparting h ?_
    rintro ⟨t₀, rfl, hopen, hpc⟩
    -- nobody waits for the open task: the call is in its `except` block
    have hunawaited : Dictation.unawaited s t₀ = true := by
      refine decide_eq_true ⟨hopen, hpc, List.all_eq_true.mpr fun k' hmem ↦ ?_⟩
      refine decide_eq_true ?_
      obtain ⟨c, pc₁⟩ := k'
      rintro rfl
      obtain ⟨t₁, ht₁⟩ := List.mem_iff_getElem?.mp hmem
      have hfits := hs.proper.fits _ hmem
      cases c with
      | finish positive pad =>
          rcases hk.finishing t₁ positive pad _ ht₁ with ⟨sid', hfinishing⟩ | hdone
          · have hfailed := hk.failed
            rw [hfinishing, hcancel] at hfailed
            cases hfailed
          · cases hdone
      | _ => exact hfits.elim
    cases hunawaited.symm.trans ha.2

/-- **What is not the call's business leaves it where it is.** -/
theorem Follows.step (hk : Follows k s) (hs : s.Regular opus) (ha : k.Leaves s a)
    (h : s.step opus cc a = some s') : Follows k s' := by
  have hwaits : ∀ (t : Nat) (k' : Task), s'.tasks[t]? = some k' → k'.waiting.isSome = true →
      ∃ sid, k.pc = .writing sid t := by
    intro t k' ht' hsome
    obtain ⟨pc, ht⟩ := ha.old_task hs.proper h ht' (.inl hsome)
    refine hk.waits t _ ht ?_
    by_contra hnone
    rw [hs.proper.not_waiting hs.offered h ht (Option.not_isSome_iff_eq_none.mp hnone) ht'] at hsome
    cases hsome
  have hreturned : k.pc = .returned → ∃ t : Nat,
      s'.tasks[t]? = some ⟨.finish true true, .returned⟩ := by
    intro hpc
    obtain ⟨t, ht⟩ := hk.returned hpc
    exact ⟨t, hs.proper.done_stays h ht rfl⟩
  have hfinishing : ∀ (t : Nat) (positive pad : Bool) (pc : Pc),
      s'.tasks[t]? = some ⟨.finish positive pad, pc⟩ →
        (∃ sid, k.pc = .finishing sid t) ∨ pc.done = true := by
    intro t positive pad pc ht'
    obtain ⟨pc₁, ht⟩ := ha.old_task hs.proper h ht' (.inr ⟨positive, pad, rfl⟩)
    refine (hk.finishing t positive pad pc₁ ht).imp_right fun hdone ↦ ?_
    rw [hs.proper.done_stays h ht hdone] at ht'
    cases ht'
    exact hdone
  have hcancels : ∀ (sid t : Nat), k.cancelTask = some (sid, t) →
      ∃ pc : Pc, s'.tasks[t]? = some ⟨.cancel .cancelled, pc⟩ ∧ (pc = .start ∨ s'.Parting) :=
    fun _ _ hcancel ↦ hk.parting ha hs h hcancel
  have hawaits : ∀ (sid t : Nat), k.pc = .finishing sid t →
      ∃ pc : Pc, s'.tasks[t]? = some ⟨.finish true true, pc⟩ := by
    intro sid t hpc
    obtain ⟨pc, ht⟩ := hk.awaits sid t hpc
    obtain ⟨pc', ht', -⟩ := hs.proper.stays h ht
    exact ⟨pc', ht'⟩
  cases hs.proper.intake hs.offered h with
  | takes t pcm pc pc' hrun ht hwait hgo haccepted ht' hpc' =>
      -- the awaited `write` takes its chunk
      obtain ⟨sid, hpc⟩ := hk.waits t _ ht (by rw [hwait]; rfl)
      obtain ⟨pcm₀, pc₀, ht₀, hbrings⟩ := hk.brings sid t hpc
      rw [ht] at ht₀
      cases ht₀
      have hall : s'.accepted = k.written := haccepted.trans (hbrings.waits hwait)
      have hdone : pc'.flushing = true ∨ pc'.done = true := by
        rcases hpc' with rfl | hflush
        · exact .inr rfl
        · exact .inl hflush
      refine ⟨hwaits, fun sid' t' hsame ↦ ?_, hall ▸ List.prefix_refl _, fun _ _ ↦ hall,
        fun t' positive pad pc'' hfinish ↦ ?_, hfinishing, hawaits, hreturned, hcancels,
        hk.failed⟩
      · rw [hpc] at hsame
        cases hsame
        refine ⟨pcm, pc', ht', fun hwait' ↦ ?_, fun _ ↦ .inl hall⟩
        rw [Session.waiting_of_flushing hdone] at hwait'
        cases hwait'
      · obtain ⟨pc₁, hold⟩ := ha.old_task hs.proper h hfinish (.inr ⟨positive, pad, rfl⟩)
        have hbehind := (hk.finishes t' positive pad pc₁ hold).1
        rw [hpc] at hbehind
        cases hbehind
  | leaves haccepted hgo =>
      refine ⟨hwaits, fun sid t hpc ↦ ?_, haccepted ▸ hk.accepted, fun hok hnot ↦ ?_,
        fun t positive pad pc hfinish ↦ ?_, hfinishing, hawaits, hreturned, hcancels, hk.failed⟩
      · obtain ⟨pcm, pc, ht, hbrings⟩ := hk.brings sid t hpc
        obtain ⟨pc', ht', -⟩ := hs.proper.stays h ht
        refine ⟨pcm, pc', ht', ?_⟩
        cases hwait : Task.waiting ⟨.write pcm, pc⟩ with
        | none =>
            have hnone := hs.proper.not_waiting hs.offered h ht hwait ht'
            refine ⟨fun hsome ↦ ?_, fun _ ↦ ?_⟩
            · cases hnone.symm.trans hsome
            · rcases hbrings.brought hwait with hall | ⟨e, rfl⟩
              · exact .inl (haccepted.trans hall)
              · rw [hs.proper.done_stays h ht rfl] at ht'
                cases ht'
                exact .inr ⟨e, rfl⟩
        | some pcm' =>
            obtain ⟨_, hcall⟩ := Session.waiting_eq_some hwait
            cases hcall
            have hsum := haccepted ▸ hbrings.waits hwait
            obtain ⟨pc'', ht'', hcase⟩ := hgo t _ pcm ht hwait
            rw [ht'] at ht''
            cases ht''
            refine ⟨fun _ ↦ hsum, fun hnone ↦ ?_⟩
            rcases hcase with hsome | hraised | ⟨rfl, -⟩
            · rw [hnone] at hsome
              cases hsome
            · exact .inr hraised
            · exact .inl ((List.append_nil _).symm.trans hsum)
      · exact haccepted.trans (hk.settled hok hnot)
      · obtain ⟨pc₁, hold⟩ := ha.old_task hs.proper h hfinish (.inr ⟨positive, pad, rfl⟩)
        rw [haccepted]
        exact hk.finishes t positive pad pc₁ hold

end Steps

end

/-! ## The sessions of the calls of `start_siri` -/

namespace AppleTVHomeKitRemote

section

variable {ε T : Type} {r : AppleTVHomeKitRemote ε T} {t sid : Nat}

theorem siriSession?_eq_some :
    r.siriSession? t = some sid ↔
      ∃ k : SiriCall, r.siriCalls[t]? = some k ∧ k.pc = .returned sid := by
  rw [siriSession?]
  cases hk : r.siriCalls[t]? with
  | none => simp
  | some k =>
      rw [Option.map_some]
      cases hpc : k.pc with
      | returned sid' => simp [hpc]
      | _ => simp [hpc]

end

section

variable {ε : Type} {json : JsonText} {opus : OpusEncoder ε}
  {r r' : AppleTVHomeKitRemote ε json.Text} {t sid : Nat}

/-- A call that returned a session has returned it. -/
theorem CallsTurn.siriSession? (h : CallsTurn r r') (hsid : r.siriSession? t = some sid) :
    r'.siriSession? t = some sid := by
  obtain ⟨k, hk, hpc⟩ := siriSession?_eq_some.mp hsid
  refine siriSession?_eq_some.mpr ⟨k, ?_, hpc⟩
  cases h with
  | same h => rw [h, hk]
  | calls k' _ h =>
      rw [h]
      exact getElem?_concat_of_eq_some hk
  | moves t' k' pc hk' hreturned _ _ h =>
      have hne : t' ≠ t := by
        rintro rfl
        rw [hk] at hk'
        cases hk'
        exact hreturned sid hpc
      rw [h, List.getElem?_set_ne hne, hk]

/-- A call that raised has raised. -/
theorem CallsTurn.raised (h : CallsTurn r r') {e : PyErr}
    (ht : r.siriCalls[t]?.map SiriCall.pc = some (.raised e)) :
    r'.siriCalls[t]?.map SiriCall.pc = some (.raised e) := by
  obtain ⟨k, hk, hpc⟩ := Option.map_eq_some_iff.mp ht
  refine Option.map_eq_some_iff.mpr ⟨k, ?_, hpc⟩
  cases h with
  | same h => rw [h, hk]
  | calls k' _ h =>
      rw [h]
      exact getElem?_concat_of_eq_some hk
  | moves t' k' pc hk' _ hraised _ h =>
      have hne : t' ≠ t := by
        rintro rfl
        rw [hk] at hk'
        cases hk'
        exact hraised e hpc
      rw [h, List.getElem?_set_ne hne, hk]

/-- One call at most returns in a step, and what it returns is the session that is new. -/
theorem CallsTurn.returns (h : CallsTurn r r') : ∃ t₀, ∀ t sid, r'.siriSession? t = some sid →
    r.siriSession? t = some sid ∨
      t = t₀ ∧ sid = r.sessions.length ∧ r'.sessions.length = r.sessions.length + 1 ∧
        ∀ e, r.siriCalls[t]?.map SiriCall.pc ≠ some (.raised e) := by
  cases h with
  | same h =>
      refine ⟨0, fun t sid hsid ↦ .inl ?_⟩
      rwa [AppleTVHomeKitRemote.siriSession?, ← h]
  | calls k hstart h =>
      refine ⟨0, fun t sid hsid ↦ .inl ?_⟩
      obtain ⟨k', hk', hpc⟩ := siriSession?_eq_some.mp hsid
      rw [h] at hk'
      rcases getElem?_concat_eq_some.mp hk' with hold | ⟨-, rfl⟩
      · exact siriSession?_eq_some.mpr ⟨k', hold, hpc⟩
      · cases hstart.symm.trans hpc
  | moves t₀ k pc hk _ hraised hsession h =>
      refine ⟨t₀, fun t sid hsid ↦ ?_⟩
      obtain ⟨k', hk', hpc⟩ := siriSession?_eq_some.mp hsid
      rw [h] at hk'
      rcases (getElem?_set_eq_some (lt_length_of_getElem? hk)).mp hk' with
        ⟨rfl, rfl⟩ | ⟨-, hold⟩
      · right
        obtain ⟨hlast, hlength⟩ := hsession sid hpc
        refine ⟨rfl, hlast, hlength, fun e he ↦ ?_⟩
        rw [hk] at he
        exact hraised e (Option.some.inj he)
      · exact .inl (siriSession?_eq_some.mpr ⟨k', hold, hpc⟩)

/-- The calls of `start_siri` are not forgotten. -/
theorem CallsTurn.length_le (h : CallsTurn r r') : r.siriCalls.length ≤ r'.siriCalls.length := by
  cases h with
  | same h => rw [h]
  | calls k _ h =>
      rw [h, List.length_append]
      exact Nat.le_add_right _ _
  | moves t k pc _ _ _ _ h => rw [h, List.length_set]

/-- What holds of the sessions and of the calls that returned them, between two steps. -/
structure Uttered (opus : OpusEncoder ε) (r : AppleTVHomeKitRemote ε json.Text) : Prop where
  utterance : r.SingleUtterance
  attended : r.Attended
  regular : ∀ (sid : Nat) (u : Utterance ε), r.sessions[sid]? = some u → u.session.Regular opus
  fresh : ∀ t sid, r.siriSession? t = some sid → sid < r.sessions.length
  /-- No two calls return one session. -/
  distinct : ∀ t t' sid, r.siriSession? t = some sid → r.siriSession? t' = some sid → t = t'

/-- A session that the controller serves takes steps of its own. -/
theorem Served.progress {s s' : Session ε} (h : Served opus s s') :
    Session.Progress opus s s' := by
  cases h with
  | handleClose reason => exact .single false (.handleClose reason) rfl
  | cancel => exact .single false (.call (.cancel .cancelled)) rfl
  | handleAck cc endOfStream => exact progress_spawn s cc (by rintro ⟨⟩)

theorem progress_of_served {s s' : Session ε} (h : ReflTransGen (Served opus) s s') :
    Session.Progress opus s s' := by
  induction h with
  | refl => exact .refl _
  | tail _ hserved ih => exact Relation.ReflTransGen.trans ih hserved.progress

/-- **Every step keeps what holds of the sessions.** -/
theorem Uttered.step (hr : r.Uttered opus) {a : Label} (h : r.step json opus a = some r') :
    r'.Uttered opus := by
  have hcalls := callsTurn_step h
  have hle : r.sessions.length ≤ r'.sessions.length := by
    by_contra hlt
    obtain ⟨u', hu', -⟩ := served_step h
      (List.getElem?_eq_getElem (l := r.sessions) (i := r'.sessions.length) (by omega))
    exact absurd (lt_length_of_getElem? hu') (Nat.lt_irrefl _)
  obtain ⟨t₀, hreturns⟩ := hcalls.returns
  constructor
  · exact hr.utterance.step h
  · exact hr.attended.step hr.utterance h
  · intro sid u hu
    by_cases hnew : r.sessions.length ≤ sid
    · rw [(started_step h hu hnew).2.1]
      exact Session.regular_start opus
    · obtain ⟨u', hu', -, hgo⟩ := served_step h
        (List.getElem?_eq_getElem (l := r.sessions) (i := sid) (by omega))
      rw [hu] at hu'
      cases hu'
      have hold := hr.regular sid _ (List.getElem?_eq_getElem (by omega))
      rcases hgo with hserved | ⟨b, -, hstep⟩
      · exact (progress_of_served hserved).regular hold
      · exact hold.step hstep
  · intro t sid hsid
    rcases hreturns t sid hsid with hold | ⟨-, rfl, hlength, -⟩
    · exact (hr.fresh t sid hold).trans_le hle
    · omega
  · intro t t' sid hsid hsid'
    rcases hreturns t sid hsid with hold | ⟨rfl, rfl, -, -⟩
    · rcases hreturns t' sid hsid' with hold' | ⟨-, rfl, -, -⟩
      · exact hr.distinct t t' sid hold hold'
      · exact absurd (hr.fresh t _ hold) (Nat.lt_irrefl _)
    · rcases hreturns t' _ hsid' with hold' | ⟨rfl, -, -, -⟩
      · exact absurd (hr.fresh t' _ hold') (Nat.lt_irrefl _)
      · rfl

theorem Uttered.exec (hr : r.Uttered opus) {file : Option json.Text} {bs : List Label}
    (h : (remotes json opus file).exec r bs = some r') : r'.Uttered opus := by
  induction bs generalizing r with
  | nil => exact Option.some.inj h ▸ hr
  | cons b bs ih =>
      obtain ⟨b, hstep, hrest⟩ := Option.bind_eq_some_iff.mp h
      exact ih (hr.step hstep) hrest

theorem uttered_new (opus : OpusEncoder ε) (file : Option json.Text) :
    (new json file : AppleTVHomeKitRemote ε json.Text).Uttered opus where
  utterance := singleUtterance_new file
  attended := ⟨rfl, fun sid ↦ ⟨by rintro ⟨⟩, by rintro ⟨⟩⟩⟩
  regular _ _ h := by cases h
  fresh _ _ h := by cases h
  distinct _ _ _ h := by cases h

end

end AppleTVHomeKitRemote

/-! ## Steps of the controller -/

section

open AppleTVHomeKitRemote

variable {ε : Type} {json : JsonText} {opus : OpusEncoder ε}
  {r r' : AppleTVHomeKitRemote ε json.Text} {k : SendCall}

theorem Follows.served {s s' : Session ε} (hk : Follows k s) (hs : s.Regular opus)
    (h : Served opus s s') : Follows k s' := by
  cases h with
  | handleClose reason =>
      have hstep : s.step opus false (.handleClose reason) = some (s.handleClose reason) := rfl
      exact hk.step (a := .handleClose reason) hs trivial hstep
  | cancel =>
      have hstep : s.step opus false (.call (.cancel .cancelled)) =
          some (s.spawn (.cancel .cancelled)) := rfl
      exact hk.step (a := .call (.cancel .cancelled)) hs trivial hstep
  | handleAck cc endOfStream =>
      have hcall : s.step opus cc (.call (.handleAck endOfStream)) =
          some (s.spawn (.handleAck endOfStream)) := rfl
      have hrun : (s.spawn (.handleAck endOfStream)).step opus cc (.run s.tasks.length) =
          some ((s.spawn (.handleAck endOfStream)).begin opus cc s.tasks.length
            (.handleAck endOfStream)) := by
        have htask : (s.spawn (.handleAck endOfStream)).tasks[s.tasks.length]? =
            some ⟨.handleAck endOfStream, .start⟩ := getElem?_concat_length _
        simp only [Session.step, htask, Option.bind_some, Session.runTask]
      have hcalled := hk.step (a := .call (.handleAck endOfStream)) hs trivial hcall
      exact hcalled.step (a := .run s.tasks.length) (hs.step hcall) trivial hrun

/-- Where a call of `send_pcm` is with the controller. -/
structure Speaks (r : AppleTVHomeKitRemote ε json.Text) (k : SendCall) : Prop where
  called : k.siri < r.siriCalls.length
  session : ∀ sid, k.pc.session? = some sid → r.siriSession? k.siri = some sid
  cancels : ∀ sid t, k.cancelTask = some (sid, t) → r.siriSession? k.siri = some sid
  silent : r.siriSession? k.siri = none → k.written = [] ∧ (k.pc = .starting ∨
    ∃ e, k.pc = .raised e ∧ r.siriCalls[k.siri]?.map SiriCall.pc = some (.raised e))
  follows : ∀ sid, r.siriSession? k.siri = some sid →
    ∃ u : Utterance ε, r.sessions[sid]? = some u ∧ Follows k u.session
  sourced : ∀ pcm realtime, k.source = .raw pcm realtime → k.written <+: pcm

/-- A session that is new has nothing of the call that started it. -/
theorem follows_new (opus : OpusEncoder ε) (hwritten : k.written = []) (hpc : k.pc = .starting)
    (hcancel : k.cancelTask = none) : Follows k (Session.new opus.init).start := by
  have htask : ∀ (t : Nat) (k' : Task), (Session.new opus.init).start.tasks[t]? = some k' →
      k' = ⟨.open, .start⟩ := by
    intro t k' ht
    exact List.mem_singleton.mp (List.mem_of_getElem? ht)
  exact {
    waits := fun t k' ht hwaits ↦ by
      rw [htask t k' ht] at hwaits
      cases hwaits
    brings := fun _ _ heq ↦ by cases hpc.symm.trans heq
    accepted := List.nil_prefix
    settled := fun _ _ ↦ hwritten.symm
    finishes := fun t _ _ _ ht ↦ by cases htask t _ ht
    finishing := fun t _ _ _ ht ↦ by cases htask t _ ht
    awaits := fun _ _ heq ↦ by cases hpc.symm.trans heq
    returned := fun heq ↦ by cases hpc.symm.trans heq
    cancels := fun _ _ heq ↦ by cases hcancel.symm.trans heq
    failed := by
      rw [hpc, hcancel]
      rfl }

/-- **A step that is not the call's leaves it where it is.** -/
theorem Speaks.step (hk : Speaks r k) (hr : r.Uttered opus) {a : Label}
    (h : r.step json opus a = some r')
    (ha : ∀ (sid : Nat) (u : Utterance ε) (b : Session.Label), r.siriSession? k.siri = some sid →
      r.sessions[sid]? = some u → a.Names sid b → k.Leaves u.session b) :
    Speaks r' k := by
  have hcalls := callsTurn_step h
  have hnone : r'.siriSession? k.siri = none → r.siriSession? k.siri = none := by
    intro hnone
    cases hsid : r.siriSession? k.siri with
    | none => rfl
    | some sid => cases hnone.symm.trans (hcalls.siriSession? hsid)
  constructor
  · exact hk.called.trans_le hcalls.length_le
  · exact fun sid hpc ↦ hcalls.siriSession? (hk.session sid hpc)
  · exact fun sid t hcancel ↦ hcalls.siriSession? (hk.cancels sid t hcancel)
  · intro hsid
    obtain ⟨hwritten, hpc⟩ := hk.silent (hnone hsid)
    exact ⟨hwritten, hpc.imp_right fun ⟨e, hpc, hraised⟩ ↦ ⟨e, hpc, hcalls.raised hraised⟩⟩
  · intro sid hsid
    obtain ⟨t₀, hreturns⟩ := hcalls.returns
    rcases hreturns k.siri sid hsid with hold | ⟨-, rfl, hlength, hraised⟩
    · obtain ⟨u, hu, hfollows⟩ := hk.follows sid hold
      obtain ⟨u', hu', -, hgo⟩ := served_step h hu
      refine ⟨u', hu', ?_⟩
      have hregular := hr.regular sid u hu
      rcases hgo with hserved | ⟨b, hnames, hstep⟩
      · obtain ⟨hkept, -⟩ : Follows k u'.session ∧ u'.session.Regular opus := by
          generalize u'.session = s' at hserved
          induction hserved with
          | refl => exact ⟨hfollows, hregular⟩
          | tail _ hserved ih => exact ⟨ih.1.served ih.2 hserved, hserved.progress.regular ih.2⟩
        exact hkept
      · exact hfollows.step hregular (ha sid u b hold hu hnames) hstep
    · -- the call's own session was just started
      cases hsid' : r.siriSession? k.siri with
      | some sid =>
          have hkept := hcalls.siriSession? hsid'
          rw [hsid] at hkept
          cases hkept
          exact absurd (hr.fresh k.siri _ hsid') (Nat.lt_irrefl _)
      | none =>
          obtain ⟨hwritten, hpc⟩ := hk.silent hsid'
          have hstarting : k.pc = .starting :=
            hpc.resolve_right fun ⟨e, _, he⟩ ↦ hraised e he
          have hcancel : k.cancelTask = none := by
            cases hcancel : k.cancelTask with
            | none => rfl
            | some p => cases hsid'.symm.trans (hk.cancels p.1 p.2 hcancel)
          have hu := List.getElem?_eq_getElem (l := r'.sessions) (i := r.sessions.length) (by omega)
          refine ⟨_, hu, ?_⟩
          rw [(started_step h hu le_rfl).2.1]
          exact follows_new opus hwritten hstarting hcancel
  · exact hk.sourced

end

end AtvRemote.Remote
