import AtvRemote.Audio.Exits

/-!
# What a session takes in

The PCM of a `write` that waits is taken whole by the step in which the `write` enters its
block, and by no other (`Proper.intake`).  What a client may conclude from it is that of the
client: one that awaits its calls has handed over what the session accepted, in order.
-/

namespace AtvRemote.Audio

open Lib

namespace Session

variable {ε : Type}

/-! ## The accepted PCM -/

section Accepted

variable (s : Session ε) (cc : Bool) (t : Nat)

theorem accepted_flushReturned (who : Flusher) : (s.flushReturned t who).accepted = s.accepted := by
  cases who <;> rfl

theorem accepted_flushLoop (streamId : Int) (force : Bool) (who : Flusher) :
    (s.flushLoop t streamId force who).accepted = s.accepted := by
  rw [flushLoop]
  split
  · rfl
  · split
    · rfl
    · exact s.accepted_flushReturned t who

theorem accepted_flush (force : Bool) (who : Flusher) :
    (s.flush t force who).accepted = s.accepted := by
  rw [flush.eq_def]
  split
  · exact s.accepted_flushReturned t who
  · split
    · exact s.accepted_flushReturned t who
    · exact s.accepted_flushLoop t _ force who

theorem accepted_flushResume (force isEos : Bool) (who : Flusher) :
    (s.flushResume t force isEos who).accepted = s.accepted := by
  rw [flushResume.eq_def]
  split
  · exact accepted_flushReturned _ t who
  · split
    · exact s.accepted_flushLoop t _ force who
    · exact s.accepted_flushReturned t who

theorem accepted_flushRaised (e : PyErr) (who : Flusher) :
    (s.flushRaised t e who).accepted = s.accepted := by
  cases who <;> rfl

theorem accepted_closeReturned (who : Closer) : (s.closeReturned t who).accepted = s.accepted := by
  cases who <;> rfl

theorem accepted_closeRaised (e : PyErr) (who : Closer) :
    (s.closeRaised t e who).accepted = s.accepted := by
  cases who <;> rfl

theorem accepted_sendClose (reason : HDSCloseReason) (who : Closer) :
    (s.sendClose cc t reason who).accepted = s.accepted := by
  rcases s.sendClose_cases cc t reason who with ⟨_, -, heq⟩ | ⟨-, heq⟩
  · rw [heq]
    rfl
  · rw [heq]
    exact s.accepted_closeReturned t who

theorem accepted_cancelOpened (reason : HDSCloseReason) :
    (s.cancelOpened cc t reason).accepted = s.accepted := by
  rw [cancelOpened]
  split
  · exact s.accepted_sendClose cc t reason .cancel
  · rfl

theorem accepted_waitRaised (e : PyErr) : (s.waitRaised cc t e).accepted = s.accepted := by
  rw [waitRaised]
  split
  · exact s.accepted_sendClose cc t .timeout .timeout
  · rfl

theorem accepted_finishOpened : (s.finishOpened t).accepted = s.accepted := by
  rw [finishOpened]
  split
  · split <;> rfl
  · split
    · exact accepted_flush _ t true .finish
    · rfl

theorem accepted_finishDrained : (s.finishDrained t).accepted = s.accepted := by
  rw [finishDrained.eq_def]
  split
  · exact s.accepted_finishOpened t
  · exact s.accepted_finishOpened t
  · rfl
  · rfl

theorem accepted_drainBuffer (opus : OpusEncoder ε) (pad : Bool) :
    (s.drainBuffer opus pad).accepted = s.accepted := by
  rw [drainBuffer]
  split
  · rfl
  · dsimp only
    split
    · rfl
    · split <;> rfl

/-- A block other than that of `write` takes nothing. -/
theorem accepted_locked (opus : OpusEncoder ε) {use : LockUse} (huse : ∀ pcm, use ≠ .write pcm) :
    (s.locked opus t use).accepted = s.accepted := by
  cases use with
  | openFlush => exact s.accepted_flush t s.ending .open
  | write pcm => exact absurd rfl (huse pcm)
  | finishDrain pad =>
      exact (accepted_finishDrained _ t).trans (s.accepted_drainBuffer opus pad)
  | finishFlush => exact s.accepted_flush t true .finish

theorem accepted_acquire (opus : OpusEncoder ε) {use : LockUse} (huse : ∀ pcm, use ≠ .write pcm) :
    (s.acquire opus t use).accepted = s.accepted := by
  rw [acquire]
  split
  · exact accepted_locked _ t opus huse
  · rfl

theorem accepted_openResponse (opus : OpusEncoder ε) (status : Int) (message : List (Obj × Obj))
    (onOpen : Option PyErr) :
    (s.openResponse opus cc t status message onOpen).accepted = s.accepted := by
  rw [openResponse.eq_def]
  dsimp only
  split
  · rfl
  · split
    · exact accepted_sendClose _ cc t _ .open
    · exact accepted_acquire _ t opus (by rintro pcm ⟨⟩)

theorem accepted_begin (opus : OpusEncoder ε) {c : Call} (hc : ∀ pcm, c ≠ .write pcm) :
    (s.begin opus cc t c).accepted = s.accepted := by
  cases c with
  | «open» => rfl
  | write pcm => exact absurd rfl (hc pcm)
  | finish timeoutPositive pad =>
      rw [begin.eq_def]
      dsimp only
      split
      · rfl
      · split
        · split <;> rfl
        · exact s.accepted_acquire t opus (by rintro pcm ⟨⟩)
  | cancel reason =>
      rw [begin.eq_def]
      dsimp only
      split
      · rfl
      · split
        · rfl
        · exact accepted_cancelOpened _ cc t reason
  | handleAck endOfStream =>
      rw [begin.eq_def]
      dsimp only
      split
      · rfl
      · exact s.accepted_sendClose cc t .normal .ack

theorem accepted_handleClose (reason : Int) : (s.handleClose reason).accepted = s.accepted := by
  rcases s.handleClose_cases reason with ⟨-, heq⟩ | ⟨-, heq⟩
  · rw [heq]
    rfl
  · rw [heq]
    rfl

end Accepted

/-! ## Steps -/

/-- A `write` waits with the PCM that it was called with. -/
def Offered (s : Session ε) : Prop :=
  ∀ k ∈ s.tasks, ∀ pcm pcm', k = ⟨.write pcm, .awaitLock (.write pcm')⟩ → pcm' = pcm

section Steps

variable {opus : OpusEncoder ε} {s s' : Session ε} {cc : Bool} {a : Label} {t : Nat} {k : Task}
  {pcm : Bytes} {pc : Pc}

/-- The block of `write` raises, or takes its PCM. -/
theorem writeLocked_cases (opus : OpusEncoder ε) (s : Session ε) (t : Nat) (pcm : Bytes) :
    (∃ e, s.writeLocked opus t pcm = s.release.goto t (.raised e)) ∨
      s.ending = false ∧ s.closed = false ∧ ∃ (b : Session ε) (pc : Pc),
        s.writeLocked opus t pcm = b.goto t pc ∧ b.tasks = s.tasks ∧
        b.accepted = s.accepted ++ pcm ∧ (pc = .returned ∨ pc.flushing = true) := by
  rw [writeLocked]
  split
  · exact .inl ⟨_, rfl⟩
  · next hgo =>
    simp only [Bool.or_eq_true, not_or, Bool.not_eq_true] at hgo
    refine .inr ⟨hgo.1, hgo.2, ?_⟩
    dsimp only
    split
    · rcases (s.buffer opus pcm).flush_cases t false .write with ⟨streamId, -, -, -, h⟩ | heq
      · generalize hs' : (s.buffer opus pcm).flush t false .write = s' at h
        cases h with
        | due => exact ⟨_, _, rfl, rfl, rfl, .inr rfl⟩
        | eos hforce => cases hforce
      · rw [heq]
        exact ⟨_, _, rfl, rfl, rfl, .inl rfl⟩
    · exact ⟨_, _, rfl, rfl, rfl, .inl rfl⟩

/-- What a step makes of the PCM of the calls of `write` that wait. -/
inductive Intake (s : Session ε) (a : Label) (s' : Session ε) : Prop
  /-- A `write` enters its block, and its PCM is taken. -/
  | takes (t : Nat) (pcm : Bytes) (pc pc' : Pc) (ha : a = .run t)
      (ht : s.tasks[t]? = some ⟨.write pcm, pc⟩) (hwaits : Task.waiting ⟨.write pcm, pc⟩ = some pcm)
      (hgo : s.ending = false) (haccepted : s'.accepted = s.accepted ++ pcm)
      (ht' : s'.tasks[t]? = some ⟨.write pcm, pc'⟩) (hpc : pc' = .returned ∨ pc'.flushing = true)
  /-- Nothing is taken; a `write` that waits may give up, or have nothing to bring. -/
  | leaves (haccepted : s'.accepted = s.accepted)
      (hwaits : ∀ (t : Nat) (k : Task) (pcm : Bytes), s.tasks[t]? = some k →
        k.waiting = some pcm → ∃ pc, s'.tasks[t]? = some ⟨k.call, pc⟩ ∧
          (Task.waiting ⟨k.call, pc⟩ = some pcm ∨ (∃ e, pc = .raised e) ∨
            pcm = [] ∧ pc = .returned))

/-- Where a step leaves a call of `write`, and what it takes. -/
inductive WriteTurn (s : Session ε) (a : Label) (t : Nat) (pcm : Bytes) (pc : Pc) :
    Session ε → Prop
  | takes (b : Session ε) (pc' : Pc) (htasks : b.tasks = s.tasks) (ha : a = .run t)
      (hwaits : Task.waiting ⟨.write pcm, pc⟩ = some pcm) (hgo : s.ending = false)
      (haccepted : b.accepted = s.accepted ++ pcm)
      (hpc : pc' = .returned ∨ pc'.flushing = true) : WriteTurn s a t pcm pc (b.goto t pc')
  | waits (b : Session ε) (pc' : Pc) (htasks : b.tasks = s.tasks)
      (hwaits : Task.waiting ⟨.write pcm, pc⟩ = some pcm) (haccepted : b.accepted = s.accepted)
      (hpc : pc' = .awaitLock (.write pcm) ∨ (∃ e, pc' = .raised e) ∨
        pcm = [] ∧ pc' = .returned) : WriteTurn s a t pcm pc (b.goto t pc')
  | goesOn (b : Session ε) (pc' : Pc) (htasks : b.tasks = s.tasks)
      (hwaits : Task.waiting ⟨.write pcm, pc⟩ = none) (haccepted : b.accepted = s.accepted)
      (hpc : pc'.flushing = true ∨ pc'.done = true) : WriteTurn s a t pcm pc (b.goto t pc')

/-- A `write` that has the lock. -/
theorem writeTurn_locked (hwaits : Task.waiting ⟨.write pcm, pc⟩ = some pcm) :
    WriteTurn s (.run t) t pcm pc ((s.hold t).writeLocked opus t pcm) := by
  rcases (s.hold t).writeLocked_cases opus t pcm with
    ⟨e, heq⟩ | ⟨hgo, -, b, pc', heq, htasks, haccepted, hpc⟩
  · rw [heq]
    exact .waits _ _ rfl hwaits rfl (.inr (.inl ⟨e, rfl⟩))
  · rw [heq]
    exact .takes b pc' htasks rfl hwaits hgo haccepted hpc

theorem writeTurn_begin (cc : Bool) :
    WriteTurn s (.run t) t pcm .start (s.begin opus cc t (.write pcm)) := by
  rw [begin.eq_def]
  dsimp only
  split
  · next hempty =>
    exact .waits s _ rfl rfl rfl (.inr (.inr ⟨List.isEmpty_iff.mp hempty, rfl⟩))
  · rw [acquire]
    split
    · exact writeTurn_locked rfl
    · exact .waits s _ rfl rfl rfl (.inl rfl)

theorem writeTurn_flushLoop {b : Session ε} (htasks : b.tasks = s.tasks)
    (hwaits : Task.waiting ⟨.write pcm, pc⟩ = none) (haccepted : b.accepted = s.accepted)
    (streamId : Int) (force : Bool) :
    WriteTurn s a t pcm pc (b.flushLoop t streamId force .write) := by
  rcases b.flushLoop_cases t streamId force .write with h | heq
  · generalize b.flushLoop t streamId force .write = s' at h
    cases h with
    | due => exact .goesOn _ _ htasks hwaits haccepted (.inl rfl)
    | eos => exact .goesOn _ _ htasks hwaits haccepted (.inl rfl)
  · rw [heq]
    exact .goesOn b.release _ htasks hwaits haccepted (.inr rfl)

/-- **A call of `write` moves.** -/
theorem Proper.writeTurn (hs : s.Proper) (ho : s.Offered) (h : s.step opus cc a = some s')
    (ha : a.task = some t) (ht : s.tasks[t]? = some ⟨.write pcm, pc⟩) :
    WriteTurn s a t pcm pc s' := by
  have hmem := List.mem_of_getElem? ht
  have hfits := hs.fits _ hmem
  have hpc : s.pc? t = some pc := Option.map_eq_some_iff.mpr ⟨_, ht, rfl⟩
  cases a with
  | run t' =>
      cases ha
      simp only [Session.step, ht, Option.bind_some] at h
      cases pc with
      | start =>
          cases h
          exact writeTurn_begin cc
      | awaitLock use =>
          cases use with
          | write pcm' =>
              obtain rfl := ho _ hmem pcm pcm' rfl
              simp only [runTask] at h
              split at h
              · cases h
                exact writeTurn_locked rfl
              · cases h
          | _ => exact hfits.elim
      | awaitResponse | awaitOpen | awaitDone | awaitShielded => exact hfits.elim
      | sending send phase =>
          rw [runTask.eq_def] at h
          cases h
      | returned => cases h
      | raised e => cases h
  | response t' status message onOpen =>
      cases ha
      simp only [Session.step, hpc] at h
      split at h
      · next hawait =>
        cases hawait
        exact hfits.elim
      · cases h
  | sent t' =>
      cases ha
      simp only [Session.step, hpc] at h
      split at h
      · next send hsend =>
        cases hsend
        split at h
        · cases h
        · cases h
          cases send with
          | data => exact .goesOn _ _ rfl rfl rfl (.inl rfl)
          | request => exact hfits.elim
          | close => cases Task.fits_close.mp hfits
      · cases h
  | resume t' =>
      cases ha
      simp only [Session.step, hpc, Option.bind_some] at h
      rw [resumeTask.eq_def] at h
      split at h
      · exact hfits.elim
      · next packets streamId isEos force who =>
        cases h
        obtain rfl : who = .write := (Option.some.inj (Task.fits_data.mp hfits)).symm
        rw [flushResume.eq_def]
        split
        · exact .goesOn _ _ rfl rfl rfl (.inr rfl)
        · split
          · exact writeTurn_flushLoop rfl rfl rfl _ force
          · exact .goesOn s.release _ rfl rfl rfl (.inr rfl)
      · cases Task.fits_close.mp hfits
      · cases h
  | fail t' e =>
      cases ha
      simp only [Session.step, hpc, Option.bind_some] at h
      rw [failTask.eq_def] at h
      split at h
      · split at h
        · cases h
          exact .waits s _ rfl rfl rfl (.inr (.inl ⟨e, rfl⟩))
        · cases h
      · exact hfits.elim
      · split at h
        · cases h
          exact .waits s _ rfl rfl rfl (.inr (.inl ⟨e, rfl⟩))
        · cases h
      · exact hfits.elim
      · exact hfits.elim
      · exact hfits.elim
      · next send phase =>
        cases send with
        | request => exact hfits.elim
        | data packets streamId isEos force who =>
            obtain rfl : who = .write := (Option.some.inj (Task.fits_data.mp hfits)).symm
            cases h
            exact .goesOn (s.record _).release _ rfl rfl rfl (.inr rfl)
        | close => cases Task.fits_close.mp hfits
      · cases h
  | timeout t' =>
      cases ha
      simp only [Session.step, hpc] at h
      split at h
      · next hawait =>
        cases hawait
        exact hfits.elim
      · next hawait =>
        cases hawait
        exact hfits.elim
      · cases h
  | _ => cases ha

/-- A task of another call takes nothing. -/
theorem Proper.accepted_step (hs : s.Proper) (h : s.step opus cc a = some s')
    (hc : ∀ t k, a.task = some t → s.tasks[t]? = some k → ∀ pcm, k.call ≠ .write pcm) :
    s'.accepted = s.accepted := by
  cases a with
  | start =>
      cases h
      rw [Session.start]
      split <;> rfl
  | call c =>
      cases c with
      | «open» => cases h
      | _ =>
          cases h
          rfl
  | run t =>
      obtain ⟨⟨c, pc⟩, ht, hrun⟩ := Option.bind_eq_some_iff.mp h
      have hc := hc t _ rfl ht
      have hfits := hs.fits _ (List.mem_of_getElem? ht)
      rw [runTask.eq_def] at hrun
      dsimp only at hrun
      split at hrun
      · cases hrun
        exact s.accepted_begin cc t opus hc
      · next use =>
        split at hrun
        · cases hrun
          refine accepted_locked (s.hold t) t opus ?_
          rintro pcm rfl
          cases c with
          | write pcm' => exact hc pcm' rfl
          | _ => exact hfits.elim
        · cases hrun
      · split at hrun
        · cases hrun
          exact s.accepted_finishOpened t
        · cases hrun
          rfl
        · cases hrun
      · split at hrun
        · split at hrun
          · cases hrun
            exact s.accepted_waitRaised cc t _
          · cases hrun
            rfl
        · cases hrun
      · split at hrun
        · cases hrun
          exact s.accepted_cancelOpened cc t _
        · cases hrun
          rfl
        · cases hrun
      · cases hrun
  | response t status message onOpen =>
      simp only [Session.step] at h
      split at h
      · cases h
        exact s.accepted_openResponse cc t opus status message onOpen
      · cases h
  | sent t =>
      simp only [Session.step] at h
      split at h
      · split at h
        · cases h
        · cases h
          rfl
      · cases h
  | resume t =>
      obtain ⟨pc, -, hrun⟩ := Option.bind_eq_some_iff.mp h
      rw [resumeTask.eq_def] at hrun
      split at hrun
      · cases hrun
        rfl
      · cases hrun
        exact s.accepted_flushResume t _ _ _
      · cases hrun
        exact accepted_closeReturned _ t _
      · cases hrun
  | fail t e =>
      obtain ⟨pc, -, hrun⟩ := Option.bind_eq_some_iff.mp h
      rw [failTask.eq_def] at hrun
      split at hrun
      · split at hrun
        · cases hrun
          rfl
        · cases hrun
      · split at hrun
        · cases hrun
          rfl
        · cases hrun
      · split at hrun
        · cases hrun
          rfl
        · cases hrun
      · cases hrun
        rfl
      · split at hrun
        · cases hrun
          rfl
        · cases hrun
      · split at hrun
        · cases hrun
          rfl
        · cases hrun
      · next send _ =>
        cases send with
        | request =>
            cases hrun
            rfl
        | data packets streamId isEos force who =>
            cases hrun
            exact accepted_flushRaised _ t e who
        | close streamId reason who =>
            cases hrun
            exact accepted_closeRaised _ t e who
      · cases hrun
  | timeout t =>
      simp only [Session.step] at h
      split at h
      · cases h
        exact s.accepted_waitRaised cc t _
      · cases h
        rfl
      · cases h
  | handleClose reason =>
      cases h
      exact s.accepted_handleClose reason

/-- A task that is there stays, and keeps its call; only one moves. -/
theorem Proper.stays (hs : s.Proper) (h : s.step opus cc a = some s')
    (ht : s.tasks[t]? = some k) :
    ∃ pc, s'.tasks[t]? = some ⟨k.call, pc⟩ ∧ (a.task ≠ some t → pc = k.pc) := by
  have hkept : ∀ {c : Call}, (s.tasks ++ [⟨c, .start⟩])[t]? = some k :=
    getElem?_concat_eq_some.mpr (.inl ht)
  rcases hs.turn_cases h with
    ⟨-, rfl⟩ | ⟨c, -, -, rfl⟩ | ⟨reason, -, rfl⟩ | ⟨t', k', ha, ht', hturn⟩
  · rw [Session.start]
    split
    · exact ⟨k.pc, hkept, fun _ ↦ rfl⟩
    · exact ⟨k.pc, ht, fun _ ↦ rfl⟩
  · exact ⟨k.pc, hkept, fun _ ↦ rfl⟩
  · rcases s.handleClose_cases reason with ⟨-, heq⟩ | ⟨-, heq⟩
    · rw [heq]
      exact ⟨k.pc, ht, fun _ ↦ rfl⟩
    · rw [heq]
      exact ⟨k.pc, ht, fun _ ↦ rfl⟩
  · by_cases heq : t = t'
    · subst heq
      rw [ht] at ht'
      cases ht'
      obtain ⟨pc, hself⟩ := hturn.self ht
      exact ⟨pc, hself, fun hne ↦ absurd ha hne⟩
    · exact ⟨k.pc, (hturn.others heq).trans ht, fun _ ↦ rfl⟩

theorem waiting_eq_some (h : k.waiting = some pcm) : ∃ pc, k = ⟨.write pcm, pc⟩ := by
  rw [Task.waiting.eq_def] at h
  split at h
  · cases h
    exact ⟨_, rfl⟩
  · cases h
    exact ⟨_, rfl⟩
  · cases h

/-- **What a step takes in.** -/
theorem Proper.intake (hs : s.Proper) (ho : s.Offered) (h : s.step opus cc a = some s') :
    Intake s a s' := by
  -- the calls of `write` that do not move wait on
  have hothers : ∀ (t : Nat) (k : Task) (pcm : Bytes), a.task ≠ some t →
      s.tasks[t]? = some k → k.waiting = some pcm → ∃ pc, s'.tasks[t]? = some ⟨k.call, pc⟩ ∧
        (Task.waiting ⟨k.call, pc⟩ = some pcm ∨ (∃ e, pc = .raised e) ∨
          pcm = [] ∧ pc = .returned) := by
    intro t k pcm hne ht hwaits
    obtain ⟨pc, ht', hsame⟩ := hs.stays h ht
    obtain rfl := hsame hne
    exact ⟨k.pc, ht', .inl hwaits⟩
  by_cases hmoves : ∃ t pcm pc, a.task = some t ∧ s.tasks[t]? = some ⟨.write pcm, pc⟩
  · obtain ⟨t, pcm, pc, ha, ht⟩ := hmoves
    have hturn := hs.writeTurn ho h ha ht
    cases hturn with
    | takes b pc' htasks harun hwaits hgo haccepted hpc =>
        exact .takes t pcm pc pc' harun ht hwaits hgo haccepted (getElem?_goto_self ht htasks) hpc
    | waits b pc' htasks hwaits haccepted hpc =>
        refine .leaves haccepted fun t' k' pcm' ht' hwaits' ↦ ?_
        by_cases heq : t' = t
        · subst heq
          rw [ht] at ht'
          cases ht'
          obtain rfl : pcm = pcm' := Option.some.inj (hwaits.symm.trans hwaits')
          refine ⟨pc', getElem?_goto_self ht htasks, hpc.imp_left ?_⟩
          rintro rfl
          rfl
        · refine hothers t' k' pcm' ?_ ht' hwaits'
          rw [ha]
          exact fun hsame ↦ heq (Option.some.inj hsame).symm
    | goesOn b pc' htasks hwaits haccepted hpc =>
        refine .leaves haccepted fun t' k' pcm' ht' hwaits' ↦ ?_
        by_cases heq : t' = t
        · subst heq
          rw [ht] at ht'
          cases ht'
          rw [hwaits] at hwaits'
          cases hwaits'
        · refine hothers t' k' pcm' ?_ ht' hwaits'
          rw [ha]
          exact fun hsame ↦ heq (Option.some.inj hsame).symm
  · refine .leaves (hs.accepted_step h fun t k ha ht pcm hcall ↦ ?_) fun t k pcm ht hwaits ↦ ?_
    · obtain ⟨c, pc⟩ := k
      obtain rfl : c = .write pcm := hcall
      exact hmoves ⟨t, pcm, pc, ha, ht⟩
    · refine hothers t k pcm (fun ha ↦ ?_) ht hwaits
      obtain ⟨pc, rfl⟩ := waiting_eq_some hwaits
      exact hmoves ⟨t, pcm, pc, ha, ht⟩

theorem waiting_of_ne (hc : ∀ pcm, k.call ≠ .write pcm) : k.waiting = none := by
  cases hwaits : k.waiting with
  | none => rfl
  | some pcm =>
      obtain ⟨pc, rfl⟩ := waiting_eq_some hwaits
      exact absurd rfl (hc pcm)

theorem waiting_of_flushing {c : Call} (hpc : pc.flushing = true ∨ pc.done = true) :
    Task.waiting ⟨c, pc⟩ = none := by
  cases hwaits : Task.waiting ⟨c, pc⟩ with
  | none => rfl
  | some pcm =>
      rw [Task.waiting.eq_def] at hwaits
      split at hwaits
      · next heq =>
        cases heq
        rcases hpc with ⟨⟨⟩⟩ | ⟨⟨⟩⟩
      · next heq =>
        cases heq
        rcases hpc with ⟨⟨⟩⟩ | ⟨⟨⟩⟩
      · cases hwaits

/-- The task that moves is there. -/
theorem Proper.moves (hs : s.Proper) (h : s.step opus cc a = some s') (ha : a.task = some t) :
    ∃ k : Task, s.tasks[t]? = some k := by
  rcases hs.turn_cases h with ⟨rfl, -⟩ | ⟨c, rfl, -⟩ | ⟨reason, rfl, -⟩ | ⟨t', k, ha', ht, -⟩
  · cases ha
  · cases ha
  · cases ha
  · rw [ha] at ha'
    cases ha'
    exact ⟨k, ht⟩

/-- A task that does not wait with its PCM never will. -/
theorem Proper.not_waiting (hs : s.Proper) (ho : s.Offered) (h : s.step opus cc a = some s')
    (ht : s.tasks[t]? = some k) (hwaits : k.waiting = none) {k' : Task}
    (ht' : s'.tasks[t]? = some k') : k'.waiting = none := by
  obtain ⟨pc', hstays, hsame⟩ := hs.stays h ht
  rw [ht'] at hstays
  cases hstays
  obtain ⟨c, pc⟩ := k
  by_cases ha : a.task = some t
  · cases c with
    | write pcm =>
        have hturn := hs.writeTurn ho h ha ht
        cases hturn with
        | takes b pc'' htasks _ hw => cases hw.symm.trans hwaits
        | waits b pc'' htasks hw => cases hw.symm.trans hwaits
        | goesOn b pc'' htasks _ _ hpc =>
            rw [getElem?_goto_self ht htasks] at ht'
            cases ht'
            exact waiting_of_flushing hpc
    | _ => exact waiting_of_ne (by rintro pcm ⟨⟩)
  · rw [hsame ha]
    exact hwaits

/-- The calls that wait keep their PCM. -/
theorem Proper.offered (hs : s.Proper) (ho : s.Offered) (h : s.step opus cc a = some s') :
    s'.Offered := by
  rintro _ hmem pcm pcm' rfl
  obtain ⟨t, ht'⟩ := List.mem_iff_getElem?.mp hmem
  by_cases ha : a.task = some t
  · obtain ⟨⟨c, pc⟩, ht⟩ := hs.moves h ha
    obtain ⟨pc', hstays, -⟩ := hs.stays h ht
    rw [ht'] at hstays
    cases hstays
    have hturn := hs.writeTurn ho h ha ht
    cases hturn with
    | takes b pc'' htasks _ _ _ _ hpc =>
        rw [getElem?_goto_self ht htasks] at ht'
        cases ht'
        cases hpc with
        | inl h => cases h
        | inr h => cases h
    | waits b pc'' htasks _ _ hpc =>
        rw [getElem?_goto_self ht htasks] at ht'
        cases ht'
        rcases hpc with hpc | ⟨e, hpc⟩ | ⟨-, hpc⟩
        · cases hpc
          rfl
        · cases hpc
        · cases hpc
    | goesOn b pc'' htasks _ _ hpc =>
        rw [getElem?_goto_self ht htasks] at ht'
        cases ht'
        cases hpc with
        | inl h => cases h
        | inr h => cases h
  · rcases hs.others h ht' ha with hold | hstart
    · exact ho _ (List.mem_of_getElem? hold) pcm pcm' rfl
    · cases hstart

end Steps

end Session

end AtvRemote.Audio
