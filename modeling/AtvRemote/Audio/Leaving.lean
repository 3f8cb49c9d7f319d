import AtvRemote.Audio.Delivered
import AtvRemote.Audio.Intake

/-!
# What a cancel leaves

A session that was told to cancel is closed, or is about to be: its open request is
unanswered, or a close is on its way (`Leaving`).  So nothing is left of it when its tasks are
done.  What could undo this is an open task that is cancelled before it has begun, which closes
nothing; only who awaits the open task cancels it, and that is `finish` (`Unbegun`).

What ends a stream is a cancel or a `finish`, and a `finish` that returned leaves the session
closed (`Ends`).
-/

namespace AtvRemote.Audio

open Lib

namespace Session

variable {ε : Type}

/-! ## The open task -/

/-- The open task runs `_open`, and no other task does. -/
def Opener (s : Session ε) : Prop :=
  ∀ t, s.openTask = some t ↔ ∃ pc, s.tasks[t]? = some ⟨.open, pc⟩

section Steps

variable {opus : OpusEncoder ε} {s s' b : Session ε} {cc : Bool} {a : Label} {t : Nat} {k : Task}
  {pc : Pc}

theorem Begins.openTask (h : Begins s a t k b) : b.openTask = s.openTask := by
  cases h with
  | runs b h => exact h.openTask
  | cancels => rfl
  | opens => rfl

theorem Outcome.openTask (h : Outcome b cc t k s') : s'.openTask = b.openTask := by
  cases h with
  | rests d pc h => exact h.openTask
  | event d _ _ _ _ _ h => exact h.openTask
  | close => rfl
  | noClose who => cases who <;> rfl
  | noStream => rfl

/-- A task that moves leaves the open task the one it is. -/
theorem Turn.openTask (h : Turn s cc a t k s') : s'.openTask = s.openTask := by
  cases h with
  | runs b s' _ hb h => exact h.openTask.trans hb.openTask
  | closeSent streamId reason who => cases who <;> rfl
  | eventRaised packets streamId isEos force who => cases who <;> rfl
  | closeRaised streamId reason who => cases who <;> rfl
  | _ => rfl

/-- A task that is not the open task leaves the stream id alone. -/
theorem Turn.streamId (h : Turn s cc a t k s') (hfits : k.Fits) (hk : k.call ≠ .open) :
    s'.streamId = s.streamId := by
  cases h with
  | runs b s' _ hb h => exact h.streamId.trans (hb.streamId hk)
  | refused status message onOpen e _ hpc =>
      obtain ⟨c, pc⟩ := k
      cases hpc
      cases c with
      | «open» => exact absurd rfl hk
      | _ => exact hfits.elim
  | closeSent streamId reason who => cases who <;> rfl
  | eventRaised packets streamId isEos force who => cases who <;> rfl
  | closeRaised streamId reason who => cases who <;> rfl
  | _ => rfl

/-- The tasks of `_open` are the same where no task is started, or one of another call. -/
theorem Proper.opener_stays (hs : s.Proper) (ho : s.Opener) (h : s.step opus cc a = some s')
    (hopen : s'.openTask = s.openTask)
    (hnew : ∀ (t : Nat) (pc : Pc), s'.tasks[t]? = some ⟨.open, pc⟩ →
      ∃ k : Task, s.tasks[t]? = some k) : s'.Opener := by
  intro t
  rw [hopen, ho t]
  constructor
  · rintro ⟨pc, ht⟩
    obtain ⟨pc', ht', -⟩ := hs.stays h ht
    exact ⟨pc', ht'⟩
  · rintro ⟨pc, ht⟩
    obtain ⟨⟨c, pc'⟩, hk⟩ := hnew t pc ht
    obtain ⟨pc'', hk', -⟩ := hs.stays h hk
    rw [ht] at hk'
    cases hk'
    exact ⟨pc', hk⟩

theorem Proper.opener (hs : s.Proper) (ho : s.Opener) (h : s.step opus cc a = some s') :
    s'.Opener := by
  rcases hs.turn_cases h with
    ⟨rfl, hstart⟩ | ⟨c, rfl, hne, hspawn⟩ | ⟨reason, rfl, hclose⟩ | ⟨t', k', ha, ht', hturn⟩
  · cases hopen : s.openTask with
    | some t =>
        have heq : s' = s := by
          rw [hstart, Session.start, hopen]
          rfl
        rw [heq]
        exact ho
    | none =>
        rw [hstart, Session.start, hopen]
        intro t
        have hnone : ¬∃ pc, s.tasks[t]? = some ⟨.open, pc⟩ := by
          rw [← ho t, hopen]
          rintro ⟨⟩
        constructor
        · rintro ⟨⟩
          exact ⟨.start, List.getElem?_concat_length⟩
        · rintro ⟨pc, ht⟩
          rcases getElem?_concat_eq_some.mp ht with hold | ⟨rfl, -⟩
          · exact absurd ⟨pc, hold⟩ hnone
          · rfl
  · subst hspawn
    refine hs.opener_stays ho h rfl fun t pc ht ↦ ?_
    rcases getElem?_concat_eq_some.mp ht with hold | ⟨-, heq⟩
    · exact ⟨_, hold⟩
    · cases heq
      exact absurd rfl hne
  · subst hclose
    have hsame : (s.handleClose reason).openTask = s.openTask ∧
        (s.handleClose reason).tasks = s.tasks := by
      rcases s.handleClose_cases reason with ⟨-, heq⟩ | ⟨-, heq⟩
      · rw [heq]
        exact ⟨rfl, rfl⟩
      · rw [heq]
        exact ⟨rfl, rfl⟩
    exact hs.opener_stays ho h hsame.1 fun t pc ht ↦ ⟨_, hsame.2 ▸ ht⟩
  · refine hs.opener_stays ho h hturn.openTask fun t pc ht ↦ ?_
    by_cases heq : t = t'
    · exact ⟨k', heq ▸ ht'⟩
    · exact ⟨_, (hturn.others heq).symm.trans ht⟩

theorem opener_new (encoder : ε) : (Session.new encoder).Opener := by
  intro t
  constructor
  · rintro ⟨⟩
  · rintro ⟨pc, ⟨⟩⟩

/-! ## Leaving -/

/-- The session is closed, or waits for its connection. -/
def Leaving (s : Session ε) : Prop :=
  s.closed = true ∨ s.opening = true ∨ ∃ k ∈ s.tasks, k.pc.closing = true

/-- A `cancel` has begun. -/
def Parting (s : Session ε) : Prop := s.Leaving ∧ (s.closed = true ∨ s.cancelReason.isSome = true)

/-- The open task is cancelled before it has begun. -/
def Unbegun (s : Session ε) (a : Label) : Prop :=
  ∃ t, a = .fail t .cancelledError ∧ s.openTask = some t ∧ s.pc? t = some .start

theorem opening_iff : s.opening = true ↔ s.streamId = none ∧
    ∃ t k, s.openTask = some t ∧ s.tasks[t]? = some k ∧ k.pc.done = false := by
  rw [opening, openPc]
  cases hopen : s.openTask with
  | none => simp
  | some t =>
      cases ht : s.tasks[t]? with
      | none => simp [pc?, ht]
      | some k => simp [pc?, ht, and_comm]

theorem leaving_of_opening (h : s.openTask = some t) (ht : s.tasks[t]? = some k)
    (hdone : k.pc.done = false) (hid : s.streamId = none) : s.Leaving :=
  .inr (.inl (opening_iff.mpr ⟨hid, t, k, h, ht, hdone⟩))

/-- A task that is done does not move. -/
theorem task_ne_of_done (h : s.step opus cc a = some s') (ht : s.tasks[t]? = some k)
    (hk : k.pc.done = true) : a.task ≠ some t := by
  intro ha
  have hpc : s.pc? t = some k.pc := Option.map_eq_some_iff.mpr ⟨k, ht, rfl⟩
  obtain ⟨c, pc⟩ := k
  have hcases : pc = .returned ∨ ∃ e, pc = .raised e := by
    cases pc with
    | returned => exact .inl rfl
    | raised e => exact .inr ⟨e, rfl⟩
    | _ => cases hk
  cases a with
  | run t' =>
      cases ha
      simp only [Session.step, ht, Option.bind_some] at h
      rcases hcases with rfl | ⟨e, rfl⟩
      · cases h
      · cases h
  | response t' status message onOpen =>
      cases ha
      simp only [Session.step, hpc] at h
      rcases hcases with rfl | ⟨e, rfl⟩
      · cases h
      · cases h
  | sent t' =>
      cases ha
      simp only [Session.step, hpc] at h
      rcases hcases with rfl | ⟨e, rfl⟩
      · cases h
      · cases h
  | resume t' =>
      cases ha
      simp only [Session.step, hpc] at h
      rcases hcases with rfl | ⟨e, rfl⟩
      · cases h
      · cases h
  | fail t' e =>
      cases ha
      simp only [Session.step, hpc] at h
      rcases hcases with rfl | ⟨e, rfl⟩
      · cases h
      · cases h
  | timeout t' =>
      cases ha
      simp only [Session.step, hpc] at h
      rcases hcases with rfl | ⟨e, rfl⟩
      · cases h
      · cases h
  | _ => cases ha

/-- A task that is done stays where it is. -/
theorem Proper.done_stays (hs : s.Proper) (h : s.step opus cc a = some s')
    (ht : s.tasks[t]? = some k) (hdone : k.pc.done = true) : s'.tasks[t]? = some k := by
  obtain ⟨pc, ht', hsame⟩ := hs.stays h ht
  rw [ht', hsame (task_ne_of_done h ht hdone)]

/-- A close in flight goes on, or ends the session. -/
theorem Proper.closing_step (hs : s.Proper) (h : s.step opus cc a = some s')
    (ht : s.tasks[t]? = some k) (hk : k.pc.closing = true) :
    s'.closed = true ∨ ∃ k' ∈ s'.tasks, k'.pc.closing = true := by
  by_cases ha : a.task = some t
  · have hpc : s.pc? t = some k.pc := Option.map_eq_some_iff.mpr ⟨k, ht, rfl⟩
    obtain ⟨streamId, reason, who, phase, hsend⟩ : ∃ streamId reason who phase,
        k.pc = .sending (.close streamId reason who) phase := by
      rw [Pc.closing.eq_def] at hk
      split at hk
      · exact ⟨_, _, _, _, ‹_›⟩
      · cases hk
    rw [hsend] at hpc
    cases a with
    | run t' =>
        cases ha
        obtain ⟨c, pc⟩ := k
        cases hsend
        simp only [Session.step, ht, Option.bind_some] at h
        cases h
    | response t' =>
        cases ha
        simp only [Session.step, hpc] at h
        cases h
    | sent t' =>
        cases ha
        simp only [Session.step, hpc] at h
        split at h
        · next heq =>
          cases heq
          split at h
          · cases h
          · cases h
            exact .inr ⟨_, List.mem_of_getElem? (getElem?_goto_self ht rfl), rfl⟩
        · cases h
    | resume t' =>
        cases ha
        simp only [Session.step, hpc, Option.bind_some] at h
        rw [resumeTask.eq_def] at h
        split at h
        · next heq => cases heq
        · next heq => cases heq
        · cases h
          left
          cases ‹Closer› <;> rfl
        · cases h
    | fail t' e =>
        cases ha
        simp only [Session.step, hpc, Option.bind_some, failTask] at h
        cases h
        left
        cases who <;> rfl
    | timeout t' =>
        cases ha
        simp only [Session.step, hpc] at h
        cases h
    | _ => cases ha
  · obtain ⟨pc, ht', hsame⟩ := hs.stays h ht
    obtain rfl := hsame ha
    exact .inr ⟨_, List.mem_of_getElem? ht', hk⟩

/-- Where nothing happens to the open task, a session leaves on. -/
theorem Proper.leaving_stays (hs : s.Proper) (hold : s.Leaving) (h : s.step opus cc a = some s')
    (hopen : s'.openTask = s.openTask) (hid : s'.streamId = s.streamId)
    (hne : ∀ t, s.openTask = some t → a.task ≠ some t) : s'.Leaving := by
  rcases hold with hclosed | hopening | ⟨k, hmem, hclosing⟩
  · exact .inl (step_closed h hclosed)
  · obtain ⟨hnone, t, k, ht, hk, hdone⟩ := opening_iff.mp hopening
    obtain ⟨pc, hk', hsame⟩ := hs.stays h hk
    obtain rfl := hsame (hne t ht)
    exact leaving_of_opening (hopen.trans ht) hk' hdone (hid.trans hnone)
  · obtain ⟨t, ht⟩ := List.mem_iff_getElem?.mp hmem
    exact (hs.closing_step h ht hclosing).imp_right .inr

/-- `_send_close` hands a close over, or the session is closed. -/
theorem leaving_sendClose (ht : s.tasks[t]? = some k) (reason : HDSCloseReason) (who : Closer) :
    (s.sendClose cc t reason who).Leaving := by
  rcases s.sendClose_cases cc t reason who with ⟨streamId, -, heq⟩ | ⟨-, heq⟩
  · rw [heq]
    exact .inr (.inr ⟨_, List.mem_of_getElem? (getElem?_goto_self ht rfl), rfl⟩)
  · rw [heq]
    left
    cases who <;> rfl

/-- The open task moves. -/
theorem Proper.leaving_open (hs : s.Proper) (hcancel : s.cancelReason.isSome = true)
    (hold : s.Leaving) (h : s.step opus cc a = some s') (ha : a.task = some t)
    (hopen : s.openTask = some t) (ht : s.tasks[t]? = some ⟨.open, pc⟩)
    (hbegun : ¬s.Unbegun a) : s'.Leaving := by
  have hmem := List.mem_of_getElem? ht
  have hfits := hs.fits _ hmem
  have hstands := hs.stands t _ ht
  have hpc : s.pc? t = some pc := Option.map_eq_some_iff.mpr ⟨_, ht, rfl⟩
  by_cases hid : s.streamId = none
  · have hgoto : ∀ {b : Session ε} {pc' : Pc}, b.tasks = s.tasks → b.openTask = s.openTask →
        b.streamId = s.streamId → pc'.done = false → (b.goto t pc').Leaving :=
      fun htasks hsame hids hdone ↦ leaving_of_opening (hsame.trans hopen)
        (getElem?_goto_self ht htasks) hdone (hids.trans hid)
    have hrequest : ∀ send phase, pc = .sending send phase → send = .request := by
      rintro send phase rfl
      cases send with
      | request => rfl
      | data => cases hid.symm.trans (stands_data.mp hstands).1
      | close => cases hid.symm.trans (stands_close.mp hstands).1
    cases a with
    | run t' =>
        cases ha
        simp only [Session.step, ht, Option.bind_some] at h
        rw [runTask.eq_def] at h
        cases pc with
        | start =>
            cases h
            exact hgoto rfl rfl rfl rfl
        | awaitLock use => cases (congrArg Option.isSome hid).symm.trans hstands
        | awaitOpen | awaitDone | awaitShielded => exact hfits.elim
        | _ => cases h
    | response t' status message onOpen =>
        cases ha
        simp only [Session.step, hpc] at h
        split at h
        · cases h
          rw [openResponse.eq_def]
          dsimp only
          split
          · exact .inl rfl
          · split
            · next reason _ =>
              exact leaving_sendClose
                (s := { s with streamId := (openedStream status message).1.or s.streamId }) ht
                reason .open
            · next hnone =>
              rw [show s.cancelReason = none from hnone] at hcancel
              cases hcancel
        · cases h
    | sent t' =>
        cases ha
        simp only [Session.step, hpc] at h
        split at h
        · split at h
          · cases h
          · cases h
            exact hgoto rfl rfl rfl rfl
        · cases h
    | resume t' =>
        cases ha
        simp only [Session.step, hpc, Option.bind_some] at h
        rw [resumeTask.eq_def] at h
        split at h
        · cases h
          exact hgoto rfl rfl rfl rfl
        · cases hrequest _ _ rfl
        · cases hrequest _ _ rfl
        · cases h
    | fail t' e =>
        cases ha
        simp only [Session.step, hpc, Option.bind_some] at h
        rw [failTask.eq_def] at h
        cases pc with
        | start =>
            dsimp only at h
            split at h
            · next he =>
              subst he
              exact absurd ⟨t, rfl, hopen, hpc⟩ hbegun
            · cases h
        | awaitResponse =>
            cases h
            exact .inl rfl
        | sending send phase =>
            cases hrequest _ _ rfl
            cases h
            exact .inl rfl
        | awaitLock use => cases (congrArg Option.isSome hid).symm.trans hstands
        | awaitOpen | awaitDone | awaitShielded => exact hfits.elim
        | _ => cases h
    | timeout t' =>
        cases ha
        simp only [Session.step, hpc] at h
        split at h
        · next heq =>
          cases heq
          exact hfits.elim
        · next heq =>
          cases heq
          exact hfits.elim
        · cases h
    | _ => cases ha
  · rcases hold with hclosed | hopening | ⟨k, hmem, hclosing⟩
    · exact .inl (step_closed h hclosed)
    · exact absurd (opening_iff.mp hopening).1 hid
    · obtain ⟨t, ht⟩ := List.mem_iff_getElem?.mp hmem
      exact (hs.closing_step h ht hclosing).imp_right .inr

/-- `cancel` begins. -/
theorem Opener.leaving_cancel (ho : s.Opener) {reason : HDSCloseReason}
    (ht : s.tasks[t]? = some ⟨.cancel reason, .start⟩) :
    (s.begin opus cc t (.cancel reason)).Leaving := by
  rw [begin.eq_def]
  dsimp only
  split
  · next hclosed => exact .inl hclosed
  · split
    · next hopening =>
      -- the cancel waits for the open task
      obtain ⟨hid, t', k', hopen, ht', hdone⟩ := opening_iff.mp
        (show s.opening = true from hopening)
      have hne : t' ≠ t := by
        rintro rfl
        obtain ⟨pc', hpc'⟩ := (ho t').mp hopen
        rw [ht] at hpc'
        cases hpc'
      exact leaving_of_opening hopen ((getElem?_goto_of_ne rfl hne).trans ht') hdone hid
    · rw [cancelOpened]
      split
      · exact leaving_sendClose
          (s := { s with ending := true, cancelReason := some reason }) ht reason .cancel
      · exact .inl rfl

/-- A `cancel` that begins makes the session part. -/
theorem Opener.parting_cancel (ho : s.Opener) {reason : HDSCloseReason}
    (ht : s.tasks[t]? = some ⟨.cancel reason, .start⟩) :
    (s.begin opus cc t (.cancel reason)).Parting := by
  refine ⟨ho.leaving_cancel ht, ?_⟩
  rw [begin.eq_def]
  dsimp only
  split
  · next hclosed => exact .inl hclosed
  · split
    · exact .inr rfl
    · rw [cancelOpened]
      split
      · rcases sendClose_cases { s with ending := true, cancelReason := some reason } cc t
          reason .cancel with ⟨streamId, -, heq⟩ | ⟨-, heq⟩
        · rw [heq]
          exact .inr rfl
        · rw [heq]
          exact .inl rfl
      · exact .inl rfl

/-- A session that was told to cancel leaves. -/
theorem Proper.leaving (hs : s.Proper) (ho : s.Opener) (hcancel : s.cancelReason.isSome = true)
    (hold : s.Leaving) (h : s.step opus cc a = some s') (hbegun : ¬s.Unbegun a) : s'.Leaving := by
  rcases hs.turn_cases h with
    ⟨rfl, hstart⟩ | ⟨c, rfl, -, hspawn⟩ | ⟨reason, rfl, hclose⟩ | ⟨t, k, ha, ht, hturn⟩
  · cases hopen : s.openTask with
    | some t =>
        have heq : s' = s := by
          rw [hstart, Session.start, hopen]
          rfl
        rw [heq]
        exact hold
    | none =>
        have heq : s'.openTask = some s.tasks.length ∧ s'.streamId = s.streamId ∧
            s'.tasks = s.tasks ++ [⟨.open, .start⟩] := by
          rw [hstart, Session.start, hopen]
          exact ⟨rfl, rfl, rfl⟩
        refine leaving_of_opening heq.1 (k := ⟨.open, .start⟩) ?_ rfl
          (heq.2.1.trans (hs.unopened hopen))
        rw [heq.2.2]
        exact getElem?_concat_length _
  · subst hspawn
    exact hs.leaving_stays hold h rfl rfl (by rintro _ _ ⟨⟩)
  · subst hclose
    exact .inl (s.closed_handleClose reason)
  · by_cases hopen : s.openTask = some t
    · obtain ⟨pc, hpc⟩ := (ho t).mp hopen
      exact hs.leaving_open hcancel hold h ha hopen hpc hbegun
    · have hcall : k.call ≠ .open := fun hcall ↦
        hopen ((ho t).mpr ⟨k.pc, by rw [ht, ← hcall]⟩)
      refine hs.leaving_stays hold h hturn.openTask
        (hturn.streamId (hs.fits _ (List.mem_of_getElem? ht)) hcall) fun t' ht' ↦ ?_
      rintro ha'
      rw [ha] at ha'
      cases ha'
      exact hopen ht'

/-! ## Ending -/

/-- A coroutine ends the stream by a cancel, or as `finish` does. -/
structure Stops (c : Call) (s b : Session ε) : Prop where
  ending : b.ending = true →
    s.ending = true ∨ b.cancelReason.isSome = true ∨ b.drained.isSome = true
  cancelReason : s.cancelReason.isSome = true → b.cancelReason.isSome = true
  drained : b.drained = s.drained ∨
    ∃ positive pad, c = .finish positive pad ∧ b.drained = some pad

theorem Stops.of_same {c : Call} (hending : b.ending = s.ending)
    (hcancel : b.cancelReason = s.cancelReason) (hdrained : b.drained = s.drained) :
    Stops c s b :=
  ⟨fun h ↦ .inl (hending ▸ h), fun h ↦ hcancel ▸ h, .inl hdrained⟩

theorem Stops.trans {c : Call} {d : Session ε} (h : Stops c s b) (h' : Stops c b d) :
    Stops c s d where
  ending hd := by
    rcases h'.ending hd with hb | hnew
    · rcases h.ending hb with hs | hcancel | hdrained
      · exact .inl hs
      · exact .inr (.inl (h'.cancelReason hcancel))
      · rcases h'.drained with heq | ⟨positive, pad, -, heq⟩
        · exact .inr (.inr (heq ▸ hdrained))
        · exact .inr (.inr (heq ▸ rfl))
    · exact .inr hnew
  cancelReason := h'.cancelReason ∘ h.cancelReason
  drained := by
    rcases h'.drained with heq | hnew
    · rw [heq]
      exact h.drained
    · exact .inr hnew

theorem SameStand.stops {c : Call} (h : SameStand c s b) : Stops c s b where
  ending hb := by
    rcases h.ends with ⟨heq, -⟩ | ⟨-, -, -, pad, -, hdrained⟩
    · exact .inl (heq ▸ hb)
    · exact .inr (.inr (hdrained ▸ rfl))
  cancelReason hs := h.cancelReason ▸ hs
  drained := h.ends.imp And.right fun ⟨_, _, hpad⟩ ↦ hpad

theorem Begins.stops (h : Begins s a t k b) : Stops k.call s b := by
  cases h with
  | runs b h => exact h.stops
  | cancels reason => exact ⟨fun _ ↦ .inr (.inl rfl), fun _ ↦ rfl, .inl rfl⟩
  | opens => exact .of_same rfl rfl rfl

theorem Outcome.stops (h : Outcome b cc t k s') : Stops k.call b s' := by
  cases h with
  | rests d pc h => exact h.stops.trans (.of_same rfl rfl rfl)
  | event d _ _ _ _ _ h => exact h.stops.trans (.of_same rfl rfl rfl)
  | close => exact .of_same rfl rfl rfl
  | noClose who => cases who <;> exact .of_same rfl rfl rfl
  | noStream => exact .of_same rfl rfl rfl

theorem Turn.stops (h : Turn s cc a t k s') : Stops k.call s s' := by
  cases h with
  | runs b s' _ hb h => exact hb.stops.trans h.stops
  | closeSent streamId reason who => cases who <;> exact .of_same rfl rfl rfl
  | eventRaised packets streamId isEos force who => cases who <;> exact .of_same rfl rfl rfl
  | closeRaised streamId reason who => cases who <;> exact .of_same rfl rfl rfl
  | _ => exact .of_same rfl rfl rfl

/-- What ends the stream in a step. -/
theorem Proper.stops (hs : s.Proper) (h : s.step opus cc a = some s') :
    ∃ c : Call, Stops c s s' ∧
      (s'.drained ≠ s.drained → ∃ (t : Nat) (pc : Pc), s.tasks[t]? = some ⟨c, pc⟩) := by
  rcases hs.turn_cases h with
    ⟨-, rfl⟩ | ⟨c, -, -, rfl⟩ | ⟨reason, -, rfl⟩ | ⟨t, k, -, ht, hturn⟩
  · rw [Session.start]
    split
    · exact ⟨.open, .of_same rfl rfl rfl, fun hne ↦ absurd rfl hne⟩
    · exact ⟨.open, .of_same rfl rfl rfl, fun hne ↦ absurd rfl hne⟩
  · exact ⟨.open, .of_same rfl rfl rfl, fun hne ↦ absurd rfl hne⟩
  · rcases s.handleClose_cases reason with ⟨-, heq⟩ | ⟨-, heq⟩
    · rw [heq]
      exact ⟨.open, .of_same rfl rfl rfl, fun hne ↦ absurd rfl hne⟩
    · rw [heq]
      exact ⟨.open, .of_same rfl rfl rfl, fun hne ↦ absurd rfl hne⟩
  · exact ⟨k.call, hturn.stops, fun _ ↦ ⟨t, k.pc, ht⟩⟩

/-- **A session that parts parts on.** -/
theorem Proper.parting (hs : s.Proper) (ho : s.Opener) (hold : s.Parting)
    (h : s.step opus cc a = some s') (hbegun : ¬s.Unbegun a) : s'.Parting := by
  obtain ⟨hleaving, hclosed | hcancel⟩ := hold
  · have hclosed' := step_closed h hclosed
    exact ⟨.inl hclosed', .inl hclosed'⟩
  · obtain ⟨c, hstops, -⟩ := hs.stops h
    exact ⟨hs.leaving ho hcancel hleaving h hbegun, .inr (hstops.cancelReason hcancel)⟩

/-- What ended the stream is known, and so is the state that a `finish` returned in. -/
structure Ends (s : Session ε) : Prop where
  ending : s.ending = true → s.cancelReason.isSome = true ∨ s.drained.isSome = true
  drained : ∀ pad, s.drained = some pad →
    ∃ (t : Nat) (positive : Bool) (pc : Pc), s.tasks[t]? = some ⟨.finish positive pad, pc⟩
  returned : ∀ (t : Nat) (positive pad : Bool),
    s.tasks[t]? = some ⟨.finish positive pad, .returned⟩ → s.closed = true

/-- **Every step keeps what ended the stream.** -/
theorem Proper.ends (hs : s.Proper) (he : s.Ends) (h : s.step opus cc a = some s') : s'.Ends := by
  obtain ⟨c, hstops, htask⟩ := hs.stops h
  have hkept : ∀ {t : Nat} {c : Call} {pc : Pc}, s.tasks[t]? = some ⟨c, pc⟩ →
      ∃ pc', s'.tasks[t]? = some ⟨c, pc'⟩ := by
    intro t c pc ht
    obtain ⟨pc', ht', -⟩ := hs.stays h ht
    exact ⟨pc', ht'⟩
  constructor
  · intro hending
    rcases hstops.ending hending with hold | hnew
    · rcases he.ending hold with hcancel | hdrained
      · exact .inl (hstops.cancelReason hcancel)
      · rcases hstops.drained with heq | ⟨positive, pad, -, heq⟩
        · exact .inr (heq ▸ hdrained)
        · exact .inr (heq ▸ rfl)
    · exact hnew
  · intro pad hpad
    by_cases hsame : s'.drained = s.drained
    · obtain ⟨t, positive, pc, ht⟩ := he.drained pad (hsame ▸ hpad)
      obtain ⟨pc', ht'⟩ := hkept ht
      exact ⟨t, positive, pc', ht'⟩
    · obtain ⟨positive, pad', rfl, heq⟩ := hstops.drained.resolve_left hsame
      obtain ⟨t, pc, ht⟩ := htask hsame
      obtain ⟨pc', ht'⟩ := hkept ht
      cases heq.symm.trans hpad
      exact ⟨t, positive, pc', ht'⟩
  · intro t positive pad ht'
    by_cases ha : a.task = some t
    · obtain ⟨⟨c, pc⟩, ht⟩ := hs.moves h ha
      obtain ⟨pc', hk', -⟩ := hs.stays h ht
      rw [ht'] at hk'
      cases hk'
      have hreturned : s'.pc? t = some .returned := Option.map_eq_some_iff.mpr ⟨_, ht', rfl⟩
      have hrun := hs.run_of_returned h ht ha hreturned
      subst hrun
      have hstep : s.runTask opus cc t ⟨.finish positive pad, pc⟩ = some s' := by
        simpa only [Session.step, ht, Option.bind_some] using h
      have hexit := (returned_runTask ht (hs.fits _ (List.mem_of_getElem? ht)) hstep).mp hreturned
      exact step_closed h hexit.2.1
    · rcases hs.others h ht' ha with hold | hstart
      · exact step_closed h (he.returned t positive pad hold)
      · cases hstart

theorem ends_new (encoder : ε) : (Session.new encoder).Ends where
  ending h := by cases h
  drained _ h := by cases h
  returned _ _ _ h := by cases h

/-! ## Every session -/

/-- What holds of every session between two steps. -/
structure Regular (opus : OpusEncoder ε) (s : Session ε) : Prop where
  proper : s.Proper
  offered : s.Offered
  opener : s.Opener
  ends : s.Ends
  accounted : s.Accounted opus
  ended : s.Ended

theorem Regular.step (hs : s.Regular opus) (h : s.step opus cc a = some s') :
    s'.Regular opus where
  proper := hs.proper.step h
  offered := hs.proper.offered hs.offered h
  opener := hs.proper.opener hs.opener h
  ends := hs.proper.ends hs.ends h
  accounted := step_accounted h hs.accounted
  ended := (hs.proper.further h).ended hs.ended

theorem Progress.regular (h : Progress opus s s') (hs : s.Regular opus) : s'.Regular opus := by
  induction h with
  | refl => exact hs
  | tail _ hstep ih =>
      obtain ⟨cc, a, hstep⟩ := hstep
      exact ih.step hstep

theorem regular_new (opus : OpusEncoder ε) : (Session.new opus.init).Regular opus where
  proper := proper_new opus.init
  offered := List.forall_mem_nil _
  opener := opener_new opus.init
  ends := ends_new opus.init
  accounted := accounted_new opus
  ended := ended_new opus.init

theorem regular_start (opus : OpusEncoder ε) : (Session.new opus.init).start.Regular opus :=
  have hstep : (Session.new opus.init).step opus false .start =
      some (Session.new opus.init).start := rfl
  (regular_new opus).step hstep

/-- **A session that leaves is closed when its tasks are done.** -/
theorem Leaving.closed (hs : s.Leaving) (hdone : ∀ k ∈ s.tasks, k.pc.done = true) :
    s.closed = true := by
  rcases hs with hclosed | hopening | ⟨k, hmem, hclosing⟩
  · exact hclosed
  · obtain ⟨-, t, k, -, ht, hnot⟩ := opening_iff.mp hopening
    cases (hdone k (List.mem_of_getElem? ht)).symm.trans hnot
  · have hdone := hdone k hmem
    rw [Pc.closing.eq_def] at hclosing
    split at hclosing
    · next heq =>
      rw [heq] at hdone
      cases hdone
    · cases hclosing

end Steps

end Session

end AtvRemote.Audio
