import AtvRemote.Audio.Steps

/-!
# How many closes a session sends

`_send_close` reads its guard before it awaits the connection and sets it afterwards, so
two calls both get past it when the second comes while the first is still sending, or
after the first raised.  A run of a session hands over at most one close exactly when no
call gets past the guard like that.
-/

namespace AtvRemote.Audio

open Lib

namespace Entry

/-- A `dataSend/close` is handed to the connection. -/
def handsClose : Entry → Bool
  | .handed (.close _ _) => true
  | _ => false

/-- The send of a `dataSend/close` raised. -/
def closeRaised : Entry → Bool
  | .raised (.close _ _) => true
  | _ => false

end Entry

namespace Session

variable {ε : Type} {opus : OpusEncoder ε}

/-- The number of `dataSend/close` events handed to the connection. -/
def closesHanded (s : Session ε) : Nat := s.log.countP Entry.handsClose

/-- The send of a `dataSend/close` has not returned yet. -/
def CloseInFlight (s : Session ε) : Prop := ∃ k ∈ s.tasks, k.pc.closing = true

/-- The send of a `dataSend/close` raised. -/
def CloseFailed (s : Session ε) : Prop := ∃ entry ∈ s.log, entry.closeRaised = true

instance (s : Session ε) : Decidable s.CloseInFlight :=
  inferInstanceAs (Decidable (∃ k ∈ s.tasks, k.pc.closing = true))

instance (s : Session ε) : Decidable s.CloseFailed :=
  inferInstanceAs (Decidable (∃ entry ∈ s.log, entry.closeRaised = true))

/-- A close was handed over exactly when one is on its way, has been sent, or failed. -/
def CloseAccounted (s : Session ε) : Prop :=
  0 < s.closesHanded ↔ s.closeSent = true ∨ s.CloseInFlight ∨ s.CloseFailed

/-! ## What the outcomes do to the account -/

section Account

variable {s b : Session ε} {t : Nat} {k : Task} {pc : Pc}

theorem closesHanded_of_log (h : b.log = s.log) : b.closesHanded = s.closesHanded := by
  rw [closesHanded, closesHanded, h]

theorem closeFailed_of_log (h : b.log = s.log) : b.CloseFailed ↔ s.CloseFailed := by
  rw [CloseFailed, CloseFailed, h]

theorem closeInFlight_of_tasks (h : b.tasks = s.tasks) : b.CloseInFlight ↔ s.CloseInFlight := by
  rw [CloseInFlight, CloseInFlight, h]

/-- A task that had no close in flight, and has none, leaves the account as it is. -/
theorem closeInFlight_goto (ht : s.tasks[t]? = some k) (hk : k.pc.closing = false)
    (hpc : pc.closing = false) : (s.goto t pc).CloseInFlight ↔ s.CloseInFlight := by
  have h := exists_task_goto (P := fun pc ↦ pc.closing = true) pc ht
  have h' := exists_task_iff (P := fun pc ↦ pc.closing = true) ht
  simp only [hpc, hk, Bool.false_eq_true, false_or] at h h'
  exact h.trans h'.symm

/-- A task that begins to send a close. -/
theorem closeInFlight_of_closing (ht : s.tasks[t]? = some k) (hpc : pc.closing = true) :
    (s.goto t pc).CloseInFlight :=
  (exists_task_goto (P := fun pc ↦ pc.closing = true) pc ht).mpr (.inl hpc)

theorem closing_of_not_sends (h : pc.sends = false) : pc.closing = false := by
  cases pc with
  | sending => cases h
  | _ => rfl

/-- An entry that hands over no close. -/
theorem closesHanded_record {entry : Entry} (h : entry.handsClose = false) :
    (s.record entry).closesHanded = s.closesHanded := by
  rw [closesHanded, record, List.countP_append, List.countP_cons_of_neg (by simp [h]),
    List.countP_nil]
  rfl

/-- An entry that tells of no failed close. -/
theorem closeFailed_record {entry : Entry} (h : entry.closeRaised = false) :
    (s.record entry).CloseFailed ↔ s.CloseFailed := by
  simp [CloseFailed, record, h]

/-- The step does not touch the account. -/
structure SameAccount (s s' : Session ε) : Prop where
  closesHanded : s'.closesHanded = s.closesHanded
  closeSent : s'.closeSent = s.closeSent
  inFlight : s'.CloseInFlight ↔ s.CloseInFlight
  failed : s'.CloseFailed ↔ s.CloseFailed

theorem SameAccount.accounted {s' : Session ε} (h : SameAccount s s') (hs : s.CloseAccounted) :
    s'.CloseAccounted := by
  rw [CloseAccounted, h.closesHanded, h.closeSent, h.inFlight, h.failed]
  exact hs

/-- A block that sends nothing. -/
theorem sameAccount_goto (hb : Base s b) (ht : s.tasks[t]? = some k) (hk : k.pc.closing = false)
    (hpc : pc.closing = false) : SameAccount s (b.goto t pc) where
  closesHanded := closesHanded_of_log hb.log
  closeSent := hb.closeSent
  inFlight := (closeInFlight_goto (by rw [hb.tasks, ht]) hk hpc).trans
    (closeInFlight_of_tasks hb.tasks)
  failed := closeFailed_of_log hb.log

/-- A block that puts an entry into the log and goes on to a place without a close. -/
theorem sameAccount_record {entry : Entry} (hb : Base s b) (ht : s.tasks[t]? = some k)
    (hk : k.pc.closing = false) (hpc : pc.closing = false) (hentry : entry.handsClose = false)
    (hentry' : entry.closeRaised = false) : SameAccount s ((b.record entry).goto t pc) where
  closesHanded := (closesHanded_record hentry).trans (closesHanded_of_log hb.log)
  closeSent := hb.closeSent
  inFlight :=
    have ht' : (b.record entry).tasks[t]? = some k := by rw [record, hb.tasks, ht]
    (closeInFlight_goto ht' hk hpc).trans (closeInFlight_of_tasks hb.tasks)
  failed := (closeFailed_record hentry').trans (closeFailed_of_log hb.log)

/-- An event of a flush is no close. -/
theorem HandsEvent.sameAccount {s' : Session ε} {streamId : Int} {force : Bool} {who : Flusher}
    (h : HandsEvent b t streamId force who s') (hb : Base s b) (ht : s.tasks[t]? = some k)
    (hk : k.pc.closing = false) : SameAccount s s' := by
  cases h with
  | due hdue =>
      have hb' : Base s { b with
          frames := b.frames.drop framesPerHdsEvent
          sequence := b.sequence + (b.frames.take framesPerHdsEvent).length } :=
        ⟨hb.tasks, hb.openTask, hb.log, hb.closeSent, hb.closed⟩
      exact sameAccount_record hb' ht hk rfl rfl rfl
  | eos hforce hframes heos => exact sameAccount_record hb ht hk rfl rfl rfl

/-- What a step of a task does to the account: nothing; or it adds a close, past a guard
that was not set; or a close on its way arrives or fails. -/
theorem Ran.account {s' : Session ε} {cc : Bool} {a : Label} (h : Ran opus s cc a t k s')
    (ht : s.tasks[t]? = some k) :
    SameAccount s s' ∨
      (s.handsClose cc a = true ∧ s.closeSent = false ∧
        s'.closesHanded = s.closesHanded + 1 ∧ s'.CloseInFlight) ∨
      (s.CloseInFlight ∧ s'.closesHanded = s.closesHanded ∧
        (s'.closeSent = true ∨ s'.CloseInFlight ∨ s'.CloseFailed)) := by
  have hinFlight : k.pc.closing = true → s.CloseInFlight :=
    fun hc ↦ ⟨k, List.mem_iff_getElem?.mpr ⟨t, ht⟩, hc⟩
  cases h with
  | quiet b pc hk hb _ _ hpc =>
      exact .inl (sameAccount_goto hb ht (closing_of_not_sends hk) (closing_of_not_sends hpc))
  | request hk _ =>
      exact .inl (sameAccount_record (.refl s) ht (by rw [hk]; rfl) rfl rfl rfl)
  | close b streamId reason who hk ha hguard hb _ _ =>
      have ht' : (b.record (.handed (.close streamId reason))).tasks[t]? = some k := by
        rw [record, hb.tasks, ht]
      refine .inr (.inl ⟨ha, hguard, ?_, closeInFlight_of_closing ht' rfl⟩)
      rw [closesHanded, closesHanded, ← hb.log]
      simp [hand, record, Send.outgoing, Entry.handsClose, List.countP_append]
  | event b s' streamId force who hk _ hb _ _ _ _ h =>
      exact .inl (h.sameAccount hb ht (closing_of_not_sends hk))
  | written send hk =>
      cases hc : k.pc.closing with
      | false =>
          have hpc : (Pc.sending send .drain).closing = false := by
            rw [hk] at hc
            cases send with
            | close => cases hc
            | _ => rfl
          exact .inl (sameAccount_record (.refl s) ht hc hpc rfl rfl)
      | true =>
          have hpc : (Pc.sending send .drain).closing = true := by
            rw [hk] at hc
            cases send with
            | close => rfl
            | _ => cases hc
          have ht' : (s.record (.written send.outgoing)).tasks[t]? = some k := ht
          exact .inr (.inr ⟨hinFlight hc, closesHanded_record rfl,
            .inr (.inl (closeInFlight_of_closing ht' hpc))⟩)
  | requestReturned hk =>
      exact .inl (sameAccount_goto (.refl s) ht (by rw [hk]; rfl) rfl)
  | nextEvent s' packets streamId streamId' force who hk h =>
      exact .inl (h.sameAccount (.refl s) ht (by rw [hk]; rfl))
  | flushReturned b packets streamId isEos force who pc hk hb _ _ hpc =>
      exact .inl (sameAccount_goto hb ht (by rw [hk]; rfl) (closing_of_not_sends hpc))
  | closeReturned b streamId reason who pc hk hb _ _ _ _ =>
      refine .inr (.inr ⟨hinFlight (by rw [hk]; rfl), closesHanded_of_log hb.log, .inl ?_⟩)
      exact hb.closeSent
  | sendRaised b send phase pc hk hb _ _ _ hpc =>
      have hcount : (b.goto t pc).closesHanded = s.closesHanded := by
        rw [closesHanded, goto_log, hb.log]
        exact closesHanded_record rfl
      cases send with
      | close streamId reason who =>
          refine .inr (.inr ⟨hinFlight (by rw [hk]; rfl), hcount, .inr (.inr ?_)⟩)
          refine ⟨.raised (.close streamId reason), ?_, rfl⟩
          rw [goto_log, hb.log]
          exact List.mem_append_right _ (List.mem_singleton_self _)
      | _ =>
          refine .inl ⟨hcount, hb.closeSent, ?_, ?_⟩
          · exact (closeInFlight_goto (k := k) (by rw [hb.tasks]; exact ht) (by rw [hk]; rfl)
              (closing_of_not_sends hpc)).trans (closeInFlight_of_tasks hb.tasks)
          · exact (closeFailed_of_log hb.log).trans (closeFailed_record rfl)

end Account

/-! ## Steps -/

section Steps

variable {s s' : Session ε} {cc : Bool} {a : Label}

/-- A step keeps the account; a close it adds gets past the guard. -/
theorem step_account (h : s.step opus cc a = some s') (hs : s.CloseAccounted) :
    s'.CloseAccounted ∧ (s'.closesHanded = s.closesHanded ∨
      s.handsClose cc a = true ∧ s.closeSent = false ∧
        s'.closesHanded = s.closesHanded + 1) := by
  rcases step_cases h with
    ⟨-, rfl⟩ | ⟨k, openTask, hk, rfl⟩ | ⟨reason, -, rfl⟩ | ⟨t, k, ht, hran⟩
  · exact ⟨hs, .inl rfl⟩
  · have hsame : SameAccount s { s with tasks := s.tasks ++ [k], openTask } := by
      refine ⟨rfl, rfl, ?_, Iff.rfl⟩
      simp [CloseInFlight, hk, Pc.closing]
    exact ⟨hsame.accounted hs, .inl rfl⟩
  · have hsame : SameAccount s (s.handleClose reason) := by
      have hcount : (s.record (.received reason)).closesHanded = s.closesHanded :=
        closesHanded_record rfl
      have hfailed : (s.record (.received reason)).CloseFailed ↔ s.CloseFailed :=
        closeFailed_record rfl
      unfold handleClose
      simp only
      split
      · exact ⟨hcount, rfl, Iff.rfl, hfailed⟩
      · exact ⟨hcount, rfl, Iff.rfl, hfailed⟩
    exact ⟨hsame.accounted hs, .inl hsame.closesHanded⟩
  · rcases hran.account ht with hsame | ⟨ha, hguard, hcount, hfly⟩ | ⟨hfly, hcount, hnow⟩
    · exact ⟨hsame.accounted hs, .inl hsame.closesHanded⟩
    · refine ⟨?_, .inr ⟨ha, hguard, hcount⟩⟩
      exact iff_of_true (by omega) (.inr (.inl hfly))
    · refine ⟨?_, .inl hcount⟩
      rw [CloseAccounted, hcount]
      exact iff_of_true (hs.mpr (.inr (.inl hfly))) hnow

/-- A call of `_send_close` that gets past the guard hands a close over. -/
theorem closesHanded_sendClose (hmay : s.mayClose cc = true) (t : Nat) (reason : HDSCloseReason)
    (who : Closer) : (s.sendClose cc t reason who).closesHanded = s.closesHanded + 1 := by
  rcases s.sendClose_cases cc t reason who with ⟨streamId, -, heq⟩ | ⟨hmay', -⟩
  · rw [heq]
    simp [closesHanded, hand, record, Send.outgoing, Entry.handsClose, List.countP_append]
  · rw [hmay] at hmay'
    cases hmay'

theorem closesHanded_cancelOpened (hmay : s.mayClose cc = true) (t : Nat)
    (reason : HDSCloseReason) :
    (s.cancelOpened cc t reason).closesHanded = s.closesHanded + 1 := by
  have hid : s.streamId.isSome = true := by
    simp only [mayClose, Bool.and_eq_true] at hmay
    exact hmay.1.2
  rw [cancelOpened, if_pos hid]
  exact closesHanded_sendClose hmay t reason .cancel

/-- A cancelled session that is open, and not being opened, hands a close over. -/
theorem closesHanded_begin_cancel (hmay : s.mayClose cc = true) (hopen : s.closed = false)
    (hready : s.opening = false) (t : Nat) (reason : HDSCloseReason) :
    (s.begin opus cc t (.cancel reason)).closesHanded = s.closesHanded + 1 := by
  have hready' :
      ({ s with ending := true, cancelReason := some reason } : Session ε).opening = false :=
    hready
  simp only [begin]
  rw [if_neg (Bool.eq_false_iff.mp hopen), if_neg (Bool.eq_false_iff.mp hready')]
  exact closesHanded_cancelOpened (s := { s with ending := true, cancelReason := some reason })
    hmay t reason

/-- A response to a cancelled session hands a close over. -/
theorem closesHanded_openResponse {t : Nat} {status : Int} {message : List (Obj × Obj)}
    {onOpen : Option PyErr} (hopens : opensStream status message onOpen = true)
    (hreason : s.cancelReason.isSome = true) (hsent : s.closeSent = false) (hcc : cc = false) :
    (s.openResponse opus cc t status message onOpen).closesHanded = s.closesHanded + 1 := by
  simp only [opensStream, Bool.and_eq_true, Option.isNone_iff_eq_none] at hopens
  obtain ⟨hsome, hvalid⟩ := hopens
  simp only [openResponse, hvalid]
  split
  · next reason _ =>
    refine closesHanded_sendClose
      (s := { s with streamId := (openedStream status message).1.or s.streamId }) ?_ t reason .open
    simp [mayClose, hsent, hcc, hsome]
  · next hnone =>
    rw [hnone] at hreason
    cases hreason

/-- A label that gets past the guard hands a close over. -/
theorem closesHanded_of_handsClose (h : s.step opus cc a = some s')
    (ha : s.handsClose cc a = true) : s'.closesHanded = s.closesHanded + 1 := by
  cases a with
  | run t =>
      obtain ⟨⟨c, pc⟩, ht, hrun⟩ := Option.bind_eq_some_iff.mp h
      simp only [handsClose, Bool.and_eq_true, ht] at ha
      obtain ⟨hmay, ha⟩ := ha
      split at ha
      · next reason heq =>
        cases heq
        cases hrun
        simp only [Bool.and_eq_true, Bool.not_eq_true'] at ha
        exact closesHanded_begin_cancel hmay ha.1 ha.2 t reason
      · next endOfStream heq =>
        cases heq
        cases hrun
        simp only [Bool.and_eq_true, Bool.not_eq_true'] at ha
        have hid : s.streamId.isNone = false := by
          simp only [mayClose, Bool.and_eq_true] at hmay
          simpa using hmay.1.2
        simp only [begin, ha.1, ha.2, hid]
        exact closesHanded_sendClose hmay t .normal .ack
      · next reason heq =>
        cases heq
        simp only [runTask, of_decide_eq_true ha, Option.some.injEq] at hrun
        rw [← hrun]
        exact closesHanded_cancelOpened hmay t reason
      · next heq =>
        cases heq
        obtain ⟨hcl, htime⟩ := Bool.and_eq_true_iff.mp ha
        obtain ⟨e, he, htime⟩ := (Option.any_eq_true ..).mp htime
        simp only [runTask, hcl, he, if_true, Option.some.injEq] at hrun
        rw [← hrun, waitRaised, if_pos htime]
        exact closesHanded_sendClose hmay t .timeout .timeout
      · cases ha
  | response t status message onOpen =>
      simp only [handsClose, Bool.and_eq_true, Bool.not_eq_true', decide_eq_true_eq] at ha
      obtain ⟨⟨⟨⟨hpc, hopens⟩, hreason⟩, hsent⟩, hcc⟩ := ha
      simp only [step, hpc, if_true, Option.some.injEq] at h
      rw [← h]
      exact closesHanded_openResponse hopens hreason hsent hcc
  | timeout t =>
      simp only [handsClose, Bool.and_eq_true, decide_eq_true_eq] at ha
      simp only [step, ha.2, Option.some.injEq] at h
      have htime : (PyErr.timeoutError "").isTimeoutError = true := rfl
      rw [← h, waitRaised, if_pos htime]
      exact closesHanded_sendClose ha.1 t .timeout .timeout
  | _ => cases ha

end Steps

end Session

/-! ## Runs -/

/-- No close is handed over while an earlier one is being sent, or after one failed. -/
def CloseGuarded {ε : Type} (s : Live ε) : Event → Prop
  | .session a => s.session.handsClose s.connectionClosed a = true →
      ¬ s.session.CloseInFlight ∧ ¬ s.session.CloseFailed
  | .connectionClosed => True

/-- **A run hands at most one close to the connection exactly when every one of its steps
that gets past the guard of `_send_close` does so with no close on its way, and none
failed.** -/
theorem closesHanded_le_one_iff {ε : Type} (opus : OpusEncoder ε) (h : List (Live ε × Event))
    (s : Live ε) (hrun : (sessions opus).Run h s) :
    s.session.closesHanded ≤ 1 ↔ ∀ p ∈ h, CloseGuarded p.1 p.2 := by
  suffices hmain : s.session.CloseAccounted ∧
      (s.session.closesHanded ≤ 1 ↔ ∀ p ∈ h, CloseGuarded p.1 p.2) from hmain.2
  induction hrun with
  | init hinit =>
      rw [hinit]
      simp [Session.CloseAccounted, Session.closesHanded, Session.CloseInFlight,
        Session.CloseFailed, Session.new]
  | @step h s s' a _ hstep ih =>
      obtain ⟨hacc, ih⟩ := ih
      have hsplit : (∀ p ∈ h ++ [(s, a)], CloseGuarded p.1 p.2) ↔
          (∀ p ∈ h, CloseGuarded p.1 p.2) ∧ CloseGuarded s a := by
        simp [or_imp, forall_and]
      rw [hsplit, ← ih]
      cases a with
      | connectionClosed =>
          cases hstep
          simp [CloseGuarded, hacc]
      | session a =>
          obtain ⟨session, hsession, rfl⟩ := Option.map_eq_some_iff.mp hstep
          obtain ⟨hacc', hcount⟩ := Session.step_account hsession hacc
          refine ⟨hacc', ?_⟩
          cases ha : s.session.handsClose s.connectionClosed a with
          | false =>
              have hsame : session.closesHanded = s.session.closesHanded := by
                rcases hcount with hsame | ⟨ha', -, -⟩
                · exact hsame
                · rw [ha] at ha'
                  cases ha'
              simp [CloseGuarded, ha, hsame]
          | true =>
              have hmore := Session.closesHanded_of_handsClose hsession ha
              have hguard : s.session.closeSent = false := by
                rcases hcount with hsame | ⟨-, hguard, -⟩
                · omega
                · exact hguard
              simp only [CloseGuarded, ha, true_imp_iff, hmore]
              rw [Session.CloseAccounted, hguard] at hacc
              simp only [Bool.false_eq_true, false_or] at hacc
              rw [← not_or, ← hacc]
              omega

/-- A session is opened with stream 7 and cancelled once. -/
def cancelledOnce : List Event :=
  [.session .start, .session (.run 0), .session (.sent 0), .session (.resume 0),
    .session (.response 0 0 [(.text "streamId", .int 7)] none),
    .session (.call (.cancel .cancelled)), .session (.run 1)]

/-- The session that is cancelled once. -/
theorem closesHanded_le_one_iff_cancelledOnce :
    ∃ s, (sessions .verbatim).exec ⟨.new (), false⟩ cancelledOnce = some s ∧
      (s.session.closesHanded ≤ 1 ↔
        ∀ p ∈ (sessions .verbatim).trace ⟨.new (), false⟩ cancelledOnce,
          CloseGuarded p.1 p.2) := by
  have hsome : ((sessions .verbatim).exec ⟨.new (), false⟩ cancelledOnce).isSome := by decide
  obtain ⟨s, hs⟩ := Option.isSome_iff_exists.mp hsome
  have hinit : (sessions .verbatim).Run [] ⟨.new (), false⟩ := .init rfl
  exact ⟨s, hs, closesHanded_le_one_iff .verbatim _ s (hinit.exec hs)⟩

/-- A second cancel that comes while the close of the first is still being sent gets past
the guard too. -/
theorem closesHanded_cancelledTwice :
    ∃ s, (sessions .verbatim).Reachable s ∧ s.session.closesHanded = 2 := by
  have htwo : ((sessions .verbatim).exec ⟨.new (), false⟩
      (cancelledOnce ++ [.session (.call (.cancel .cancelled)), .session (.run 2)])).map
        (fun s ↦ s.session.closesHanded) = some 2 := by decide
  obtain ⟨s, hs, hcount⟩ := Option.map_eq_some_iff.mp htwo
  have hinit : (sessions .verbatim).Reachable ⟨.new (), false⟩ := .init rfl
  exact ⟨s, hinit.exec hs, hcount⟩

end AtvRemote.Audio
