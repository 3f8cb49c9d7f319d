import AtvRemote.Audio.Standing

/-!
# Abandoned streams

A session that is closed sends nothing any more, so that the Apple TV keeps a stream open that
nobody told it about.  There are three ways to get there: `_open` raises behind the assignment
of the stream id, because the id is refused, or because its flush is cancelled or fails; and a
`_send_close` raises before its frame is written.  `closesTold_iff` says that there is no other
one.
-/

namespace AtvRemote.Audio

open Lib

/-- A `dataSend/close` for the stream was written, or one came from the Apple TV. -/
def Entry.tellsClose (streamId : Int) : Entry → Bool
  | .written (.close streamId' _) => streamId' = streamId
  | .received _ => true
  | _ => false

/-- The frame of a `dataSend/close` was written. -/
def Entry.writesClose : Entry → Bool
  | .written (.close _ _) => true
  | _ => false

namespace Session

variable {ε : Type}

/-- The Apple TV was told of the end of the stream, or told it itself. -/
def Told (s : Session ε) (streamId : Int) : Prop :=
  ∃ entry ∈ s.log, entry.tellsClose streamId = true

/-- A close was written. -/
def CloseWritten (s : Session ε) : Prop := ∃ entry ∈ s.log, entry.writesClose = true

/-- The label makes `_open` raise behind the assignment of the stream id, or `_send_close`
before its frame is written. -/
def losesClose (s : Session ε) : Label → Bool
  | .response t status message onOpen => s.pc? t = some .awaitResponse &&
      (openedStream status message).1.isSome && ((openedStream status message).2.or onOpen).isSome
  | .fail t e => match s.pc? t with
      | some (.awaitLock .openFlush) => e = .cancelledError
      | some (.sending (.data _ _ _ _ .open) _) => true
      | some (.sending (.close _ _ _) .queued) => true
      | _ => false
  | _ => false

section Steps

variable {opus : OpusEncoder ε} {s s' b : Session ε} {cc : Bool} {a : Label} {t : Nat} {k : Task}

theorem told_of_written {streamId : Int} {reason : HDSCloseReason}
    (h : .written (.close streamId reason) ∈ s.log) : s.Told streamId :=
  ⟨_, h, decide_eq_true rfl⟩

/-- A close that was written was one for the stream of the session. -/
theorem Proper.told (hs : s.Proper) (h : s.CloseWritten) {streamId : Int}
    (hid : s.streamId = some streamId) : s.Told streamId := by
  obtain ⟨entry, hmem, hwrites⟩ := h
  rw [Entry.writesClose.eq_def] at hwrites
  split at hwrites
  · next streamId' reason =>
    have hown := hs.written streamId' reason hmem
    rw [hid] at hown
    cases hown
    exact told_of_written hmem
  · cases hwrites

/-- What a session was told before it is closed was written by itself. -/
theorem Proper.closeWritten (hs : s.Proper) (hopen : s.closed = false) {streamId : Int}
    (h : s.Told streamId) : s.CloseWritten := by
  obtain ⟨entry, hmem, htells⟩ := h
  rw [Entry.tellsClose.eq_def] at htells
  split at htells
  · exact ⟨_, hmem, rfl⟩
  · next reason =>
    rw [hs.received reason hmem] at hopen
    cases hopen
  · cases htells

theorem Told.of_log {streamId : Int} (h : b.Told streamId)
    (hlog : ∀ entry ∈ b.log, entry ∈ s.log ∨ ∃ o, entry = .raised o) : s.Told streamId := by
  obtain ⟨entry, hmem, htells⟩ := h
  rcases hlog entry hmem with hold | ⟨o, rfl⟩
  · exact ⟨entry, hold, htells⟩
  · cases htells

theorem Told.mono {streamId : Int} (h : s.Told streamId) (hlog : ∀ entry ∈ s.log, entry ∈ b.log) :
    b.Told streamId := by
  obtain ⟨entry, hmem, htells⟩ := h
  exact ⟨entry, hlog entry hmem, htells⟩

/-- **A label that loses the close closes the session, and tells nothing.** -/
theorem closed_of_losesClose (hs : s.Proper) (h : s.step opus cc a = some s')
    (ha : s.losesClose a = true) : s'.closed = true ∧ s'.streamId.isSome = true ∧
      ∀ entry ∈ s'.log, entry ∈ s.log ∨ ∃ o, entry = .raised o := by
  have hraised : ∀ (o : Outgoing), ∀ entry ∈ (s.record (.raised o)).log,
      entry ∈ s.log ∨ ∃ o, entry = .raised o := fun o entry hmem ↦
    (mem_record hmem).imp_right fun heq ↦ ⟨o, heq⟩
  cases a with
  | response t status message onOpen =>
      simp only [losesClose, Bool.and_eq_true, decide_eq_true_eq] at ha
      obtain ⟨⟨hawait, hsome⟩, hraise⟩ := ha
      obtain ⟨streamId, hid⟩ := Option.isSome_iff_exists.mp hsome
      obtain ⟨e, he⟩ := Option.isSome_iff_exists.mp hraise
      simp only [step, hawait, if_true, openResponse, he, Option.some.injEq] at h
      rw [← h]
      refine ⟨rfl, ?_, fun entry hmem ↦ .inl hmem⟩
      show ((openedStream status message).1.or s.streamId).isSome = true
      rw [hid]
      rfl
  | fail t e =>
      simp only [losesClose] at ha
      obtain ⟨pc, hpc, hfail⟩ := Option.bind_eq_some_iff.mp h
      obtain ⟨k, ht, rfl⟩ := Option.map_eq_some_iff.mp hpc
      have hstands := hs.stands t k ht
      have hfits := hs.fits k (List.mem_of_getElem? ht)
      obtain ⟨c, pc⟩ := k
      simp only [hpc] at ha
      split at ha
      · next heq =>
        cases heq
        rw [failTask, if_pos (of_decide_eq_true ha)] at hfail
        cases hfail
        cases c with
        | «open» => exact ⟨rfl, hstands, fun entry hmem ↦ .inl hmem⟩
        | _ => exact hfits.elim
      · next heq =>
        cases heq
        cases hfail
        exact ⟨rfl, Option.isSome_of_eq_some (stands_data.mp hstands).1, hraised _⟩
      · next streamId reason who heq =>
        cases heq
        cases hfail
        obtain ⟨d, pc, heq, -, -, -, hid, -, hlog, -, hclosed⟩ :=
          (s.record (.raised (.close streamId reason))).closeRaised_stand t e who
        simp only [Send.outgoing]
        rw [heq]
        refine ⟨hclosed, ?_, ?_⟩
        · exact Option.isSome_of_eq_some (hid.trans (stands_close.mp hstands).1)
        · rw [show (d.goto t pc).log = _ from hlog]
          exact hraised _
      · cases ha
  | _ => cases ha

/-- A function that several coroutines run through closes a session with a stream only behind a
close that was written, or one that the connection is closed for. -/
theorem Outcome.told (hs : s.Proper) (ht : s.tasks[t]? = some k) (hb : Begins s a t k b)
    (h : Outcome b false t k s') (hopen : s.closed = false) (hclosed : s'.closed = true)
    {streamId : Int} (hid : s'.streamId = some streamId) : s'.Told streamId := by
  obtain ⟨honward, hsame, hsent, hlog⟩ := hb.onward hs ht
  have hstill : b.closed = false := hsame.trans hopen
  cases h with
  | rests d pc h =>
      rw [show (d.goto t pc).closed = b.closed from h.closed, hstill] at hclosed
      cases hclosed
  | event d packets streamId isEos force who h =>
      rw [show (d.hand t _).closed = b.closed from h.closed, hstill] at hclosed
      cases hclosed
  | close =>
      rw [show (b.hand t _).closed = b.closed from rfl, hstill] at hclosed
      cases hclosed
  | noClose who _ _ _ _ hmay =>
      obtain ⟨d, pc, heq, -, -, -, hdid, -, hdlog, -, -⟩ := b.closeReturned_stand t who
      rw [heq] at hid ⊢
      have hid : b.streamId = some streamId := hdid.symm.trans hid
      have hclose : s.closeSent = true := by simpa [mayClose, hid, hsent] using hmay
      obtain ⟨streamId', reason, hmem⟩ := hs.closeSent hclose
      have hown := honward.assigned (hs.written streamId' reason hmem)
      rw [hid] at hown
      cases hown
      have hlog' : (d.goto t pc).log = s.log := hdlog.trans hlog
      exact told_of_written (hlog' ▸ hmem)
  | noStream _ _ hnone =>
      rw [show (b.markDone.goto t .returned).streamId = b.streamId from rfl, hnone] at hid
      cases hid

/-- **A turn that loses no close closes a session with a stream only when the Apple TV was
told.** -/
theorem Turn.told (hs : s.Proper) (ht : s.tasks[t]? = some k) (h : Turn s false a t k s')
    (hopen : s.closed = false) (hclosed : s'.closed = true) {streamId : Int}
    (hid : s'.streamId = some streamId) (hkept : s.losesClose a = true → s.CloseWritten) :
    s'.Told streamId := by
  have hstands := hs.stands t k ht
  have hfits := hs.fits k (List.mem_of_getElem? ht)
  have hpc : s.pc? t = some k.pc := by rw [pc?, ht]; rfl
  have hstill : ∀ {d : Session ε}, d.closed = s.closed → d.closed ≠ true := by
    intro d hd
    rw [hd, hopen]
    rintro ⟨⟩
  obtain ⟨c, pc⟩ := k
  cases h with
  | request => exact (hstill rfl hclosed).elim
  | written => exact (hstill rfl hclosed).elim
  | requestSent => exact (hstill rfl hclosed).elim
  | runs b s' _ hb h => exact h.told hs ht hb hopen hclosed hid
  | unstarted => exact (hstill rfl hclosed).elim
  | refused status message onOpen e ha hk he =>
      cases hk
      cases c with
      | «open» =>
          have hnone : s.streamId = none := hstands.2
          -- nothing can have been written for a stream that was not assigned
          have hassigned : (openedStream status message).1 = some streamId := by
            have hid : (openedStream status message).1.or s.streamId = some streamId := hid
            rwa [hnone, Option.or_none] at hid
          have hwritten := hkept (by rw [ha, losesClose, hpc, hassigned, he]; rfl)
          obtain ⟨entry, hmem, hwrites⟩ := hwritten
          rw [Entry.writesClose.eq_def] at hwrites
          split at hwrites
          · rw [hs.written _ _ hmem] at hnone
            cases hnone
          · cases hwrites
      | _ => exact hfits.elim
  | closeSent streamId' reason who hk =>
      cases hk
      obtain ⟨d, pc, heq, -, -, -, hdid, -, hlog, -, -⟩ :=
        ({ s with closeSent := true } : Session ε).closeReturned_stand t who
      rw [heq] at hid ⊢
      obtain ⟨hown, hmem⟩ := stands_close.mp hstands
      rw [show (d.goto t pc).streamId = s.streamId from hdid, hown] at hid
      cases hid
      have hlog' : (d.goto t pc).log = s.log := hlog
      exact told_of_written (hlog' ▸ hmem rfl)
  | openRaised e ha hk =>
      rcases hk with hk | ⟨hk, he⟩
      · cases hk
        cases c with
        | «open» =>
            rw [show (s.openRaised t e).streamId = s.streamId from rfl, hstands.2] at hid
            cases hid
        | _ => exact hfits.elim
      · cases hk
        exact hs.told (hkept (by rw [ha, losesClose, hpc, he]; rfl)) hid
  | requestRaised phase e ha hk =>
      cases hk
      cases c with
      | «open» =>
          rw [show ((s.record (.raised .open)).openRaised t e).streamId = s.streamId from rfl,
            hstands.2] at hid
          cases hid
      | _ => exact hfits.elim
  | eventRaised packets streamId' isEos force who phase e ha hk =>
      cases hk
      cases who with
      | «open» =>
          have htold := hs.told (hkept (by rw [ha, losesClose, hpc])) hid
          exact htold.mono fun entry ↦ mem_log_record _
      | _ => exact (hstill rfl hclosed).elim
  | closeRaised streamId' reason who phase e ha hk =>
      cases hk
      obtain ⟨hown, hmem⟩ := stands_close.mp hstands
      obtain ⟨d, pc, heq, -, -, -, hdid, -, hlog, -, -⟩ :=
        (s.record (.raised (.close streamId' reason))).closeRaised_stand t e who
      rw [heq] at hid ⊢
      rw [show (d.goto t pc).streamId = s.streamId from hdid] at hid
      have htold : s.Told streamId := by
        cases phase with
        | queued => exact hs.told (hkept (by rw [ha, losesClose, hpc])) hid
        | drain =>
            rw [hown] at hid
            cases hid
            exact told_of_written (hmem rfl)
      refine htold.mono fun entry hentry ↦ ?_
      rw [show (d.goto t pc).log = _ from hlog]
      exact mem_log_record _ hentry

end Steps

end Session

/-! ## Runs -/

/-- From one state to the next, a session that is closed with a stream while its connection is
open has told the Apple TV, or been told. -/
def ClosesTold {ε : Type} (s s' : Live ε) : Prop :=
  s.session.closed = false → s'.session.closed = true → s'.connectionClosed = false →
    ∀ streamId, s'.session.streamId = some streamId → s'.session.Told streamId

/-- A label loses a close only of a session that is closed, or whose connection is, or behind
a close that was written. -/
def CloseKept {ε : Type} (s : Live ε) : Event → Prop
  | .session a => s.session.losesClose a = true →
      s.session.closed = true ∨ s.connectionClosed = true ∨ s.session.CloseWritten
  | .connectionClosed => True

/-- A step of an proper session leaves no stream behind exactly when it loses no close. -/
theorem closesTold_step {ε : Type} {opus : OpusEncoder ε} {s s' : Live ε} {a : Event}
    (hs : s.session.Proper) (h : (sessions opus).step s a = some s') :
    s'.session.Proper ∧ (ClosesTold s s' ↔ CloseKept s a) := by
  cases a with
  | connectionClosed =>
      cases h
      exact ⟨hs, fun _ ↦ trivial, fun _ _ _ hc ↦ by cases hc⟩
  | session a =>
      obtain ⟨session, hstep, rfl⟩ := Option.map_eq_some_iff.mp h
      refine ⟨hs.step hstep, fun htold hloses ↦ ?_, fun hkept hopen hclosed hcc streamId hid ↦ ?_⟩
      · obtain ⟨hclosed, hsome, hlog⟩ := Session.closed_of_losesClose hs hstep hloses
        obtain ⟨streamId, hid⟩ := Option.isSome_iff_exists.mp hsome
        cases hopen : s.session.closed with
        | true => exact .inl rfl
        | false =>
            cases hcc : s.connectionClosed with
            | true => exact .inr (.inl rfl)
            | false =>
                have hnow := htold hopen hclosed hcc streamId hid
                exact .inr (.inr (hs.closeWritten hopen (hnow.of_log hlog)))
      · have hcc : s.connectionClosed = false := hcc
        rw [hcc] at hstep
        have hwritten : s.session.losesClose a = true → s.session.CloseWritten := by
          intro hloses
          rcases hkept hloses with h | h | h
          · rw [hopen] at h
            cases h
          · rw [hcc] at h
            cases h
          · exact h
        rcases hs.turn_cases hstep with
          ⟨-, rfl⟩ | ⟨c, -, -, rfl⟩ | ⟨reason, -, rfl⟩ | ⟨t, k, -, ht, hturn⟩
        · have hsame : s.session.start.closed = s.session.closed := by
            rw [Session.start]
            split <;> rfl
          rw [hsame, hopen] at hclosed
          cases hclosed
        · rw [show (s.session.spawn c).closed = s.session.closed from rfl, hopen] at hclosed
          cases hclosed
        · refine ⟨.received reason, ?_, rfl⟩
          rcases s.session.handleClose_cases reason with ⟨-, heq⟩ | ⟨-, heq⟩
          · rw [heq]
            exact List.mem_append_right _ (List.mem_singleton_self _)
          · rw [heq]
            exact List.mem_append_right _ (List.mem_singleton_self _)
        · exact hturn.told hs ht hopen hclosed hid hwritten

/-- **A run leaves no stream behind exactly when `_open` raises behind the assignment of the
stream id, and `_send_close` before its frame is written, only in a session that is closed or
has written a close, or on a closed connection.** -/
theorem closesTold_iff {ε : Type} (opus : OpusEncoder ε) (h : List (Live ε × Event))
    (s : Live ε) (hrun : (sessions opus).Run h s) :
    (∀ p ∈ h, ∀ s', (sessions opus).step p.1 p.2 = some s' → ClosesTold p.1 s') ↔
      ∀ p ∈ h, CloseKept p.1 p.2 := by
  suffices hmain : s.session.Proper ∧
      ((∀ p ∈ h, ∀ s', (sessions opus).step p.1 p.2 = some s' → ClosesTold p.1 s') ↔
        ∀ p ∈ h, CloseKept p.1 p.2) from hmain.2
  induction hrun with
  | @init s hinit =>
      have hinit : s = ⟨.new opus.init, false⟩ := hinit
      subst hinit
      exact ⟨Session.proper_new opus.init, fun _ ↦ List.forall_mem_nil _,
        fun _ ↦ List.forall_mem_nil _⟩
  | @step h s s' a _ hstep ih =>
      obtain ⟨hs, ih⟩ := ih
      obtain ⟨hs', hlast⟩ := closesTold_step hs hstep
      have hsplit : ∀ P : Live ε × Event → Prop,
          (∀ p ∈ h ++ [(s, a)], P p) ↔ (∀ p ∈ h, P p) ∧ P (s, a) := by
        intro P
        simp [or_imp, forall_and]
      have hnext : (∀ s'', (sessions opus).step s a = some s'' → ClosesTold s s'') ↔
          ClosesTold s s' := by
        rw [hstep]
        simp
      exact ⟨hs', by rw [hsplit, hsplit, ih, hnext, hlast]⟩

/-- A session is opened with stream 7 and cancelled, and its close is written. -/
def cancelledAndTold : List Event :=
  [.session .start, .session (.run 0), .session (.sent 0), .session (.resume 0),
    .session (.response 0 0 [(.text "streamId", .int 7)] none),
    .session (.call (.cancel .cancelled)), .session (.run 1), .session (.sent 1),
    .session (.resume 1)]

/-- The session that is cancelled, and tells the Apple TV. -/
theorem closesTold_iff_cancelledAndTold :
    ∃ s, (sessions .verbatim).exec ⟨.new (), false⟩ cancelledAndTold = some s ∧
      s.session.closed = true ∧ s.session.Told 7 ∧
      ((∀ p ∈ (sessions .verbatim).trace ⟨.new (), false⟩ cancelledAndTold, ∀ s',
          (sessions .verbatim).step p.1 p.2 = some s' → ClosesTold p.1 s') ↔
        ∀ p ∈ (sessions .verbatim).trace ⟨.new (), false⟩ cancelledAndTold,
          CloseKept p.1 p.2) := by
  have hend : ((sessions .verbatim).exec ⟨.new (), false⟩ cancelledAndTold).map
      (fun s ↦ (s.session.closed, s.session.log.any (Entry.tellsClose 7))) =
        some (true, true) := by decide
  obtain ⟨s, hs, heq⟩ := Option.map_eq_some_iff.mp hend
  obtain ⟨hclosed, htold⟩ := Prod.mk.inj heq
  have hinit : (sessions .verbatim).Run [] ⟨.new (), false⟩ := .init rfl
  exact ⟨s, hs, hclosed, List.any_eq_true.mp htold, closesTold_iff .verbatim _ s (hinit.exec hs)⟩

/-- `finish` is called before the stream is open, and is cancelled while `_open` sends the
end of the stream for it: the cancellation ends `_open`, and the stream stays open. -/
def finishing : List Event :=
  [.session .start, .session (.run 0), .session (.sent 0), .session (.resume 0),
    .session (.call (.finish true true)), .session (.run 1),
    .session (.response 0 0 [(.text "streamId", .int 7)] none)]

/-- The stream that is left behind. -/
theorem not_closesTold_of_cancelled :
    ∃ h s, (sessions .verbatim).Run h s ∧ s.session.closed = true ∧
      s.connectionClosed = false ∧ s.session.streamId = some 7 ∧ ¬ s.session.Told 7 ∧
      ¬ ∀ p ∈ h, ∀ s', (sessions .verbatim).step p.1 p.2 = some s' → ClosesTold p.1 s' := by
  have hend : (((sessions .verbatim).exec ⟨.new (), false⟩ finishing).bind fun s ↦
      ((sessions .verbatim).step s (.session (.fail 0 .cancelledError))).map fun s' ↦
        (s.session.closed, s'.session.closed, s'.connectionClosed, s'.session.streamId,
          s'.session.log.any (Entry.tellsClose 7))) =
        some (false, true, false, some 7, false) := by decide
  obtain ⟨s, hs, hlast⟩ := Option.bind_eq_some_iff.mp hend
  obtain ⟨s', hs', hfound⟩ := Option.map_eq_some_iff.mp hlast
  simp only [Prod.mk.injEq] at hfound
  obtain ⟨hopen, hclosed, hcc, hid, hlog⟩ := hfound
  have htold : ¬ s'.session.Told 7 := by
    intro h
    rw [List.any_eq_true.mpr h] at hlog
    cases hlog
  have hinit : (sessions .verbatim).Run [] ⟨.new (), false⟩ := .init rfl
  refine ⟨_, s', (hinit.exec hs).step hs', hclosed, hcc, hid, htold, fun hall ↦ ?_⟩
  have hmem := List.mem_append_right ((sessions .verbatim).trace ⟨.new (), false⟩ finishing)
    (List.mem_singleton_self (s, Event.session (.fail 0 .cancelledError)))
  exact htold (hall _ hmem s' hs' hopen hclosed hcc 7 hid)

end AtvRemote.Audio
