import AtvRemote.Audio.CloseOnce

/-!
# Audio after the close of a stream

`_flush_locked` looks at `_closed` once, before its loop, and `cancel`, `handle_ack` and
`handle_close` do not take the I/O lock.  Two things can therefore bring a data event
behind a close: a close that comes while a flush is suspended in one event with another
one due, and a flush that begins while a close is still being sent, before `_closed` is
set.  In a run where neither happens no data event follows a close.
-/

namespace AtvRemote.Audio

open Lib

namespace Entry

/-- A `dataSend/close` is handed to the connection, or comes from the Apple TV. -/
def endsStream : Entry → Bool
  | .handed (.close _ _) | .received _ => true
  | _ => false

/-- A `dataSend/data` event is handed to the connection. -/
def handsData : Entry → Bool
  | .handed (.data _ _ _) => true
  | _ => false

end Entry

namespace Session

variable {ε : Type} {opus : OpusEncoder ε}

/-- The stream's close was handed over or received. -/
def EndSeen (s : Session ε) : Prop := ∃ entry ∈ s.log, entry.endsStream = true

/-- No data event follows a close in the log. -/
def NoDataAfterClose (s : Session ε) : Prop :=
  s.log.Pairwise fun entry later ↦ entry.endsStream = true → later.handsData = false

/-- The task is suspended in an event of a flush that will hand over another one. -/
def goesOn (s : Session ε) : Pc → Bool
  | .sending (.data _ _ isEos force _) _ => !isEos && s.eventDue force
  | _ => false

/-- A flush is suspended with another event due. -/
def FlushPending (s : Session ε) : Prop := ∃ k ∈ s.tasks, s.goesOn k.pc = true

instance (s : Session ε) : Decidable s.FlushPending :=
  inferInstanceAs (Decidable (∃ k ∈ s.tasks, s.goesOn k.pc = true))

/-! ## Flushes and the lock -/

/-- A task in a flush holds the I/O lock, and a forced flush that is not at its end has
frames left. -/
def FlushOk (s : Session ε) (t : Nat) : Pc → Prop
  | .sending (.data _ _ isEos force _) _ =>
      s.ioLock = some t ∧ (isEos = false → force = true → s.frames ≠ [])
  | _ => True

/-- `FlushOk` for every task. -/
def FlushesOk (s : Session ε) : Prop :=
  ∀ (t : Nat) (k : Task), s.tasks[t]? = some k → s.FlushOk t k.pc

section Flushes

variable {s b : Session ε} {t : Nat} {k : Task} {pc : Pc}

theorem flushOk_of_not_flushing (h : pc.flushing = false) : s.FlushOk t pc := by
  unfold FlushOk
  split
  · cases h
  · trivial

theorem goesOn_of_not_flushing (h : pc.flushing = false) : s.goesOn pc = false := by
  unfold goesOn
  split
  · cases h
  · rfl

theorem flushing_of_not_sends (h : pc.sends = false) : pc.flushing = false := by
  cases pc with
  | sending => cases h
  | _ => rfl

theorem FlushOk.ioLock (h : s.FlushOk t pc) (hpc : pc.flushing = true) : s.ioLock = some t := by
  unfold FlushOk at h
  split at h
  · exact h.1
  · next hne =>
    cases pc with
    | sending send phase =>
        cases send with
        | data => exact (hne _ _ _ _ _ _ rfl).elim
        | _ => cases hpc
    | _ => cases hpc

theorem flushOk_congr (hlock : b.ioLock = s.ioLock) (hframes : b.frames = s.frames) (pc : Pc) :
    b.FlushOk t pc ↔ s.FlushOk t pc := by
  unfold FlushOk
  rw [hlock, hframes]

theorem goesOn_congr (hframes : b.frames = s.frames) (pc : Pc) : b.goesOn pc = s.goesOn pc := by
  unfold goesOn eventDue
  rw [hframes]

/-- The other tasks, when a step of `t` leaves the lock and the frames alone, or when `t`
itself had the lock, or nobody. -/
def LeavesFlushes (s b : Session ε) (t : Nat) : Prop :=
  b.ioLock = s.ioLock ∧ b.frames = s.frames ∨ s.ioLock = none ∨ s.ioLock = some t

theorem FlushesOk.not_flushing (hs : s.FlushesOk) (hlock : s.ioLock = none ∨ s.ioLock = some t)
    {t' : Nat} {k' : Task} (hne : t' ≠ t) (ht' : s.tasks[t']? = some k') :
    k'.pc.flushing = false := by
  cases hpc : k'.pc.flushing with
  | false => rfl
  | true =>
      have howner := (hs t' k' ht').ioLock hpc
      rcases hlock with h | h
      · rw [h] at howner
        cases howner
      · rw [h] at howner
        exact (hne (Option.some.inj howner).symm).elim

theorem FlushesOk.goto (hs : s.FlushesOk) (htasks : b.tasks = s.tasks)
    (hleaves : LeavesFlushes s b t) (hpc : b.FlushOk t pc) : (b.goto t pc).FlushesOk := by
  intro t' k' ht'
  rw [tasks_goto] at ht'
  split at ht'
  · next heq =>
    obtain ⟨k, -, rfl⟩ := Option.map_eq_some_iff.mp ht'
    exact heq ▸ hpc
  · next hne =>
    rw [htasks] at ht'
    rcases hleaves with ⟨hlock, hframes⟩ | hlock
    · exact (flushOk_congr hlock hframes k'.pc).mpr (hs t' k' ht')
    · exact flushOk_of_not_flushing (hs.not_flushing hlock hne ht')

/-- After a step of `t` to a place that does not go on, a flush is pending only if one was. -/
theorem FlushesOk.pending_goto (hs : s.FlushesOk) (ht : s.tasks[t]? = some k)
    (htasks : b.tasks = s.tasks) (hleaves : LeavesFlushes s b t)
    (hpc : b.goesOn pc = false) (h : (b.goto t pc).FlushPending) : s.FlushPending := by
  have ht' : b.tasks[t]? = some k := by rw [htasks, ht]
  rcases (exists_task_goto (P := fun pc ↦ b.goesOn pc = true) pc ht').mp h with
    hgo | ⟨t', k', hne, hk', hgo⟩
  · rw [hpc] at hgo
    cases hgo
  · rw [htasks] at hk'
    rcases hleaves with ⟨-, hframes⟩ | hlock
    · exact ⟨k', List.mem_iff_getElem?.mpr ⟨t', hk'⟩, by rwa [← goesOn_congr hframes]⟩
    · rw [goesOn_of_not_flushing (hs.not_flushing hlock hne hk')] at hgo
      cases hgo

end Flushes

/-! ## The order of the log -/

section Order

variable {s b : Session ε} {t : Nat} {k : Task} {pc : Pc} {entry : Entry}

theorem endSeen_of_log (h : b.log = s.log) : b.EndSeen ↔ s.EndSeen := by
  rw [EndSeen, EndSeen, h]

theorem endSeen_record (h : entry.endsStream = false) : (s.record entry).EndSeen ↔ s.EndSeen := by
  simp [EndSeen, record, h]

theorem NoDataAfterClose.of_log (hs : s.NoDataAfterClose) (h : b.log = s.log) :
    b.NoDataAfterClose := by
  rw [NoDataAfterClose, h]
  exact hs

/-- A data event may be recorded as long as no close was. -/
theorem NoDataAfterClose.record (hs : s.NoDataAfterClose)
    (h : entry.handsData = false ∨ ¬ s.EndSeen) : (s.record entry).NoDataAfterClose := by
  refine List.pairwise_append.mpr ⟨hs, List.pairwise_singleton .., ?_⟩
  intro earlier hmem later hlater hend
  rw [List.mem_singleton.mp hlater]
  exact h.resolve_right fun hopen ↦ hopen ⟨earlier, hmem, hend⟩

/-- The state of a session in which nothing has gone wrong. -/
structure Orderly (s : Session ε) : Prop where
  flushes : s.FlushesOk
  ended : s.EndSeen → s.closed = true ∨ s.CloseInFlight
  pending : s.EndSeen → ¬ s.FlushPending
  order : s.NoDataAfterClose

/-- A close on its way stays on its way, unless its own task goes on. -/
theorem closeInFlight_of_goto (pc : Pc) (ht : s.tasks[t]? = some k) (htasks : b.tasks = s.tasks)
    (h : s.CloseInFlight) : k.pc.closing = true ∨ (b.goto t pc).CloseInFlight := by
  rcases (exists_task_iff (P := fun pc ↦ pc.closing = true) ht).mp h with hk | hother
  · exact .inl hk
  · have ht' : b.tasks[t]? = some k := by rw [htasks, ht]
    rw [← htasks] at hother
    exact .inr ((exists_task_goto (P := fun pc ↦ pc.closing = true) pc ht').mpr (.inr hother))

/-- A step that neither hands data over nor ends the stream. -/
theorem Orderly.goto (hs : s.Orderly) (ht : s.tasks[t]? = some k) (htasks : b.tasks = s.tasks)
    (hend : b.EndSeen ↔ s.EndSeen) (horder : b.NoDataAfterClose) (hcl : s.closed → b.closed)
    (hclosing : k.pc.closing = true → b.closed = true ∨ pc.closing = true)
    (hleaves : LeavesFlushes s b t) (hok : b.FlushOk t pc)
    (hgo : s.EndSeen → b.goesOn pc = false) : (b.goto t pc).Orderly where
  flushes := hs.flushes.goto htasks hleaves hok
  ended := by
    intro h
    rcases hs.ended (hend.mp h) with hclosed | hfly
    · exact .inl (hcl hclosed)
    · rcases closeInFlight_of_goto pc ht htasks hfly with hk | hfly
      · rcases hclosing hk with hclosed | hpc
        · exact .inl hclosed
        · exact .inr (closeInFlight_of_closing (by rw [htasks, ht]) hpc)
      · exact .inr hfly
  pending h hpending :=
    hs.pending (hend.mp h)
      (hs.flushes.pending_goto ht htasks hleaves (hgo (hend.mp h)) hpending)
  order := horder

/-- A close is handed over while no flush is pending. -/
theorem Orderly.hand_close (hs : s.Orderly) (ht : s.tasks[t]? = some k) (hb : Base s b)
    (hlock : b.ioLock = s.ioLock) (hframes : b.frames = s.frames) (hfree : ¬ s.FlushPending)
    (streamId : Int) (reason : HDSCloseReason) (who : Closer) :
    (b.hand t (.close streamId reason who)).Orderly where
  flushes := hs.flushes.goto (b := b.record _) hb.tasks (.inl ⟨hlock, hframes⟩) trivial
  ended _ := .inr (closeInFlight_of_closing (s := b.record _) (by rw [record, hb.tasks, ht]) rfl)
  pending _ hpending :=
    hfree (hs.flushes.pending_goto (b := b.record _) ht hb.tasks (.inl ⟨hlock, hframes⟩) rfl
      hpending)
  order := (hs.order.of_log hb.log).record (.inl rfl)

/-- A data event is handed over while no close was. -/
theorem Orderly.hand_data (hs : s.Orderly) (hb : Base s b) (hlock : b.ioLock = some t)
    (hleaves : LeavesFlushes s b t) (hopen : ¬ s.EndSeen) {packets : List Packet}
    {streamId : Int} {isEos force : Bool} {who : Flusher}
    (hframes : isEos = false → force = true → b.frames ≠ []) :
    (b.hand t (.data packets streamId isEos force who)).Orderly := by
  have hend : ¬ (b.hand t (.data packets streamId isEos force who)).EndSeen := by
    rw [hand, endSeen_of_log (goto_log ..), endSeen_record rfl, endSeen_of_log hb.log]
    exact hopen
  exact {
    flushes := hs.flushes.goto (b := b.record _) hb.tasks hleaves ⟨hlock, hframes⟩
    ended := fun h ↦ (hend h).elim
    pending := fun h ↦ (hend h).elim
    order := (hs.order.of_log hb.log).record (.inr (by rwa [endSeen_of_log hb.log])) }

/-- The same for both kinds of event of a flush. -/
theorem HandsEvent.orderly {s' : Session ε} {streamId : Int} {force : Bool} {who : Flusher}
    (h : HandsEvent b t streamId force who s') (hs : s.Orderly) (hb : Base s b)
    (hlock : b.ioLock = some t) (hmine : s.ioLock = none ∨ s.ioLock = some t)
    (hopen : ¬ s.EndSeen) : s'.Orderly := by
  cases h with
  | due hdue =>
      have hb' : Base s { b with
          frames := b.frames.drop framesPerHdsEvent
          sequence := b.sequence + (b.frames.take framesPerHdsEvent).length } :=
        ⟨hb.tasks, hb.openTask, hb.log, hb.closeSent, hb.closed⟩
      refine hs.hand_data hb' hlock (.inr hmine) hopen ?_
      rintro hmore rfl
      simpa using hmore
  | eos hforce hframes heos =>
      exact hs.hand_data hb hlock (.inr hmine) hopen nofun

/-- A step of a task, on the condition that a close comes while no flush is pending and a
flush begins while no close is on its way. -/
theorem Ran.orderly {s' : Session ε} {cc : Bool} {a : Label} (h : Ran opus s cc a t k s')
    (hs : s.Orderly) (ht : s.tasks[t]? = some k)
    (hclose : s.handsClose cc a = true → ¬ s.FlushPending)
    (hflush : s.startsFlush a = true → ¬ s.CloseInFlight) : s'.Orderly := by
  have hmem : k ∈ s.tasks := List.mem_iff_getElem?.mpr ⟨t, ht⟩
  have hflushing : k.pc.flushing = true → s.ioLock = some t := (hs.flushes t k ht).ioLock
  cases h with
  | quiet b pc hk hb _ hlock hpc =>
      have hleaves : LeavesFlushes s b t := by
        rcases hlock with hlock | ⟨hlock, -⟩
        · exact .inl hlock
        · exact .inr (.inl hlock)
      refine hs.goto ht hb.tasks (endSeen_of_log hb.log) (hs.order.of_log hb.log) hb.closed
        ?_ hleaves (flushOk_of_not_flushing (flushing_of_not_sends hpc))
        fun _ ↦ goesOn_of_not_flushing (flushing_of_not_sends hpc)
      rw [closing_of_not_sends hk]
      exact nofun
  | request hk _ =>
      refine hs.goto (b := s.record _) ht rfl (endSeen_record rfl) (hs.order.record (.inl rfl)) id
        ?_ (.inl ⟨rfl, rfl⟩) trivial fun _ ↦ rfl
      rw [hk]
      exact nofun
  | close b streamId reason who hk ha _ hb hsame hlock =>
      exact hs.hand_close ht hb hlock hsame.frames (hclose ha) streamId reason who
  | event b s' streamId force who hk ha hb _ hopen hfree hlock h =>
      refine h.orderly hs hb hlock (.inl hfree) fun hend ↦ ?_
      rcases hs.ended hend with hclosed | hfly
      · rw [hopen] at hclosed
        cases hclosed
      · exact hflush ha hfly
  | written send hk =>
      have hok := hs.flushes t k ht
      rw [hk] at hok
      refine hs.goto (b := s.record _) ht rfl (endSeen_record rfl) (hs.order.record (.inl rfl)) id
        ?_ (.inl ⟨rfl, rfl⟩) ?_ fun hend ↦ ?_
      · rw [hk]
        exact fun hc ↦ .inr (by cases send <;> exact hc)
      · cases send <;> exact hok
      · have hgo : s.goesOn k.pc = false := by
          cases hgo : s.goesOn k.pc with
          | false => rfl
          | true => exact (hs.pending hend ⟨k, hmem, hgo⟩).elim
        rw [hk] at hgo
        cases send <;> exact hgo
  | requestReturned hk =>
      refine hs.goto ht rfl Iff.rfl hs.order id ?_ (.inl ⟨rfl, rfl⟩) trivial fun _ ↦ rfl
      rw [hk]
      exact nofun
  | nextEvent s' packets streamId streamId' force who hk h =>
      have hlock : s.ioLock = some t := hflushing (by rw [hk]; rfl)
      refine h.orderly hs (.refl s) hlock (.inr hlock) fun hend ↦ ?_
      have hgo : s.goesOn k.pc = true := by
        rw [hk]
        cases h with
        | due hdue => simpa [goesOn] using hdue
        | eos hforce hframes =>
            have hok := hs.flushes t k ht
            rw [hk] at hok
            exact (hok.2 rfl hforce hframes).elim
      exact hs.pending hend ⟨k, hmem, hgo⟩
  | flushReturned b packets streamId isEos force who pc hk hb _ hlock hpc =>
      have hmine : s.ioLock = some t := hflushing (by rw [hk]; rfl)
      refine hs.goto ht hb.tasks (endSeen_of_log hb.log) (hs.order.of_log hb.log) hb.closed
        ?_ (.inr (.inr hmine)) (flushOk_of_not_flushing (flushing_of_not_sends hpc))
        fun _ ↦ goesOn_of_not_flushing (flushing_of_not_sends hpc)
      rw [hk]
      exact nofun
  | closeReturned b streamId reason who pc hk hb hsame hlock hclosed hpc =>
      exact hs.goto ht hb.tasks (endSeen_of_log hb.log) (hs.order.of_log hb.log) hb.closed
        (fun _ ↦ .inl hclosed) (.inl ⟨hlock, hsame.frames⟩)
        (flushOk_of_not_flushing (flushing_of_not_sends hpc))
        fun _ ↦ goesOn_of_not_flushing (flushing_of_not_sends hpc)
  | sendRaised b send phase pc hk hb hsame hlock hclosed hpc =>
      have hleaves : LeavesFlushes s b t := by
        rcases hlock with ⟨hfl, -⟩ | hlock
        · exact .inr (.inr (hflushing hfl))
        · exact .inl ⟨hlock, hsame.frames⟩
      have horder : (s.record (.raised send.outgoing)).NoDataAfterClose :=
        hs.order.record (.inl rfl)
      exact hs.goto ht hb.tasks ((endSeen_of_log hb.log).trans (endSeen_record rfl))
        (horder.of_log hb.log) hb.closed
        (fun hc ↦ .inl (hclosed hc)) hleaves
        (flushOk_of_not_flushing (flushing_of_not_sends hpc))
        fun _ ↦ goesOn_of_not_flushing (flushing_of_not_sends hpc)

/-- A task that is created changes nothing. -/
theorem Orderly.create (hs : s.Orderly) (hk : k.pc = .start) (openTask : Option Nat) :
    ({ s with tasks := s.tasks ++ [k], openTask } : Session ε).Orderly where
  flushes := by
    intro t' k' ht'
    rw [List.getElem?_append] at ht'
    split at ht'
    · exact hs.flushes t' k' ht'
    · have hnew : k' = k := List.mem_singleton.mp (List.mem_of_getElem? ht')
      rw [hnew, hk]
      trivial
  ended h := by
    rcases hs.ended h with hclosed | ⟨k', hmem, hc⟩
    · exact .inl hclosed
    · exact .inr ⟨k', List.mem_append_left _ hmem, hc⟩
  pending h := by
    rintro ⟨k', hmem, hgo⟩
    rcases List.mem_append.mp hmem with hold | hnew
    · exact hs.pending h ⟨k', hold, hgo⟩
    · rw [List.mem_singleton.mp hnew, hk] at hgo
      cases hgo
  order := hs.order

/-- A close comes from the Apple TV while no flush is pending. -/
theorem Orderly.handleClose (hs : s.Orderly) (hfree : ¬ s.FlushPending) (reason : Int) :
    (s.handleClose reason).Orderly := by
  have horder : (s.record (.received reason)).NoDataAfterClose := hs.order.record (.inl rfl)
  unfold Session.handleClose
  simp only
  split
  · next hclosed =>
    exact {
      flushes := hs.flushes
      ended := fun _ ↦ .inl hclosed
      pending := fun _ ↦ hfree
      order := horder }
  · exact {
      flushes := hs.flushes
      ended := fun _ ↦ .inl rfl
      pending := fun _ ↦ hfree
      order := horder }

/-- A label ends the stream: it hands a close over, or the Apple TV closes it. -/
def endsStream (s : Session ε) (connectionClosed : Bool) : Label → Bool
  | .handleClose _ => true
  | a => s.handsClose connectionClosed a

/-- A step of a session on the same condition. -/
theorem step_orderly {s' : Session ε} {cc : Bool} {a : Label} (h : s.step opus cc a = some s')
    (hs : s.Orderly) (hclose : s.endsStream cc a = true → ¬ s.FlushPending)
    (hflush : s.startsFlush a = true → ¬ s.CloseInFlight) : s'.Orderly := by
  have hhands : s.handsClose cc a = true → ¬ s.FlushPending := by
    intro ha
    refine hclose ?_
    cases a with
    | handleClose => rfl
    | _ => exact ha
  rcases step_cases h with
    ⟨-, rfl⟩ | ⟨k, openTask, hk, rfl⟩ | ⟨reason, rfl, rfl⟩ | ⟨t, k, ht, hran⟩
  · exact hs
  · exact hs.create hk openTask
  · exact hs.handleClose (hclose rfl) reason
  · exact hran.orderly hs ht hhands hflush

theorem orderly_new (encoder : ε) : (Session.new encoder).Orderly where
  flushes _ _ h := by cases h
  ended := by simp [EndSeen, Session.new]
  pending := by simp [EndSeen, Session.new]
  order := .nil

end Order

end Session

/-! ## Runs -/

/-- A close comes while no flush is suspended with another event due, and a flush with an
event due begins while no close is on its way. -/
def CloseTimely {ε : Type} (s : Live ε) : Event → Prop
  | .session a =>
      (s.session.endsStream s.connectionClosed a = true → ¬ s.session.FlushPending) ∧
        (s.session.startsFlush a = true → ¬ s.session.CloseInFlight)
  | .connectionClosed => True

instance {ε : Type} (s : Live ε) : (a : Event) → Decidable (CloseTimely s a)
  | .session _ => inferInstanceAs (Decidable (_ ∧ _))
  | .connectionClosed => inferInstanceAs (Decidable True)

/-- **In a run all of whose closes are timely no data event follows a close.** -/
theorem noDataAfterClose {ε : Type} (opus : OpusEncoder ε) (s : Live ε)
    (hrun : (sessions opus).ReachableVia CloseTimely s) : s.session.NoDataAfterClose := by
  suffices hmain : s.session.Orderly from hmain.order
  refine hrun.invariant (I := fun s ↦ s.session.Orderly) ?_ ?_
  · rintro s rfl
    exact Session.orderly_new opus.init
  · rintro s s' a hs hok hstep
    cases a with
    | connectionClosed =>
        cases hstep
        exact hs
    | session a =>
        obtain ⟨session, hsession, rfl⟩ := Option.map_eq_some_iff.mp hstep
        exact Session.step_orderly hsession hs hok.1 hok.2

/-- The session that is opened and cancelled once. -/
theorem noDataAfterClose_cancelledOnce :
    ∃ s, (sessions .verbatim).exec ⟨.new (), false⟩ cancelledOnce = some s ∧
      s.session.NoDataAfterClose := by
  have hsome : ((sessions .verbatim).exec ⟨.new (), false⟩ cancelledOnce).isSome := by decide
  obtain ⟨s, hs⟩ := Option.isSome_iff_exists.mp hsome
  have hinit : (sessions .verbatim).Run [] ⟨.new (), false⟩ := .init rfl
  have htimely : ∀ p ∈ (sessions .verbatim).trace ⟨.new (), false⟩ cancelledOnce,
      CloseTimely p.1 p.2 := by decide
  exact ⟨s, hs, noDataAfterClose .verbatim s ((hinit.exec hs).reachableVia htimely)⟩

/-- `finish` while the close of a cancel is still being sent hands the end of the stream
over behind it. -/
theorem dataAfterClose_finish :
    ∃ s, (sessions .verbatim).Reachable s ∧ ¬ s.session.NoDataAfterClose := by
  have hlog : ((sessions .verbatim).exec ⟨.new (), false⟩
      (cancelledOnce ++ [.session (.call (.finish true true)), .session (.run 2)])).map
        (fun s ↦ s.session.log) =
      some [.handed .open, .written .open, .handed (.close 7 .cancelled),
        .handed (.data [] 7 true)] := by decide
  obtain ⟨s, hs, hlog⟩ := Option.map_eq_some_iff.mp hlog
  have hinit : (sessions .verbatim).Reachable ⟨.new (), false⟩ := .init rfl
  refine ⟨s, hinit.exec hs, fun horder ↦ ?_⟩
  rw [Session.NoDataAfterClose, hlog] at horder
  revert horder
  decide

end AtvRemote.Audio
