import AtvRemote.Audio.Exits
import AtvRemote.Lib.Courier

/-!
# A session as a courier

`_flush_locked` hands one data event after the other to the connection and waits for each, and
the I/O lock keeps every other flush out meanwhile.  So a session is a courier of data events:
it takes one when it hands it over, and delivers it when its frame is written to the transport.
`Owned.carries` says what each step of a session is to the courier.
-/

namespace AtvRemote.Audio

open Lib

/-- The data event that an entry writes to the transport. -/
def Entry.sentEvent? : Entry → Option DataEvent
  | .written (.data packets _ endOfStream) => some ⟨packets, endOfStream⟩
  | _ => none

/-- The data event in flight at a place, and whether it is written. -/
def Pc.event? : Pc → Option (DataEvent × Bool)
  | .sending (.data packets _ isEos _ _) .queued => some (⟨packets, isEos⟩, false)
  | .sending (.data packets _ isEos _ _) .drain => some (⟨packets, isEos⟩, true)
  | _ => none

theorem Pc.event?_of_not_sends {pc : Pc} (h : pc.sends = false) : pc.event? = none := by
  cases pc with
  | sending => cases h
  | _ => rfl

theorem Pc.event?_sending {send : Send} {phase : SendPhase}
    (h : (Pc.sending send phase).flushing = false) : (Pc.sending send phase).event? = none := by
  cases send with
  | data => cases h
  | _ => rfl

namespace Session

variable {ε : Type}

/-- The data events written to the transport. -/
def sentEvents (s : Session ε) : List DataEvent := s.log.filterMap Entry.sentEvent?

/-- Their packets. -/
def sentPackets (s : Session ε) : List Packet := s.sentEvents.flatMap DataEvent.packets

/-- The data event that a task has in flight, and whether it is written. -/
def inFlight? (s : Session ε) (t : Nat) : Option (DataEvent × Bool) := (s.pc? t).bind Pc.event?

/-- The data events of a session, and the one that is in flight under the I/O lock. -/
def courier (s : Session ε) : Courier DataEvent where
  taken := s.events
  delivered := s.sentEvents
  underWay := s.ioLock.bind s.inFlight?

/-- A task with a data event in flight holds the I/O lock. -/
def Owned (s : Session ε) : Prop := ∀ t, (s.inFlight? t).isSome = true → s.ioLock = some t

/-! ## What a step is to the courier -/

/-- What a step of a session is to its courier. -/
inductive Carries (s : Session ε) (a : Label) (s' : Session ε) : Prop
  /-- No data event is concerned. -/
  | rests (h : s'.courier = s.courier)
  /-- A data event is handed over: the first of a flush, or the next. -/
  | takes (e : DataEvent)
      (hidle : s.courier.underWay = none ∧ s.closed = false ∨
        ∃ e', e'.endOfStream = false ∧ s.courier.underWay = some (e', true))
      (heos : s.ending = true → s.frames = [] → s.eosSent = false)
      (h : s'.courier = s.courier.take e)
  /-- The frame of a data event is written. -/
  | delivers (t : Nat) (e : DataEvent) (ha : a = .sent t) (ht : s.inFlight? t = some (e, false))
      (hway : s.courier.underWay = some (e, false)) (h : s'.courier = s.courier.deliver e)
  /-- The send of a data event returns, and the flush is over. -/
  | returns (e : DataEvent) (hway : s.courier.underWay = some (e, true))
      (heos : e.endOfStream = true → s'.eosSent = true) (h : s'.courier = s.courier.drop)
  /-- The send of a data event raises. -/
  | raises (t : Nat) (err : PyErr) (packets : List Packet) (streamId : Int) (isEos force : Bool)
      (who : Flusher) (phase : SendPhase) (ha : a = .fail t err)
      (ht : s.pc? t = some (.sending (.data packets streamId isEos force who) phase))
      (hway : s.courier.underWay =
        (Pc.sending (.data packets streamId isEos force who) phase).event?)
      (hclosed : who = .open ∨ s.closed = true → s'.closed = true)
      (h : s'.courier = s.courier.drop)

/-! ## Moving a task -/

section Moves

variable {s b : Session ε} {t : Nat} {k : Task} {pc : Pc}

theorem inFlight?_eq (ht : s.tasks[t]? = some k) : s.inFlight? t = k.pc.event? := by
  rw [inFlight?, pc?, ht]
  rfl

theorem inFlight?_goto (ht : s.tasks[t]? = some k) (htasks : b.tasks = s.tasks) (t' : Nat) :
    (b.goto t pc).inFlight? t' = if t' = t then pc.event? else s.inFlight? t' := by
  split
  · next heq =>
    subst heq
    exact inFlight?_eq (getElem?_goto_self ht htasks)
  · next hne => rw [inFlight?, inFlight?, pc?, pc?, getElem?_goto_of_ne htasks hne]

/-- What is in flight under the lock is in flight. -/
theorem Owned.underWay (hs : s.Owned) {e : DataEvent × Bool} (h : s.inFlight? t = some e) :
    s.ioLock = some t ∧ s.courier.underWay = some e := by
  have hlock := hs t (Option.isSome_of_eq_some h)
  refine ⟨hlock, ?_⟩
  show s.ioLock.bind s.inFlight? = some e
  rw [hlock]
  exact h

theorem sentEvents_of_log (h : b.log = s.log) : b.sentEvents = s.sentEvents := by
  rw [sentEvents, sentEvents, h]

theorem sentEvents_record {entry : Entry} (h : entry.sentEvent? = none) :
    (s.record entry).sentEvents = s.sentEvents := by
  simp [sentEvents, record, h]

/-- A task moves that has no data event in flight, before and after. -/
theorem Owned.rests (hs : s.Owned) (ht : s.tasks[t]? = some k) (hk : k.pc.event? = none)
    (hpc : pc.event? = none) (htasks : b.tasks = s.tasks) (hlock : b.ioLock = s.ioLock)
    (hevents : b.events = s.events) (hsent : b.sentEvents = s.sentEvents) :
    (b.goto t pc).courier = s.courier ∧ (b.goto t pc).Owned := by
  have hsame : (b.goto t pc).inFlight? = s.inFlight? := by
    funext t'
    rw [inFlight?_goto ht htasks]
    split
    · next heq => rw [heq, inFlight?_eq ht, hk, hpc]
    · rfl
  constructor
  · show Courier.mk b.events b.sentEvents (b.ioLock.bind (b.goto t pc).inFlight?) = s.courier
    rw [hevents, hsent, hlock, hsame]
    rfl
  · intro t' h
    rw [hsame] at h
    exact hlock.trans (hs t' h)

/-- Only the task that moves can have a data event in flight when it holds the lock, or when
nobody did. -/
theorem Owned.only (hs : s.Owned) (hmine : s.ioLock = none ∨ s.ioLock = some t) {t' : Nat}
    (hne : t' ≠ t) : s.inFlight? t' = none := by
  cases h : s.inFlight? t' with
  | none => rfl
  | some e =>
      have howner := hs t' (Option.isSome_of_eq_some h)
      rcases hmine with hnone | hmine
      · rw [hnone] at howner
        cases howner
      · rw [hmine] at howner
        exact (hne (Option.some.inj howner).symm).elim

/-- The task that holds the lock moves to a place with a data event in flight. -/
theorem Owned.moves (hs : s.Owned) (pc : Pc) (ht : s.tasks[t]? = some k)
    (htasks : b.tasks = s.tasks) (hmine : s.ioLock = none ∨ s.ioLock = some t)
    (hlock : b.ioLock = some t) :
    (b.goto t pc).courier.underWay = pc.event? ∧ (b.goto t pc).Owned := by
  constructor
  · show b.ioLock.bind (b.goto t pc).inFlight? = pc.event?
    rw [hlock]
    exact (inFlight?_goto ht htasks t).trans (if_pos rfl)
  · intro t' h
    rw [inFlight?_goto ht htasks] at h
    split at h
    · next heq =>
      rw [heq]
      exact hlock
    · next hne =>
      rw [hs.only hmine hne] at h
      cases h

/-- The task that holds the lock leaves it. -/
theorem Owned.leaves (hs : s.Owned) (pc : Pc) (ht : s.tasks[t]? = some k)
    (htasks : b.tasks = s.tasks) (hmine : s.ioLock = some t) (hlock : b.ioLock = none)
    (hpc : pc.event? = none)
    (hevents : b.events = s.events) (hsent : b.sentEvents = s.sentEvents) :
    (b.goto t pc).courier = s.courier.drop ∧ (b.goto t pc).Owned := by
  constructor
  · show Courier.mk b.events b.sentEvents (b.ioLock.bind (b.goto t pc).inFlight?) = s.courier.drop
    rw [hevents, hsent, hlock]
    rfl
  · intro t' h
    rw [inFlight?_goto ht htasks] at h
    split at h
    · rw [hpc] at h
      cases h
    · next hne =>
      rw [hs.only (.inr hmine) hne] at h
      cases h

/-- A data event is handed over by the task that holds the lock. -/
theorem Owned.hands (hs : s.Owned) (ht : s.tasks[t]? = some k) (htasks : b.tasks = s.tasks)
    (hlog : b.log = s.log) (hmine : s.ioLock = none ∨ s.ioLock = some t)
    (hlock : b.ioLock = some t) (packets : List Packet) (streamId : Int) (isEos force : Bool)
    (who : Flusher) :
    (b.hand t (.data packets streamId isEos force who)).courier =
        s.courier.take ⟨packets, isEos⟩ ∧
      (b.hand t (.data packets streamId isEos force who)).Owned := by
  obtain ⟨hway, howned⟩ := hs.moves (b := b.record (.handed (.data packets streamId isEos)))
    (.sending (.data packets streamId isEos force who) .queued) ht htasks hmine hlock
  refine ⟨?_, howned⟩
  have hevents : (b.hand t (.data packets streamId isEos force who)).events =
      s.events ++ [⟨packets, isEos⟩] := by
    simp [events, hand, record, Send.outgoing, hlog, Entry.dataEvent?]
  have hsent : (b.hand t (.data packets streamId isEos force who)).sentEvents = s.sentEvents := by
    simp [sentEvents, hand, record, Send.outgoing, hlog, Entry.sentEvent?]
  show Courier.mk _ _ _ = Courier.mk _ _ _
  rw [hevents, hsent]
  exact congrArg _ hway

/-- The same for both kinds of event of a flush. -/
theorem HandsEvent.hands {s' : Session ε} {streamId : Int} {force : Bool} {who : Flusher}
    (h : HandsEvent b t streamId force who s') (hs : s.Owned) (ht : s.tasks[t]? = some k)
    (htasks : b.tasks = s.tasks) (hlog : b.log = s.log)
    (hmine : s.ioLock = none ∨ s.ioLock = some t) (hlock : b.ioLock = some t) :
    ∃ e, s'.courier = s.courier.take e ∧ s'.Owned := by
  cases h with
  | due hdue => exact ⟨_, hs.hands ht htasks hlog hmine hlock ..⟩
  | eos hforce hframes heos => exact ⟨_, hs.hands ht htasks hlog hmine hlock ..⟩

end Moves

/-! ## The steps -/

section Steps

variable {opus : OpusEncoder ε} {s s' : Session ε} {cc : Bool} {a : Label} {t : Nat} {k : Task}

/-- A flush that begins in a stream that has ended did not tell its end yet. -/
theorem eosSent_of_startsFlush (h : s.startsFlush a = true) (hending : s.ending = true) :
    s.eosSent = false := by
  rw [startsFlush.eq_def] at h
  split at h
  · simp [hending] at h
  · simp only [hending, if_true, Bool.and_eq_true, Bool.not_eq_true'] at h
    exact h.2
  · simp only [forcedDue, Bool.and_eq_true, Bool.not_eq_true'] at h
    exact h.1.1.2
  · simp only [forcedDue, Bool.and_eq_true, Bool.not_eq_true'] at h
    exact h.2
  · cases h

/-- A flush that goes on with no frames left tells the end of the stream. -/
theorem HandsEvent.eosSent {streamId : Int} {force : Bool} {who : Flusher}
    (h : HandsEvent s t streamId force who s') (hframes : s.frames = []) : s.eosSent = false := by
  cases h with
  | due hdue => simp [eventDue, hframes, framesPerHdsEvent] at hdue
  | eos hforce _ heos => exact heos

/-- A step of a task without a data event in flight. -/
theorem Ran.carries (h : Ran opus s cc a t k s') (hs : s.Owned) (ht : s.tasks[t]? = some k)
    (hk : k.pc.flushing = false) : Carries s a s' ∧ s'.Owned := by
  have hrest : ∀ {b : Session ε} {pc : Pc}, k.pc.event? = none → pc.event? = none →
      b.tasks = s.tasks → b.ioLock = s.ioLock → b.events = s.events →
      b.sentEvents = s.sentEvents →
      Carries s a (b.goto t pc) ∧ (b.goto t pc).Owned := by
    intro b pc hk hpc htasks hlock hevents hsent
    obtain ⟨hsame, howned⟩ := hs.rests ht hk hpc htasks hlock hevents hsent
    exact ⟨.rests hsame, howned⟩
  cases h with
  | quiet b pc hsends hb _ hlock hpc =>
      have hlock : b.ioLock = s.ioLock := by
        rcases hlock with ⟨hlock, -⟩ | ⟨hs, hb⟩
        · exact hlock
        · exact hb.trans hs.symm
      exact hrest (Pc.event?_of_not_sends hsends) (Pc.event?_of_not_sends hpc) hb.tasks hlock
        (events_of_log hb.log) (sentEvents_of_log hb.log)
  | request hstart _ =>
      exact hrest (b := s.record _) (by rw [hstart]; rfl) rfl rfl rfl (events_record rfl)
        (sentEvents_record rfl)
  | close b streamId reason who hsends _ _ hb _ hlock =>
      exact hrest (b := b.record _) (Pc.event?_of_not_sends hsends) rfl hb.tasks hlock
        ((events_record rfl).trans (events_of_log hb.log))
        ((sentEvents_record rfl).trans (sentEvents_of_log hb.log))
  | event b s' streamId force who hsends ha hb hfed hopen hfree hlock h =>
      obtain ⟨e, htake, howned⟩ := h.hands hs ht hb.tasks hb.log (.inl hfree) hlock
      refine ⟨.takes e (.inl ⟨?_, hopen⟩) (fun he _ ↦ eosSent_of_startsFlush ha he) htake, howned⟩
      show s.ioLock.bind s.inFlight? = none
      rw [hfree]
      rfl
  | written send hsend =>
      rw [hsend] at hk
      refine hrest (b := s.record _) ?_ ?_ rfl rfl ?_ ?_
      · rw [hsend]
        exact Pc.event?_sending hk
      · cases send with
        | data => cases hk
        | _ => rfl
      · exact events_record (by cases send <;> rfl)
      · refine sentEvents_record ?_
        cases send with
        | data => cases hk
        | _ => rfl
  | requestReturned hsend => exact hrest (by rw [hsend]; rfl) rfl rfl rfl rfl rfl
  | nextEvent s' packets streamId streamId' force who hsend =>
      rw [hsend] at hk
      cases hk
  | flushReturned b packets streamId isEos force who pc hsend =>
      rw [hsend] at hk
      cases hk
  | closeReturned b streamId reason who pc hsend hb _ hlock _ hpc =>
      exact hrest (by rw [hsend]; rfl) (Pc.event?_of_not_sends hpc) hb.tasks hlock
        (events_of_log hb.log) (sentEvents_of_log hb.log)
  | sendRaised b send phase pc hsend hb _ hlock _ hpc =>
      have hlock : b.ioLock = s.ioLock := by
        rcases hlock with ⟨hflush, -⟩ | hlock
        · rw [hk] at hflush
          cases hflush
        · exact hlock
      rw [hsend] at hk
      refine hrest ?_ (Pc.event?_of_not_sends hpc) hb.tasks hlock ?_ ?_
      · rw [hsend]
        exact Pc.event?_sending hk
      · exact (events_of_log hb.log).trans (events_record (by cases send <;> rfl))
      · exact (sentEvents_of_log hb.log).trans (sentEvents_record (by cases send <;> rfl))

/-- A step that moves no task. -/
theorem Owned.create (hs : s.Owned) (c : Call) (openTask : Option Nat) :
    Carries s a { s with tasks := s.tasks ++ [⟨c, .start⟩], openTask } ∧
      ({ s with tasks := s.tasks ++ [⟨c, .start⟩], openTask } : Session ε).Owned := by
  have hsame : ({ s with tasks := s.tasks ++ [⟨c, .start⟩], openTask } : Session ε).inFlight? =
      s.inFlight? := by
    funext t
    rw [inFlight?, inFlight?, pc?, pc?]
    cases ht : s.tasks[t]? with
    | some k => rw [List.getElem?_append_left (List.getElem?_eq_some_iff.mp ht).1, ht]
    | none =>
        cases hnew : (s.tasks ++ [⟨c, .start⟩])[t]? with
        | none => rfl
        | some k =>
            rcases getElem?_concat_eq_some.mp hnew with hold | ⟨-, rfl⟩
            · rw [ht] at hold
              cases hold
            · rfl
  refine ⟨.rests ?_, ?_⟩
  · show Courier.mk _ _ _ = Courier.mk _ _ _
    rw [hsame]
    rfl
  · intro t h
    rw [hsame] at h
    exact hs t h

/-- The send of a data event returns. -/
theorem Owned.resumes (hs : s.Owned) (ht : s.tasks[t]? = some k) (hk : k.pc.flushing = true)
    (h : s.resumeTask t k.pc = some s') : Carries s a s' ∧ s'.Owned := by
  have hreturns : ∀ {e : DataEvent} {b : Session ε} {who : Flusher},
      s.inFlight? t = some (e, true) → b.tasks = s.tasks → b.log = s.log →
      (e.endOfStream = true → b.eosSent = true) →
      Carries s a (b.flushReturned t who) ∧ (b.flushReturned t who).Owned := by
    intro e b who hflight htasks hlog heos
    obtain ⟨hlock, hway⟩ := hs.underWay hflight
    obtain ⟨pc, hpc, heq⟩ := b.flushReturned_eq t who
    obtain ⟨hdrop, howned⟩ := hs.leaves (b := b.release) pc ht htasks hlock rfl
      (Pc.event?_of_not_sends hpc) (events_of_log hlog) (sentEvents_of_log hlog)
    rw [heq]
    exact ⟨.returns e hway heos hdrop, howned⟩
  obtain ⟨c, pc⟩ := k
  rw [resumeTask.eq_def] at h
  dsimp only at h
  split at h
  · cases hk
  · next packets streamId isEos force who =>
    cases h
    have hflight : s.inFlight? t = some (⟨packets, isEos⟩, true) := inFlight?_eq ht
    rw [flushResume]
    split
    · exact hreturns hflight rfl rfl fun _ ↦ rfl
    · next hmore =>
      have hmore : isEos = false := Bool.eq_false_iff.mpr hmore
      subst hmore
      split
      · next streamId' _ =>
        rcases s.flushLoop_cases t streamId' force who with hev | heq
        · obtain ⟨hlock, hway⟩ := hs.underWay hflight
          obtain ⟨e, htake, howned⟩ := hev.hands hs ht rfl rfl (.inr hlock) hlock
          exact ⟨.takes e (.inr ⟨_, rfl, hway⟩) (fun _ ↦ hev.eosSent) htake, howned⟩
        · rw [heq]
          exact hreturns hflight rfl rfl (by rintro ⟨⟩)
      · exact hreturns hflight rfl rfl (by rintro ⟨⟩)
  · cases hk
  · cases h

/-- The send of a data event raises. -/
theorem Owned.raises (hs : s.Owned) (ht : s.tasks[t]? = some k) {packets : List Packet}
    {streamId : Int} {isEos force : Bool} {who : Flusher} {phase : SendPhase}
    (hk : k.pc = .sending (.data packets streamId isEos force who) phase) (e : PyErr) :
    Carries s (.fail t e)
        ((s.record (.raised (.data packets streamId isEos))).flushRaised t e who) ∧
      ((s.record (.raised (.data packets streamId isEos))).flushRaised t e who).Owned := by
  have hflight : s.inFlight? t =
      (Pc.sending (.data packets streamId isEos force who) phase).event? := by
    rw [inFlight?_eq ht, hk]
  obtain ⟨event, hevent⟩ : ∃ event,
      (Pc.sending (.data packets streamId isEos force who) phase).event? = some event := by
    cases phase <;> exact ⟨_, rfl⟩
  obtain ⟨hlock, hway⟩ := hs.underWay (hflight.trans hevent)
  have hpc : s.pc? t = some (.sending (.data packets streamId isEos force who) phase) :=
    Option.map_eq_some_iff.mpr ⟨k, ht, hk⟩
  obtain ⟨b, heq, htasks, hfree, hlog, hclosed⟩ : ∃ b : Session ε,
      (s.record (.raised (.data packets streamId isEos))).flushRaised t e who =
        b.goto t (.raised e) ∧
      b.tasks = s.tasks ∧ b.ioLock = none ∧
      b.log = s.log ++ [.raised (.data packets streamId isEos)] ∧
      (who = .open ∨ s.closed = true → b.closed = true) := by
    cases who with
    | «open» => exact ⟨_, rfl, rfl, rfl, rfl, fun _ ↦ rfl⟩
    | _ => exact ⟨_, rfl, rfl, rfl, rfl, fun h ↦ h.resolve_left nofun⟩
  obtain ⟨hdrop, howned⟩ := hs.leaves (b := b) (.raised e) ht htasks hlock hfree rfl
    ((events_of_log (s := s.record _) hlog).trans (events_record rfl))
    ((sentEvents_of_log (s := s.record _) hlog).trans (sentEvents_record rfl))
  rw [heq]
  exact ⟨.raises t e packets streamId isEos force who phase rfl hpc (hway.trans hevent.symm)
    hclosed hdrop, howned⟩

/-- **What each step of a session is to its courier.** -/
theorem Owned.carries (hs : s.Owned) (h : s.step opus cc a = some s') :
    Carries s a s' ∧ s'.Owned := by
  have hpc : ∀ {t : Nat} {pc : Pc}, s.pc? t = some pc →
      ∃ k : Task, s.tasks[t]? = some k ∧ k.pc = pc := fun h ↦ Option.map_eq_some_iff.mp h
  have hran : ∀ {t : Nat} {k : Task} {s' : Session ε}, Ran opus s cc a t k s' →
      s.tasks[t]? = some k → k.pc.flushing = false → Carries s a s' ∧ s'.Owned :=
    fun h ht hk ↦ h.carries hs ht hk
  cases a with
  | start =>
      cases h
      rw [Session.start]
      split
      · exact hs.create .open _
      · exact ⟨.rests rfl, hs⟩
  | call c =>
      cases c with
      | «open» => cases h
      | _ =>
          cases h
          exact hs.create _ s.openTask
  | run t =>
      obtain ⟨k, ht, hrun⟩ := Option.bind_eq_some_iff.mp h
      refine hran (ran_runTask ht hrun) ht ?_
      cases hk : k.pc with
      | sending =>
          rw [runTask.eq_def, hk] at hrun
          cases hrun
      | _ => rfl
  | response t status message onOpen =>
      simp only [step] at h
      split at h
      · next hawait =>
        cases h
        obtain ⟨k, ht, hk⟩ := hpc hawait
        exact hran (ran_openResponse (by rw [hk]; rfl) hawait rfl) ht (by rw [hk]; rfl)
      · cases h
  | sent t =>
      simp only [step] at h
      split at h
      · next send hsend =>
        obtain ⟨k, ht, hk⟩ := hpc hsend
        split at h
        · cases h
        · cases h
          cases hflush : k.pc.flushing with
          | false => exact hran (.written send hk) ht hflush
          | true =>
              cases send with
              | data packets streamId isEos force who =>
                  have hflight : s.inFlight? t = some (⟨packets, isEos⟩, false) := by
                    rw [inFlight?_eq ht, hk]
                    rfl
                  obtain ⟨hlock, hway⟩ := hs.underWay hflight
                  obtain ⟨hway', howned⟩ :=
                    hs.moves (b := s.record (.written (.data packets streamId isEos)))
                      (.sending (.data packets streamId isEos force who) .drain) ht rfl
                      (.inr hlock) hlock
                  refine ⟨.delivers t _ rfl hflight hway ?_, howned⟩
                  show Courier.mk _ _ _ = Courier.mk _ _ _
                  congr 1
                  · exact events_record rfl
                  · show (s.log ++ [_]).filterMap Entry.sentEvent? = _
                    rw [List.filterMap_append]
                    rfl
              | _ =>
                  rw [hk] at hflush
                  cases hflush
      · cases h
  | resume t =>
      obtain ⟨pc, hsome, hrun⟩ := Option.bind_eq_some_iff.mp h
      obtain ⟨k, ht, rfl⟩ := hpc hsome
      cases hflush : k.pc.flushing with
      | false => exact hran (ran_resumeTask hrun) ht hflush
      | true => exact hs.resumes ht hflush hrun
  | fail t e =>
      obtain ⟨pc, hsome, hrun⟩ := Option.bind_eq_some_iff.mp h
      obtain ⟨k, ht, rfl⟩ := hpc hsome
      cases hk : k.pc with
      | sending send phase =>
          rw [hk] at hrun
          cases hflush : k.pc.flushing with
          | false => exact hran (ran_sendRaised hk hrun) ht hflush
          | true =>
              rw [hk] at hflush
              cases send with
              | data packets streamId isEos force who =>
                  cases hrun
                  exact hs.raises ht hk e
              | _ => cases hflush
      | _ => exact hran (ran_awaitRaised (by rw [hk]; rfl) hrun) ht (by rw [hk]; rfl)
  | timeout t =>
      simp only [step] at h
      split at h
      · next hawait =>
        cases h
        obtain ⟨k, ht, hk⟩ := hpc hawait
        refine hran (ran_waitRaised (by rw [hk]; rfl) fun hmay _ ↦ ?_) ht (by rw [hk]; rfl)
        simp [handsClose, hmay, hawait]
      · next hawait =>
        cases h
        obtain ⟨k, ht, hk⟩ := hpc hawait
        exact hran (ran_goto (by rw [hk]; rfl) rfl) ht (by rw [hk]; rfl)
      · cases h
  | handleClose reason =>
      cases h
      have hrecord : (s.record (.received reason)).courier = s.courier := by
        show Courier.mk _ _ _ = Courier.mk _ _ _
        rw [events_record rfl, sentEvents_record rfl]
        rfl
      rcases s.handleClose_cases reason with ⟨-, heq⟩ | ⟨-, heq⟩
      · rw [heq]
        exact ⟨.rests hrecord, hs⟩
      · rw [heq]
        exact ⟨.rests hrecord, hs⟩

end Steps

/-! ## The flags of a session -/

section Flags

variable {opus : OpusEncoder ε} {s s' b : Session ε} {cc : Bool} {a : Label} {t : Nat} {k : Task}

variable (s t)

@[simp] theorem eosSent_closeReturned (who : Closer) :
    (s.closeReturned t who).eosSent = s.eosSent := by
  cases who <;> rfl

@[simp] theorem eosSent_closeRaised (e : PyErr) (who : Closer) :
    (s.closeRaised t e who).eosSent = s.eosSent := by
  cases who <;> rfl

@[simp] theorem eosSent_sendClose (reason : HDSCloseReason) (who : Closer) :
    (s.sendClose cc t reason who).eosSent = s.eosSent := by
  rw [sendClose]
  split
  · rfl
  · exact eosSent_closeReturned s t who

@[simp] theorem eosSent_flushReturned (who : Flusher) :
    (s.flushReturned t who).eosSent = s.eosSent := by
  cases who <;> rfl

@[simp] theorem eosSent_flushRaised (e : PyErr) (who : Flusher) :
    (s.flushRaised t e who).eosSent = s.eosSent := by
  cases who <;> rfl

@[simp] theorem eosSent_flushLoop (streamId : Int) (force : Bool) (who : Flusher) :
    (s.flushLoop t streamId force who).eosSent = s.eosSent := by
  rw [flushLoop]
  split
  · rfl
  · split
    · rfl
    · exact eosSent_flushReturned s t who

@[simp] theorem eosSent_flush (force : Bool) (who : Flusher) :
    (s.flush t force who).eosSent = s.eosSent := by
  rw [flush]
  split
  · exact eosSent_flushReturned s t who
  · split
    · exact eosSent_flushReturned s t who
    · exact eosSent_flushLoop s t _ force who

@[simp] theorem eosSent_writeLocked (pcm : Bytes) :
    (s.writeLocked opus t pcm).eosSent = s.eosSent := by
  rw [writeLocked]
  split
  · rfl
  · dsimp only
    split
    · exact eosSent_flush _ t false .write
    · rfl

@[simp] theorem eosSent_finishOpened : (s.finishOpened t).eosSent = s.eosSent := by
  rw [finishOpened]
  split
  · split <;> rfl
  · split
    · exact eosSent_flush _ t true .finish
    · rfl

@[simp] theorem eosSent_finishDrained : (s.finishDrained t).eosSent = s.eosSent := by
  rw [finishDrained]
  split
  · exact eosSent_finishOpened s t
  · exact eosSent_finishOpened s t
  · rfl
  · rfl

@[simp] theorem eosSent_locked (use : LockUse) : (s.locked opus t use).eosSent = s.eosSent := by
  cases use with
  | openFlush => exact eosSent_flush s t s.ending .open
  | write pcm => exact eosSent_writeLocked s t pcm
  | finishDrain pad =>
      refine (eosSent_finishDrained _ t).trans ?_
      exact (drainBuffer_base opus s pad).2.2.2.2
  | finishFlush => exact eosSent_flush s t true .finish

@[simp] theorem eosSent_acquire (use : LockUse) : (s.acquire opus t use).eosSent = s.eosSent := by
  rw [acquire]
  split
  · exact eosSent_locked (s.hold t) t use
  · rfl

@[simp] theorem eosSent_openResponse (status : Int) (message : List (Obj × Obj))
    (onOpen : Option PyErr) :
    (s.openResponse opus cc t status message onOpen).eosSent = s.eosSent := by
  simp only [openResponse]
  split
  · rfl
  · split
    · exact eosSent_sendClose _ t _ .open
    · exact eosSent_acquire _ t .openFlush

@[simp] theorem eosSent_waitRaised (e : PyErr) :
    (s.waitRaised cc t e).eosSent = s.eosSent := by
  rw [waitRaised]
  split
  · exact eosSent_sendClose s t .timeout .timeout
  · rfl

@[simp] theorem eosSent_cancelOpened (reason : HDSCloseReason) :
    (s.cancelOpened cc t reason).eosSent = s.eosSent := by
  rw [cancelOpened]
  split
  · exact eosSent_sendClose s t reason .cancel
  · rfl

@[simp] theorem eosSent_begin (c : Call) : (s.begin opus cc t c).eosSent = s.eosSent := by
  rw [begin.eq_def]
  cases c with
  | «open» => rfl
  | write pcm =>
      dsimp only
      split
      · rfl
      · exact eosSent_acquire s t _
  | finish positive pad =>
      dsimp only
      split
      · rfl
      · split
        · split <;> rfl
        · exact eosSent_acquire s t _
  | cancel reason =>
      dsimp only
      split
      · rfl
      · split
        · rfl
        · exact eosSent_cancelOpened _ t reason
  | handleAck endOfStream =>
      dsimp only
      split
      · rfl
      · exact eosSent_sendClose s t .normal .ack

variable {s t}

theorem eosSent_runTask (h : s.runTask opus cc t k = some s') : s'.eosSent = s.eosSent := by
  rw [runTask.eq_def] at h
  split at h
  · cases h
    exact eosSent_begin s t k.call
  · split at h
    · cases h
      exact eosSent_locked (s.hold t) t _
    · cases h
  · split at h
    · cases h
      exact eosSent_finishOpened s t
    · cases h
      rfl
    · cases h
  · split at h
    · split at h
      · cases h
        exact eosSent_waitRaised s t _
      · cases h
        rfl
    · cases h
  · split at h
    · cases h
      exact eosSent_cancelOpened s t _
    · cases h
      rfl
    · cases h
  · cases h

theorem eosSent_resumeTask {pc : Pc} (h : s.resumeTask t pc = some s') (hs : s.eosSent = true) :
    s'.eosSent = true := by
  rw [resumeTask.eq_def] at h
  split at h
  · cases h
    exact hs
  · cases h
    rw [flushResume]
    split
    · exact eosSent_flushReturned _ t _
    · split
      · exact (eosSent_flushLoop s t _ _ _).trans hs
      · exact (eosSent_flushReturned s t _).trans hs
  · cases h
    exact (eosSent_closeReturned _ t _).trans hs
  · cases h

theorem eosSent_failTask {pc : Pc} {e : PyErr} (h : s.failTask t e pc = some s') :
    s'.eosSent = s.eosSent := by
  have hmoved : ∀ {p : Prop} [Decidable p] {b : Session ε},
      (if p then some b else none) = some s' → b.eosSent = s.eosSent → s'.eosSent = s.eosSent := by
    intro p _ b h hb
    split at h
    · cases h
      exact hb
    · cases h
  rw [failTask.eq_def] at h
  split at h
  · exact hmoved h rfl
  · exact hmoved h rfl
  · exact hmoved h rfl
  · cases h
    rfl
  · exact hmoved h rfl
  · exact hmoved h rfl
  · next send phase =>
    cases send with
    | request =>
        cases h
        rfl
    | data packets streamId isEos force who =>
        cases h
        exact eosSent_flushRaised _ t e who
    | close streamId reason who =>
        cases h
        exact eosSent_closeRaised _ t e who
  · cases h

/-- A stream whose end is sent stays so. -/
theorem eosSent_step (h : s.step opus cc a = some s') (hs : s.eosSent = true) :
    s'.eosSent = true := by
  cases a with
  | start =>
      cases h
      rw [Session.start]
      split <;> exact hs
  | call c =>
      cases c with
      | «open» => cases h
      | _ =>
          cases h
          exact hs
  | run t =>
      obtain ⟨k, -, hrun⟩ := Option.bind_eq_some_iff.mp h
      exact (eosSent_runTask hrun).trans hs
  | response t status message onOpen =>
      simp only [step] at h
      split at h
      · cases h
        exact (eosSent_openResponse s t status message onOpen).trans hs
      · cases h
  | sent t =>
      simp only [step] at h
      split at h
      · split at h
        · cases h
        · cases h
          exact hs
      · cases h
  | resume t =>
      obtain ⟨pc, -, hrun⟩ := Option.bind_eq_some_iff.mp h
      exact eosSent_resumeTask hrun hs
  | fail t e =>
      obtain ⟨pc, -, hrun⟩ := Option.bind_eq_some_iff.mp h
      exact (eosSent_failTask hrun).trans hs
  | timeout t =>
      simp only [step] at h
      split at h
      · cases h
        exact (eosSent_waitRaised s t _).trans hs
      · cases h
        exact hs
      · cases h
  | handleClose reason =>
      cases h
      rcases s.handleClose_cases reason with ⟨-, heq⟩ | ⟨-, heq⟩
      · rw [heq]
        exact hs
      · rw [heq]
        exact hs

end Flags

end Session

end AtvRemote.Audio
