import AtvRemote.Audio.Blocks

/-!
# The stream of one utterance

A client writes PCM, one `write` after the other, and ends with one `finish`; the answer to
the open request comes at any time, and so do the steps of the open task.  Nobody cancels,
no send fails, and the Apple TV is silent until the end of the stream was handed over.
Then, whoever flushed what, the data events are the stream of the written PCM: its packets
in order, five to an event, and the end flag on the last event alone.
-/

namespace AtvRemote.Audio

open Lib

/-- The events of a stream. -/
structure IsStream {ε : Type} (opus : OpusEncoder ε) (pcm : Bytes) (pad : Bool)
    (events : List DataEvent) : Prop where
  /-- The packets are the encodings of the frames, numbered from zero. -/
  packets : events.flatMap DataEvent.packets =
    Session.packetsOf 0 (opus.encodeAll opus.init (streamFrames pcm pad)).1
  /-- The last event ends the stream, and the others are full. -/
  shape : ∃ (init : List DataEvent) (last : DataEvent), events = init ++ [last] ∧
    (∀ e ∈ init, e.packets.length = framesPerHdsEvent ∧ e.endOfStream = false) ∧
    last.endOfStream = true ∧ last.packets.length ≤ framesPerHdsEvent

/-- A `finish` that is past its flush. -/
def Task.flushed : Task → Bool
  | ⟨.finish _ _, .awaitDone⟩ | ⟨.finish _ _, .sending (.close _ _ _) _⟩
  | ⟨.finish _ _, .returned⟩ | ⟨.finish _ _, .raised _⟩ => true
  | _ => false

namespace Session

variable {ε : Type} {opus : OpusEncoder ε}

section Blocks

variable {s b : Session ε} {t : Nat} {k : Task} {pc : Pc}

/-! ## Steps -/

theorem Alike.local {c : Call} (h : Alike s b) (hs : s.Local t c pc) : b.Local t c pc := by
  have hend := endHanded_of_events h.events
  refine hs.mono (fun _ ↦ h.openTask.trans) h.stream h.ending.trans hend.mpr fun hf ↦ ?_
  exact ⟨h.ioLock.trans hf.lock, h.stream hf.stream, h.eosSent.trans hf.eosSent,
    fun hforce ↦ h.ending.trans (hf.force hforce), hf.endHanded.trans hend.symm⟩

theorem Alike.sound (h : Alike s b) (hs : s.Sound) (hclosed : b.closed = true → s.EndHanded) :
    b.Sound := by
  have hwritten : b.written = s.written := by rw [written, written, h.tasks]
  refine ⟨h.flow hs.flow hclosed, ?_, ?_, ?_, ?_, ?_, ?_⟩
  · rw [h.tasks]
    exact fun t k ht ↦ h.local (hs.placed.place t k ht)
  · rw [h.tasks, h.openTask]
    exact hs.placed.opener
  · rw [h.tasks, h.ioLock]
    exact hs.placed.owner
  · rw [h.tasks, h.ending, h.drained]
    exact hs.placed.drained
  · rw [h.tasks]
    exact hs.placed.client
  · rw [Settled, h.tasks, h.accepted, hwritten]
    exact hs.placed.settled

/-- The two places of a send are the same to a task. -/
theorem Local.phase {c : Call} {send : Send} {phase : SendPhase} (phase' : SendPhase)
    (h : s.Local t c (.sending send phase)) : s.Local t c (.sending send phase') := by
  cases c with
  | «open» =>
      cases send with
      | data packets streamId isEos force who => cases who <;> exact h
      | _ => exact h
  | write =>
      cases send with
      | data packets streamId isEos force who => cases who <;> exact h
      | _ => exact h
  | finish timeoutPositive =>
      cases timeoutPositive with
      | false => exact h.elim
      | true =>
          cases send with
          | request => exact h
          | data packets streamId isEos force who => cases who <;> exact h
          | close streamId reason who => cases who <;> exact h
  | cancel => exact h.elim
  | handleAck =>
      cases send with
      | close streamId reason who => cases who <;> exact h
      | _ => exact h.elim

theorem Local.flushes {c : Call} {packets : List Packet} {streamId : Int} {isEos force : Bool}
    {who : Flusher} {phase : SendPhase}
    (h : s.Local t c (.sending (.data packets streamId isEos force who) phase)) :
    s.Calls t c who force ∧ s.Flushes t isEos force := by
  cases c with
  | finish timeoutPositive =>
      cases timeoutPositive with
      | false => exact h.elim
      | true =>
          cases who with
          | finish => exact h
          | _ => exact h.elim
  | «open» =>
      cases who with
      | «open» => exact h
      | _ => exact h.elim
  | write =>
      cases who with
      | write => exact h
      | _ => exact h.elim
  | _ => exact h.elim

theorem Local.closes {c : Call} {streamId : Int} {reason : HDSCloseReason} {who : Closer}
    {phase : SendPhase} (h : s.Local t c (.sending (.close streamId reason who) phase)) :
    Closes c who ∧ s.EndHanded := by
  cases c with
  | finish timeoutPositive =>
      cases timeoutPositive with
      | false => exact h.elim
      | true =>
          cases who with
          | timeout => exact ⟨trivial, h⟩
          | _ => exact h.elim
  | handleAck =>
      cases who with
      | ack => exact ⟨trivial, h⟩
      | _ => exact h.elim
  | _ => exact h.elim

/-- `finish` after its wait raised. -/
theorem Sound.waitRaised (hs : s.Sound) {pad : Bool}
    (ht : s.tasks[t]? = some ⟨.finish true pad, .awaitDone⟩) (connectionClosed : Bool) (e : PyErr) :
    (s.waitRaised connectionClosed t e).Sound := by
  have hend : s.EndHanded := hs.placed.place t _ ht
  unfold Session.waitRaised
  split
  · exact hs.sendClose ht rfl rfl rfl hend (show Closes (.finish true pad) .timeout from trivial)
      connectionClosed .timeout
  · exact hs.move ht rfl rfl rfl hend

/-- The first step of a coroutine. -/
theorem Sound.begin (hs : s.Sound) {c : Call} (ht : s.tasks[t]? = some ⟨c, .start⟩)
    (connectionClosed : Bool) : (s.begin opus connectionClosed t c).Sound := by
  have hlocal := hs.placed.place t _ ht
  cases c with
  | «open» =>
      have hb : Alike s (s.record (.handed .open)) := .record rfl
      exact hs.goto ht rfl (hb.flow hs.flow hs.flow.closed) (hb.moves hs.placed ht (.inl rfl) rfl)
        (show (s.record (.handed .open)).Local t .open (.sending .request .queued) from
          hb.local hlocal)
  | write pcm =>
      simp only [Session.begin]
      split
      · next hempty =>
        have hb : Block s s t ⟨.write pcm, .start⟩ := by
          refine ⟨rfl, (Alike.refl s).grows t, fun h ↦ .inl ⟨h, rfl⟩, .inr ⟨pcm, rfl, ?_⟩⟩
          rw [List.isEmpty_iff.mp hempty, List.append_nil]
        exact hs.goto ht rfl hs.flow
          (hb.moves rfl fun t' ht' ↦ .inr ⟨hs.placed.owner_ne ht rfl ht', ht'⟩) trivial
      · exact hs.acquire ht rfl rfl (fun hfree ↦ hs.writeLocked ht rfl rfl rfl hfree) rfl rfl
  | finish timeoutPositive pad =>
      cases timeoutPositive with
      | false => exact hlocal.elim
      | true =>
          simp only [Session.begin, Bool.not_true, Bool.false_eq_true, if_false]
          split
          · next hclosed =>
            have hend := hs.flow.closed hclosed
            split
            · exact hs.move ht rfl rfl rfl hend
            · exact hs.move ht rfl rfl rfl hend
          · exact hs.acquire ht rfl rfl (fun hfree ↦ hs.finishDrain ht rfl rfl hlocal hfree) rfl
              ⟨hlocal, rfl⟩
  | cancel => exact hlocal.elim
  | handleAck endOfStream =>
      simp only [Session.begin]
      split
      · exact hs.move ht rfl rfl rfl trivial
      · next hgo =>
        simp only [Bool.or_eq_true, not_or, Bool.not_eq_true', Bool.not_eq_false] at hgo
        exact hs.sendClose ht rfl rfl rfl (hlocal hgo.1.2)
          (show Closes (.handleAck endOfStream) .ack from trivial) connectionClosed .normal

/-- A task runs on. -/
theorem Sound.runTask {s' : Session ε} (hs : s.Sound) (ht : s.tasks[t]? = some k)
    {connectionClosed : Bool} (h : s.runTask opus connectionClosed t k = some s') : s'.Sound := by
  obtain ⟨c, pc⟩ := k
  have hlocal := hs.placed.place t _ ht
  unfold Session.runTask at h
  cases pc with
  | start =>
      cases h
      exact hs.begin ht connectionClosed
  | awaitLock use =>
      simp only at h
      split at h
      · next hfree =>
        cases h
        have hfree : s.ioLock = none := Option.isNone_iff_eq_none.mp hfree
        cases c with
        | «open» =>
            cases use with
            | openFlush =>
                have hmine : Block s (s.hold t) t ⟨.open, .awaitLock .openFlush⟩ :=
                  ⟨rfl, ⟨rfl, id, id, id, .inr (.inl hfree)⟩, fun h ↦ .inl ⟨h, rfl⟩,
                    .inl ⟨rfl, rfl⟩⟩
                have heos : s.EndHanded → s.eosSent = true := fun h ↦
                  (hs.flow.ended h).2.2.resolve_right fun hlock ↦ hlock hfree
                refine hs.flush ht rfl hmine ?_ rfl (.inl hfree) hlocal.2 hlocal.1 id fun h ↦
                  ⟨(hs.flow.ended h).1, heos h⟩
                exact ⟨hs.flow.noCancel, fun h ↦ ⟨(hs.flow.ended h).1, (hs.flow.ended h).2.1,
                  .inr nofun⟩, hs.flow.eosSent, hs.flow.closed, hs.flow.order⟩
            | _ => exact hlocal.elim
        | write pcm =>
            cases use with
            | write pcm' =>
                have hpcm : pcm' = pcm := hlocal
                subst hpcm
                exact hs.writeLocked ht rfl rfl rfl hfree
            | _ => exact hlocal.elim
        | finish timeoutPositive pad =>
            cases timeoutPositive with
            | false => exact hlocal.elim
            | true =>
                cases use with
                | finishDrain pad' =>
                    have hpad : pad' = pad := hlocal.2
                    subst hpad
                    exact hs.finishDrain ht rfl rfl hlocal.1 hfree
                | finishFlush =>
                    have heos : s.EndHanded → s.eosSent = true := fun h ↦
                      (hs.flow.ended h).2.2.resolve_right fun hlock ↦ hlock hfree
                    refine hs.flush (b := s.hold t) ht rfl ?_ ?_ rfl (.inl hfree) hlocal.2 rfl
                      (fun _ ↦ hlocal.1) fun h ↦ ⟨rfl, heos h⟩
                    · exact ⟨rfl, ⟨rfl, id, id, id, .inr (.inl hfree)⟩, fun h ↦ .inl ⟨h, rfl⟩,
                        .inl ⟨rfl, rfl⟩⟩
                    · exact ⟨hs.flow.noCancel, fun h ↦ ⟨(hs.flow.ended h).1, (hs.flow.ended h).2.1,
                        .inr nofun⟩, hs.flow.eosSent, hs.flow.closed, hs.flow.order⟩
                | _ => exact hlocal.elim
        | _ => exact hlocal.elim
      · cases h
  | awaitOpen =>
      cases c with
      | finish timeoutPositive pad =>
          cases timeoutPositive with
          | false => exact hlocal.elim
          | true =>
              obtain ⟨hstarted, hending⟩ := hlocal
              simp only at h
              split at h
              · next hpc =>
                cases h
                refine hs.finishOpened ht rfl rfl ?_ hs.flow
                  (fun t' ht' ↦ ⟨hs.placed.owner_ne ht rfl ht', ht'⟩) hending
                  (hs.placed.stream_of_openPc hstarted hpc)
                exact ⟨rfl, (Alike.refl s).grows t, fun h ↦ .inl ⟨h, rfl⟩, .inl ⟨rfl, rfl⟩⟩
              · next e hpc => exact (hs.placed.openPc_ne_raised hstarted e hpc).elim
              · cases h
      | _ => exact hlocal.elim
  | awaitDone =>
      cases c with
      | finish timeoutPositive pad =>
          cases timeoutPositive with
          | false => exact hlocal.elim
          | true =>
              simp only at h
              split at h
              · split at h
                · next e _ =>
                  cases h
                  exact hs.waitRaised ht connectionClosed e
                · cases h
                  exact hs.move ht rfl rfl rfl hlocal
              · cases h
      | _ => exact hlocal.elim
  | awaitShielded =>
      cases c with
      | finish timeoutPositive => cases timeoutPositive <;> exact hlocal.elim
      | _ => exact hlocal.elim
  | _ => cases h

/-- A send that returns. -/
theorem Sound.resumeTask {s' : Session ε} (hs : s.Sound) (ht : s.tasks[t]? = some k)
    (h : s.resumeTask t k.pc = some s') : s'.Sound := by
  obtain ⟨c, pc⟩ := k
  have hlocal := hs.placed.place t _ ht
  have hwait : ∀ {send : Send} {phase : SendPhase}, pc = .sending send phase →
      Task.waiting ⟨c, pc⟩ = none := by
    rintro send phase rfl
    exact waiting_sending
  unfold Session.resumeTask at h
  split at h
  · next hpc =>
    cases h
    cases hpc
    cases c with
    | «open» => exact hs.move ht rfl rfl rfl hlocal
    | finish timeoutPositive => cases timeoutPositive <;> exact hlocal.elim
    | _ => exact hlocal.elim
  · next packets streamId isEos force who hpc =>
    cases h
    cases hpc
    obtain ⟨hcalls, hf⟩ := hlocal.flushes
    exact hs.flushResume ht rfl (hwait rfl) hcalls hf
  · next streamId reason who hpc =>
    cases h
    cases hpc
    obtain ⟨hcloses, hend⟩ := hlocal.closes
    exact hs.closeReturned (b := { s with closeSent := true }) ht rfl rfl (hwait rfl)
      ⟨rfl, rfl, id, rfl, rfl, rfl, rfl, rfl, rfl, rfl, rfl⟩ hend hcloses
  · cases h

end Blocks

/-- A step that leaves the client and the stream undisturbed: the client calls when it is
idle, nobody cancels, no send fails, the response opens a stream, and the Apple TV ends
nothing before the end of the stream was handed over. -/
def Undisturbed (s : Session ε) : Label → Prop
  | .call (.write _) => s.Idle
  | .call (.finish timeoutPositive _) => timeoutPositive = true ∧ s.Idle
  | .call (.cancel _) => False
  | .call (.handleAck endOfStream) => endOfStream = true → s.EndHanded
  | .response _ status message onOpen => opensStream status message onOpen = true
  | .fail _ _ => False
  | .handleClose _ => s.EndHanded
  | _ => True

instance (s : Session ε) : (a : Label) → Decidable (s.Undisturbed a)
  | .call (.write _) => inferInstanceAs (Decidable s.Idle)
  | .call (.finish _ _) => inferInstanceAs (Decidable (_ ∧ _))
  | .call (.cancel _) => inferInstanceAs (Decidable False)
  | .call (.handleAck _) => inferInstanceAs (Decidable (_ → _))
  | .call .open => inferInstanceAs (Decidable True)
  | .response _ _ _ _ => inferInstanceAs (Decidable (_ = _))
  | .fail _ _ => inferInstanceAs (Decidable False)
  | .handleClose _ => inferInstanceAs (Decidable s.EndHanded)
  | .start => inferInstanceAs (Decidable True)
  | .run _ => inferInstanceAs (Decidable True)
  | .sent _ => inferInstanceAs (Decidable True)
  | .resume _ => inferInstanceAs (Decidable True)
  | .timeout _ => inferInstanceAs (Decidable True)

/-- A step of a session. -/
theorem Sound.step {s s' : Session ε} {connectionClosed : Bool} {a : Label} (hs : s.Sound)
    (hok : s.Undisturbed a) (h : s.step opus connectionClosed a = some s') : s'.Sound := by
  have hpc : ∀ {t : Nat} {pc : Pc}, s.pc? t = some pc →
      ∃ c : Call, s.tasks[t]? = some ⟨c, pc⟩ := by
    intro t pc h
    obtain ⟨⟨c, pc'⟩, hk, rfl⟩ := Option.map_eq_some_iff.mp h
    exact ⟨c, hk⟩
  cases a with
  | start =>
      simp only [Session.step, Session.start, Option.some.injEq] at h
      split at h
      · next hnone =>
        subst h
        exact hs.create rfl (.inr ⟨Option.isNone_iff_eq_none.mp hnone, rfl, rfl⟩) rfl (by rintro ⟨⟩)
      · subst h
        exact hs
  | call c =>
      cases c with
      | «open» => cases h
      | write pcm =>
          cases h
          exact hs.create rfl (.inl rfl) trivial fun _ ↦ hok
      | finish timeoutPositive pad =>
          cases h
          obtain ⟨rfl, hidle⟩ := hok
          exact hs.create rfl (.inl rfl) hidle.1 fun _ ↦ hidle
      | cancel => exact hok.elim
      | handleAck endOfStream =>
          cases h
          exact hs.create rfl (.inl rfl) hok (by rintro ⟨⟩)
  | run t =>
      obtain ⟨k, hk, hrun⟩ := Option.bind_eq_some_iff.mp h
      exact hs.runTask hk hrun
  | response t status message onOpen =>
      simp only [Session.step] at h
      split at h
      · next hawait =>
        cases h
        obtain ⟨c, hk⟩ := hpc hawait
        exact hs.openResponse hk rfl hok connectionClosed
      · cases h
  | sent t =>
      simp only [Session.step] at h
      split at h
      · next send hsend =>
        split at h
        · cases h
        · cases h
          obtain ⟨c, hk⟩ := hpc hsend
          have hb : Alike s (s.record (.written send.outgoing)) :=
            .record (by cases send <;> rfl)
          refine hs.goto hk rfl (hb.flow hs.flow hs.flow.closed) (hb.moves hs.placed hk ?_ ?_)
            (hb.local ((hs.placed.place t _ hk).phase .drain))
          · cases send with
            | data => exact .inr rfl
            | _ => exact .inl rfl
          · exact waiting_sending.trans waiting_sending.symm
      · cases h
  | resume t =>
      obtain ⟨pc, hsome, hrun⟩ := Option.bind_eq_some_iff.mp h
      obtain ⟨c, hk⟩ := hpc hsome
      exact hs.resumeTask hk hrun
  | fail => exact hok.elim
  | timeout t =>
      simp only [Session.step] at h
      split at h
      · next hawait =>
        cases h
        obtain ⟨c, hk⟩ := hpc hawait
        have hlocal := hs.placed.place t _ hk
        cases c with
        | finish timeoutPositive pad =>
            cases timeoutPositive with
            | false => exact hlocal.elim
            | true => exact hs.waitRaised hk connectionClosed _
        | _ => exact hlocal.elim
      · next hawait =>
        obtain ⟨c, hk⟩ := hpc hawait
        have hlocal := hs.placed.place t _ hk
        cases c with
        | finish timeoutPositive => cases timeoutPositive <;> exact hlocal.elim
        | _ => exact hlocal.elim
      · cases h
  | handleClose reason =>
      cases h
      have hb : Alike s (s.record (.received reason)) := .record rfl
      unfold Session.handleClose
      simp only
      split
      · exact hb.sound hs hs.flow.closed
      · exact Alike.sound ⟨hb.1, hb.2, hb.3, hb.4, hb.5, hb.6, hb.7, hb.8, hb.9, hb.10, hb.11⟩ hs
          fun _ ↦ hok

theorem sound_new (encoder : ε) : (Session.new encoder).Sound := by
  have hevents : (Session.new encoder).events = [] := rfl
  refine ⟨⟨rfl, ?_, ?_, ?_, ?_⟩, ⟨?_, ?_, ?_, ?_, ?_, .inl ⟨?_, rfl⟩⟩⟩
  · rintro ⟨e, hmem, -⟩
    cases hmem
  · intro h
    cases h
  · intro h
    cases h
  · intro e hmem
    cases hmem
  · intro t k h
    cases h
  · intro t h
    cases h
  · intro t h
    cases h
  · intro h
    cases h
  · intro t t' k k' _ h
    cases h
  · intro k hmem
    cases hmem

/-! ## Progress -/

/-- A step that the event loop or the connection owes to a task. -/
def Label.progress : Label → Bool
  | .run _ | .response _ _ _ _ | .sent _ | .resume _ => true
  | _ => false

/-- Some step is owed. -/
def Owed (opus : OpusEncoder ε) (s : Session ε) : Prop :=
  ∃ a : Label, a.progress = true ∧ s.Undisturbed a ∧ (s.step opus false a).isSome = true

section Progress

variable {s : Session ε} {t : Nat} {c : Call} {pc : Pc}

theorem owed_of_sending {send : Send} {phase : SendPhase}
    (ht : s.tasks[t]? = some ⟨c, .sending send phase⟩) : s.Owed opus := by
  have hpc : s.pc? t = some (.sending send phase) := by
    rw [pc?, ht]
    rfl
  cases phase with
  | queued =>
      refine ⟨.sent t, rfl, trivial, ?_⟩
      simp only [Session.step, hpc]
      rfl
  | drain =>
      refine ⟨.resume t, rfl, trivial, ?_⟩
      simp only [Session.step, hpc, Option.bind_some]
      cases send <;> rfl

theorem owed_of_start (ht : s.tasks[t]? = some ⟨c, .start⟩) : s.Owed opus := by
  refine ⟨.run t, rfl, trivial, ?_⟩
  simp only [Session.step, ht, Option.bind_some]
  rfl

/-- A task that waits for the lock gets it, or its owner goes on with its flush. -/
theorem Sound.owed_of_awaitLock (hs : s.Sound) {use : LockUse}
    (ht : s.tasks[t]? = some ⟨c, .awaitLock use⟩) : s.Owed opus := by
  cases hlock : s.ioLock with
  | none =>
      refine ⟨.run t, rfl, trivial, ?_⟩
      simp only [Session.step, ht, Option.bind_some, Session.runTask, hlock, Option.isNone_none,
        if_true, Option.isSome_some]
  | some owner =>
      obtain ⟨⟨c', pc'⟩, hk, hflush⟩ := hs.placed.owner owner hlock
      cases pc' with
      | sending send phase => exact owed_of_sending hk
      | _ => cases hflush

/-- The open task has returned, or a step of it is owed. -/
theorem Sound.opened_or_owed (hs : s.Sound) (h : s.openTask.isSome = true) :
    s.openPc = some .returned ∨ s.Owed opus := by
  obtain ⟨t, ⟨c, pc⟩, -, hk, rfl, hopen⟩ := hs.placed.openPc h
  have hlocal := hs.placed.place t _ hk
  cases pc with
  | start => exact .inr (owed_of_start hk)
  | awaitResponse =>
      refine .inr ⟨.response t 0 [(.text "streamId", .int 0)] none, rfl, ?_, ?_⟩
      · show opensStream _ _ _ = true
        decide
      · have hpc : s.pc? t = some .awaitResponse := by
          rw [pc?, hk]
          rfl
        simp only [Session.step, hpc, if_true, Option.isSome_some]
  | awaitLock => exact .inr (hs.owed_of_awaitLock hk)
  | sending => exact .inr (owed_of_sending hk)
  | returned => exact .inl hopen
  | _ => exact hlocal.elim

/-- **A `finish` that is not past its flush is not stuck.** -/
theorem Sound.owed (hs : s.Sound) {timeoutPositive pad : Bool}
    (ht : s.tasks[t]? = some ⟨.finish timeoutPositive pad, pc⟩)
    (hflushed : Task.flushed ⟨.finish timeoutPositive pad, pc⟩ = false) : s.Owed opus := by
  have hlocal := hs.placed.place t _ ht
  cases timeoutPositive with
  | false => exact hlocal.elim
  | true =>
      cases pc with
      | start => exact owed_of_start ht
      | awaitLock => exact hs.owed_of_awaitLock ht
      | sending => exact owed_of_sending ht
      | awaitOpen =>
          rcases hs.opened_or_owed hlocal.1 with hopen | howed
          · refine ⟨.run t, rfl, trivial, ?_⟩
            simp only [Session.step, ht, Option.bind_some, Session.runTask, hopen,
              Option.isSome_some]
          · exact howed
      | awaitDone => cases hflushed
      | returned => cases hflushed
      | raised => cases hflushed
      | _ => exact hlocal.elim

/-- A `finish` that is past its flush has seen the end of the stream handed over. -/
theorem Sound.endHanded (hs : s.Sound) {timeoutPositive pad : Bool}
    (ht : s.tasks[t]? = some ⟨.finish timeoutPositive pad, pc⟩)
    (hflushed : Task.flushed ⟨.finish timeoutPositive pad, pc⟩ = true) : s.EndHanded := by
  have hlocal := hs.placed.place t _ ht
  cases timeoutPositive with
  | false => exact hlocal.elim
  | true =>
      cases pc with
      | sending send phase =>
          cases send with
          | close => exact hlocal.closes.2
          | _ => cases hflushed
      | awaitDone => exact hlocal
      | returned => exact hlocal
      | raised => exact hlocal
      | _ => cases hflushed

/-- All writes have been accepted when there is a `finish`, and it says whether to pad. -/
theorem Sound.pcmFrames (hs : s.Sound) {timeoutPositive pad : Bool}
    (ht : s.tasks[t]? = some ⟨.finish timeoutPositive pad, pc⟩) (hending : s.ending = true) :
    s.pcmFrames = streamFrames s.written pad := by
  have hclient : (⟨.finish timeoutPositive pad, pc⟩ : Task).call.fromClient = true := rfl
  -- any other client task is an earlier `write` that has returned
  have hothers : ∀ {t' : Nat} {k' : Task}, t' ≠ t → s.tasks[t']? = some k' →
      k'.call.fromClient = true → k'.pc = .returned ∧ k' = ⟨.write k'.call.pcm, k'.pc⟩ := by
    intro t' k' hne ht' hc
    rcases Nat.lt_or_gt_of_ne hne with hlt | hlt
    · exact hs.placed.client t' t k' _ hlt ht' ht hc hclient
    · cases (hs.placed.client t t' _ k' hlt ht ht' hclient hc).2
  have hdrained : s.drained = some pad := by
    obtain ⟨pad', hpad, k', hmem, hcall⟩ := hs.placed.drained hending
    obtain ⟨t', ht'⟩ := List.mem_iff_getElem?.mp hmem
    by_cases hne : t' = t
    · subst hne
      rw [ht] at ht'
      cases ht'
      cases hcall
      exact hpad
    · have hback := (hothers hne ht' (by rw [hcall]; rfl)).2
      rw [hback] at hcall
      cases hcall
  have haccepted : s.accepted = s.written := by
    rcases hs.placed.settled with ⟨-, hall⟩ | ⟨t', ⟨c', pc'⟩, pcm, ht', hwait, -, -⟩
    · exact hall
    · by_cases hne : t' = t
      · subst hne
        rw [ht] at ht'
        cases ht'
        cases hwait
      · cases c' with
        | write =>
            have hback : pc' = .returned := (hothers hne ht' rfl).1
            subst hback
            cases hwait
        | _ => cases hwait
  rw [Session.pcmFrames, hdrained, haccepted]
  rfl

/-- **The events of a stream that has ended.** -/
theorem Sound.isStream (hs : s.Sound) (hacc : s.Accounted opus) {timeoutPositive pad : Bool}
    (ht : s.tasks[t]? = some ⟨.finish timeoutPositive pad, pc⟩) (hend : s.EndHanded) :
    IsStream opus s.written pad s.events where
  packets := by
    obtain ⟨hending, hframes, -⟩ := hs.flow.ended hend
    have hpackets := hacc.packets
    rw [hframes, hs.pcmFrames ht hending] at hpackets
    exact (List.append_nil _).symm.trans hpackets
  shape := by
    obtain ⟨e, hmem, he⟩ := hend
    have hne : s.events ≠ [] := List.ne_nil_of_mem hmem
    have hsplit : s.events.dropLast ++ [s.events.getLast hne] = s.events :=
      List.dropLast_append_getLast hne
    have hlast : e = s.events.getLast hne := by
      rw [← hsplit] at hmem
      rcases List.mem_append.mp hmem with hmem | hmem
      · rw [hs.flow.order e hmem] at he
        cases he
      · exact List.mem_singleton.mp hmem
    refine ⟨s.events.dropLast, s.events.getLast hne, hsplit.symm, fun e' hmem' ↦ ?_,
      hlast ▸ he, (hacc.sized _ (List.getLast_mem hne)).1⟩
    have hopen := hs.flow.order e' hmem'
    exact ⟨(hacc.sized e' (List.dropLast_subset _ hmem')).2 hopen, hopen⟩

end Progress

end Session

/-- The connection stays open, and the session is left undisturbed. -/
def Undisturbed {ε : Type} (s : Live ε) : Event → Prop
  | .session a => s.session.Undisturbed a
  | .connectionClosed => False

instance {ε : Type} (s : Live ε) : (a : Event) → Decidable (Undisturbed s a)
  | .session a => inferInstanceAs (Decidable (s.session.Undisturbed a))
  | .connectionClosed => inferInstanceAs (Decidable False)

/-- **In an undisturbed run the data events are the stream of the written PCM.**  A
`finish` that is not past its flush yet has a step owed. -/
theorem streamIntegrity {ε : Type} (opus : OpusEncoder ε) (s : Live ε) (t : Nat)
    (timeoutPositive pad : Bool) (pc : Pc)
    (hrun : (sessions opus).ReachableVia Undisturbed s)
    (ht : s.session.tasks[t]? = some ⟨.finish timeoutPositive pad, pc⟩) :
    if Task.flushed ⟨.finish timeoutPositive pad, pc⟩ then
      IsStream opus s.session.written pad s.session.events
    else s.session.Owed opus := by
  have hsound : s.session.Sound := by
    refine hrun.invariant (I := fun s ↦ s.session.Sound) ?_ ?_
    · rintro s rfl
      exact Session.sound_new opus.init
    · rintro s s' a hs hok hstep
      cases a with
      | connectionClosed => exact hok.elim
      | session a =>
          obtain ⟨session, hsession, rfl⟩ := Option.map_eq_some_iff.mp hstep
          exact hs.step hok hsession
  split
  · next hflushed =>
    exact hsound.isStream (accounted opus hrun.reachable) ht (hsound.endHanded ht hflushed)
  · next hflushed => exact hsound.owed ht (Bool.eq_false_iff.mpr hflushed)

/-- Three bytes are written before the response comes, and the stream is finished. -/
def finishedOnce : List Event :=
  [.session .start, .session (.run 0), .session (.call (.write [1, 2, 3])), .session (.run 1),
    .session (.sent 0), .session (.resume 0), .session (.call (.finish true true)),
    .session (.run 2), .session (.response 0 0 [(.text "streamId", .int 7)] none),
    .session (.sent 0), .session (.resume 0), .session (.run 2)]

/-- The stream of three bytes. -/
theorem streamIntegrity_finishedOnce :
    ∃ s, (sessions .verbatim).exec ⟨.new (), false⟩ finishedOnce = some s ∧
      IsStream .verbatim s.session.written true s.session.events := by
  have hsome : ((sessions .verbatim).exec ⟨.new (), false⟩ finishedOnce).isSome := by decide
  obtain ⟨s, hs⟩ := Option.isSome_iff_exists.mp hsome
  have hinit : (sessions .verbatim).Run [] ⟨.new (), false⟩ := .init rfl
  have hok : ∀ p ∈ (sessions .verbatim).trace ⟨.new (), false⟩ finishedOnce,
      Undisturbed p.1 p.2 := by decide
  have hfinish : ((sessions .verbatim).exec ⟨.new (), false⟩ finishedOnce).map
      (fun s ↦ s.session.tasks[2]?) = some (some ⟨.finish true true, .awaitDone⟩) := by decide
  rw [hs] at hfinish
  have h := streamIntegrity .verbatim s 2 true true .awaitDone ((hinit.exec hs).reachableVia hok)
    (Option.some.inj hfinish)
  exact ⟨s, hs, h⟩

end AtvRemote.Audio
