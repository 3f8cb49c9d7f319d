import AtvRemote.Audio.Places

/-!
# The blocks of an undisturbed session

Each function that a step runs through keeps a session sound: the flush, the blocks under
the I/O lock, the close of a stream that has ended, the open response, and new tasks.
-/

namespace AtvRemote.Audio

open Lib

namespace Session

variable {ε : Type} {opus : OpusEncoder ε}

/-- The coroutine calls `_flush_locked(force)`. -/
def Calls (s : Session ε) (t : Nat) : Call → Flusher → Bool → Prop
  | .open, .open, _ => s.openTask = some t
  | .write _, .write, force => force = false
  | .finish true _, .finish, force => force = true
  | _, _, _ => False

section Blocks

variable {s b : Session ε} {t : Nat} {k : Task} {pc : Pc}

/-! ## `_flush_locked` -/

theorem Calls.local_sending {force isEos : Bool} {who : Flusher} {packets : List Packet}
    {streamId : Int} {phase : SendPhase} (h : b.Calls t k.call who force)
    (hf : b.Flushes t isEos force) :
    b.Local t k.call (.sending (.data packets streamId isEos force who) phase) := by
  unfold Calls at h
  split at h
  · next hc =>
    rw [hc]
    exact ⟨h, hf⟩
  · next hc =>
    rw [hc]
    exact ⟨h, hf⟩
  · next hc =>
    rw [hc]
    exact ⟨h, hf⟩
  · exact h.elim

theorem waiting_sending {c : Call} {send : Send} {phase : SendPhase} :
    Task.waiting ⟨c, .sending send phase⟩ = none := by
  cases c <;> rfl

/-- The end of the stream is handed over with the end flag. -/
theorem endHanded_hand (t : Nat) (packets : List Packet) (streamId : Int) (isEos force : Bool)
    (who : Flusher) (hnot : ¬ b.EndHanded) :
    (b.hand t (.data packets streamId isEos force who)).events =
        b.events ++ [⟨packets, isEos⟩] ∧
      (isEos = true ↔ (b.hand t (.data packets streamId isEos force who)).EndHanded) := by
  have hevents : (b.hand t (.data packets streamId isEos force who)).events =
      b.events ++ [⟨packets, isEos⟩] := by
    simp [events, Session.hand, Session.record, Send.outgoing, Entry.dataEvent?]
  refine ⟨hevents, fun hEos ↦ ⟨⟨packets, isEos⟩, ?_, hEos⟩, ?_⟩
  · rw [hevents]
    exact List.mem_append_right _ (List.mem_singleton_self _)
  · rintro ⟨e, hmem, he⟩
    rw [hevents] at hmem
    rcases List.mem_append.mp hmem with hmem | hmem
    · exact (hnot ⟨e, hmem, he⟩).elim
    · rw [List.mem_singleton.mp hmem] at he
      exact he

/-- An event is handed over while the stream has not ended. -/
theorem Sound.hand_data (hs : s.Sound) (ht : s.tasks[t]? = some k) (hk : k.pc.done = false)
    (hb : Block s b t k) (hflow : b.Flow) (hlock : b.ioLock = some t)
    (hmine : s.ioLock = none ∨ s.ioLock = some t) (hnot : ¬ b.EndHanded)
    (hstream : b.streamId.isSome = true) {packets : List Packet} {streamId : Int}
    {isEos force : Bool} {who : Flusher} (hcalls : b.Calls t k.call who force)
    (hforce : force = true → b.ending = true)
    (hlast : isEos = true → force = true ∧ b.frames = []) :
    (b.hand t (.data packets streamId isEos force who)).Sound := by
  obtain ⟨hevents, hend⟩ := endHanded_hand t packets streamId isEos force who hnot
  have heos : b.eosSent = false := by
    cases h : b.eosSent with
    | false => rfl
    | true => exact (hnot (hflow.eosSent h)).elim
  refine hs.goto (b := b.record _) ht hk ?_ ?_ ?_
  · exact {
      noCancel := hflow.noCancel
      ended := fun h ↦ by
        obtain ⟨hf, hframes⟩ := hlast (hend.mpr h)
        refine ⟨hforce hf, hframes, .inr ?_⟩
        rw [show (b.record _).ioLock = some t from hlock]
        exact nofun
      eosSent := fun h ↦ by
        rw [show (b.record _).eosSent = false from heos] at h
        cases h
      closed := fun h ↦ (hnot (hflow.closed h)).elim
      order := by
        intro e he
        rw [show (b.record _).events = _ from hevents, List.dropLast_concat] at he
        exact Bool.eq_false_iff.mpr fun htrue ↦ hnot ⟨e, he, htrue⟩ }
  · refine Block.moves ⟨hb.tasks, ?_, hb.drained, hb.accepted⟩ waiting_sending ?_
    · exact ⟨hb.grows.openTask, hb.grows.stream, hb.grows.ending,
        fun h ↦ (hnot (hb.grows.endHanded h)).elim, .inr hmine⟩
    · intro t' ht'
      rw [show (b.record _).ioLock = some t from hlock] at ht'
      exact .inl ⟨(Option.some.inj ht').symm, rfl⟩
  · have hcalls' : (b.record (.handed (.data packets streamId isEos))).Calls t k.call who force :=
      hcalls
    exact hcalls'.local_sending ⟨hlock, hstream, heos, hforce, hend⟩

/-- The flush is over. -/
theorem Sound.flushReturned (hs : s.Sound) (ht : s.tasks[t]? = some k) (hk : k.pc.done = false)
    (hb : Block s b t k) (hflow : b.Flow) (hmine : s.ioLock = none ∨ s.ioLock = some t)
    (heos : b.EndHanded → b.eosSent = true) (hstream : b.streamId.isSome = true) {force : Bool}
    {who : Flusher} (hcalls : b.Calls t k.call who force)
    (hend : force = true → b.EndHanded) : (b.flushReturned t who).Sound := by
  have hrelease : b.release.Flow := {
    noCancel := hflow.noCancel
    ended := fun h ↦ ⟨(hflow.ended h).1, (hflow.ended h).2.1, .inl (heos h)⟩
    eosSent := hflow.eosSent
    closed := hflow.closed
    order := hflow.order }
  have hmoves : ∀ {pc : Pc}, Task.waiting ⟨k.call, pc⟩ = none → Moves s b.release t k pc := by
    intro pc hwait
    refine Block.moves ⟨hb.tasks, ?_, hb.drained, hb.accepted⟩ hwait nofun
    exact ⟨hb.grows.openTask, hb.grows.stream, hb.grows.ending, hb.grows.endHanded, .inr hmine⟩
  unfold Calls at hcalls
  split at hcalls
  · next hc =>
    refine hs.goto ht hk hrelease (hmoves (by rw [hc]; rfl)) ?_
    rw [hc]
    exact ⟨hcalls, hstream⟩
  · next hc =>
    refine hs.goto ht hk hrelease (hmoves (by rw [hc]; rfl)) ?_
    rw [hc]
    trivial
  · next hc =>
    refine hs.goto ht hk hrelease (hmoves (by rw [hc]; rfl)) ?_
    rw [hc]
    exact hend hcalls
  · exact hcalls.elim

/-- The loop of `_flush_locked` while the stream has not ended. -/
theorem Sound.flushLoop (hs : s.Sound) (ht : s.tasks[t]? = some k) (hk : k.pc.done = false)
    (hb : Block s b t k) (hflow : b.Flow) (hlock : b.ioLock = some t)
    (hmine : s.ioLock = none ∨ s.ioLock = some t) (hnot : ¬ b.EndHanded)
    (hstream : b.streamId.isSome = true) {force : Bool} {who : Flusher}
    (hcalls : b.Calls t k.call who force) (hforce : force = true → b.ending = true)
    (streamId : Int) : (b.flushLoop t streamId force who).Sound := by
  unfold Session.flushLoop
  split
  · refine hs.hand_data (b := { b with
        frames := b.frames.drop framesPerHdsEvent
        sequence := b.sequence + (b.frames.take framesPerHdsEvent).length })
      ht hk ?_ ?_ hlock hmine hnot hstream hcalls hforce ?_
    · exact ⟨hb.tasks, ⟨hb.grows.openTask, hb.grows.stream, hb.grows.ending,
        hb.grows.endHanded, .inr hmine⟩, hb.drained, hb.accepted⟩
    · exact ⟨hflow.noCancel, fun h ↦ (hnot h).elim, hflow.eosSent, hflow.closed, hflow.order⟩
    · intro hEos
      simpa using hEos
  · next hdue =>
    split
    · next hEos =>
      simp only [Bool.and_eq_true, List.isEmpty_iff] at hEos
      exact hs.hand_data ht hk hb hflow hlock hmine hnot hstream hcalls hforce
        fun _ ↦ hEos.1
    · next hno =>
      refine hs.flushReturned ht hk hb hflow hmine (fun h ↦ (hnot h).elim) hstream hcalls ?_
      -- a forced loop ends only behind the end of the stream
      rintro rfl
      have hframes : b.frames.isEmpty = true := by
        simp only [eventDue, Bool.true_and, Bool.or_eq_true, not_or] at hdue
        simpa using hdue.2
      have heos : b.eosSent = true := by simpa [hframes] using hno
      exact hflow.eosSent heos

/-- `_flush_locked` -/
theorem Sound.flush (hs : s.Sound) (ht : s.tasks[t]? = some k) (hk : k.pc.done = false)
    (hb : Block s b t k) (hflow : b.Flow) (hlock : b.ioLock = some t)
    (hmine : s.ioLock = none ∨ s.ioLock = some t)
    (hstream : b.streamId.isSome = true) {force : Bool} {who : Flusher}
    (hcalls : b.Calls t k.call who force) (hforce : force = true → b.ending = true)
    (hend : b.EndHanded → force = true ∧ b.eosSent = true) :
    (b.flush t force who).Sound := by
  obtain ⟨streamId, hid⟩ := Option.isSome_iff_exists.mp hstream
  unfold Session.flush
  rw [hid]
  simp only
  split
  · next hret =>
    refine hs.flushReturned ht hk hb hflow hmine (fun h ↦ (hend h).2) hstream hcalls fun _ ↦ ?_
    simp only [Bool.or_eq_true, Bool.and_eq_true] at hret
    rcases hret with hclosed | ⟨-, heos⟩
    · exact hflow.closed hclosed
    · exact hflow.eosSent heos
  · next hgo =>
    have hnot : ¬ b.EndHanded := by
      intro h
      obtain ⟨hf, heos⟩ := hend h
      simp [hf, heos] at hgo
    exact hs.flushLoop ht hk hb hflow hlock hmine hnot hstream hcalls hforce streamId

/-- `_flush_locked` after one of its events was sent. -/
theorem Sound.flushResume (hs : s.Sound) (ht : s.tasks[t]? = some k) (hk : k.pc.done = false)
    (hwait : k.waiting = none) {isEos force : Bool} {who : Flusher}
    (hcalls : s.Calls t k.call who force) (hf : s.Flushes t isEos force) :
    (s.flushResume t force isEos who).Sound := by
  have hb : Block s s t k := by
    refine ⟨rfl, ⟨rfl, id, id, id, .inr (.inr hf.lock)⟩, fun h ↦ .inl ⟨h, rfl⟩, ?_⟩
    exact .inl ⟨hwait, rfl⟩
  unfold Session.flushResume
  split
  · next hEos =>
    have hend := hf.endHanded.mp hEos
    obtain ⟨hending, hframes, -⟩ := hs.flow.ended hend
    refine hs.flushReturned (b := { s with eosSent := true }) ht hk ?_ ?_ (.inr hf.lock)
      (fun _ ↦ rfl) hf.stream hcalls fun _ ↦ hend
    · exact ⟨rfl, ⟨rfl, id, id, id, .inr (.inr hf.lock)⟩, hb.drained, hb.accepted⟩
    · exact ⟨hs.flow.noCancel, fun _ ↦ ⟨hending, hframes, .inl rfl⟩, fun _ ↦ hend,
        hs.flow.closed, hs.flow.order⟩
  · next hEos =>
    obtain ⟨streamId, hid⟩ := Option.isSome_iff_exists.mp hf.stream
    rw [hid]
    exact hs.flushLoop ht hk hb hs.flow hf.lock (.inr hf.lock)
      (fun h ↦ hEos (hf.endHanded.mpr h)) hf.stream hcalls hf.force streamId

/-! ## The blocks under the I/O lock -/

/-- A task takes the lock, or waits for it. -/
theorem Sound.acquire (hs : s.Sound) (ht : s.tasks[t]? = some k) (hk : k.pc.done = false)
    (hflush : k.pc.flushing = false) {use : LockUse}
    (hlocked : s.ioLock = none → ((s.hold t).locked opus t use).Sound)
    (hwait : k.waiting = Task.waiting ⟨k.call, .awaitLock use⟩)
    (hpc : s.Local t k.call (.awaitLock use)) : (s.acquire opus t use).Sound := by
  unfold Session.acquire
  split
  · next hfree =>
    refine hlocked ?_
    simp only [lockFree, Bool.and_eq_true, Option.isNone_iff_eq_none] at hfree
    exact hfree.1
  · exact hs.move ht hk hflush hwait hpc

/-- While a `write` waits, `finish` has not begun. -/
theorem Sound.not_ending (hs : s.Sound) (ht : s.tasks[t]? = some k) {pcm : Bytes}
    (hwait : k.waiting = some pcm) : s.ending = false := by
  have hwrite : k.call = .write pcm ∧ k.pc ≠ .returned := by
    unfold Task.waiting at hwait
    split at hwait
    · cases hwait
      exact ⟨rfl, nofun⟩
    · cases hwait
      exact ⟨rfl, nofun⟩
    · cases hwait
  cases he : s.ending with
  | false => rfl
  | true =>
      obtain ⟨pad, -, k', hmem, hfinish⟩ := hs.placed.drained he
      obtain ⟨t', ht'⟩ := List.mem_iff_getElem?.mp hmem
      have hclient : k.call.fromClient = true := by rw [hwrite.1]; rfl
      have hclient' : k'.call.fromClient = true := by rw [hfinish]; rfl
      rcases Nat.lt_trichotomy t t' with hlt | rfl | hlt
      · exact (hwrite.2 (hs.placed.client t t' k k' hlt ht ht' hclient hclient').1).elim
      · rw [ht] at ht'
        cases ht'
        rw [hwrite.1] at hfinish
        cases hfinish
      · have hback := (hs.placed.client t' t k' k hlt ht' ht hclient' hclient).2
        rw [hback] at hfinish
        cases hfinish

/-- A block that begins with the lock and ends without it. -/
theorem Sound.release (hs : s.Sound) (ht : s.tasks[t]? = some k) (hk : k.pc.done = false)
    (hb : Block s b t k) (hflow : b.release.Flow) (hfree : s.ioLock = none)
    (hwait : Task.waiting ⟨k.call, pc⟩ = none) (hpc : b.release.Local t k.call pc) :
    (b.release.goto t pc).Sound := by
  refine hs.goto ht hk hflow (Block.moves ⟨hb.tasks, ?_, hb.drained, hb.accepted⟩ hwait nofun) hpc
  exact ⟨hb.grows.openTask, hb.grows.stream, hb.grows.ending, hb.grows.endHanded, .inr (.inl hfree)⟩

/-- The body of `write`. -/
theorem Sound.writeLocked (hs : s.Sound) (ht : s.tasks[t]? = some k) (hk : k.pc.done = false)
    {pcm : Bytes} (hcall : k.call = .write pcm) (hwait : k.waiting = some pcm)
    (hfree : s.ioLock = none) : ((s.hold t).writeLocked opus t pcm).Sound := by
  have hgo : s.ending = false := hs.not_ending ht hwait
  have hnot : ¬ s.EndHanded := by
    intro h
    rw [(hs.flow.ended h).1] at hgo
    cases hgo
  have hclosed : s.closed = false := Bool.eq_false_iff.mpr fun h ↦ hnot (hs.flow.closed h)
  have hb : Block s ((s.hold t).buffer opus pcm) t k := by
    refine ⟨rfl, ⟨rfl, id, id, id, .inr (.inl hfree)⟩, fun h ↦ .inl ⟨h, rfl⟩, ?_⟩
    exact .inr ⟨pcm, hwait, rfl⟩
  have hflow : ((s.hold t).buffer opus pcm).Flow :=
    ⟨hs.flow.noCancel, fun h ↦ (hnot h).elim, hs.flow.eosSent, hs.flow.closed, hs.flow.order⟩
  have hopen : ((s.hold t).ending || (s.hold t).closed) = false :=
    Bool.or_eq_false_iff.mpr ⟨hgo, hclosed⟩
  unfold Session.writeLocked
  rw [if_neg (Bool.eq_false_iff.mp hopen)]
  simp only
  split
  · next hstream =>
    refine hs.flush ht hk hb hflow rfl (.inl hfree) hstream ?_ nofun fun h ↦ (hnot h).elim
    rw [hcall]
    exact rfl
  · refine hs.release ht hk hb ?_ hfree (by rw [hcall]; rfl) ?_
    · exact ⟨hs.flow.noCancel, fun h ↦ (hnot h).elim, hs.flow.eosSent, hs.flow.closed,
        hs.flow.order⟩
    · rw [hcall]
      trivial

/-- `finish` behind the wait for the open task. -/
theorem Sound.finishOpened (hs : s.Sound) (ht : s.tasks[t]? = some k) (hk : k.pc.done = false)
    {pad : Bool} (hcall : k.call = .finish true pad) (hb : Block s b t k) (hflow : b.Flow)
    (howner : ∀ t', b.ioLock = some t' → t' ≠ t ∧ s.ioLock = some t')
    (hending : b.ending = true) (hstream : b.streamId.isSome = true) :
    (b.finishOpened t).Sound := by
  have hmoves : ∀ {pc : Pc}, Task.waiting ⟨k.call, pc⟩ = none → Moves s b t k pc :=
    fun hwait ↦ hb.moves hwait fun t' ht' ↦ .inr (howner t' ht')
  unfold Session.finishOpened
  split
  · next hclosed =>
    have hend := hflow.closed hclosed
    split
    · refine hs.goto ht hk hflow (hmoves (by rw [hcall]; rfl)) ?_
      rw [hcall]
      exact hend
    · refine hs.goto ht hk hflow (hmoves (by rw [hcall]; rfl)) ?_
      rw [hcall]
      exact hend
  · split
    · next hfree =>
      have hfree : b.ioLock = none := by
        simp only [lockFree, Bool.and_eq_true, Option.isNone_iff_eq_none] at hfree
        exact hfree.1
      have hmine : s.ioLock = none ∨ s.ioLock = some t := by
        rcases hb.grows.lock with ⟨hlock, -⟩ | hmine
        · exact .inl (hlock.symm.trans hfree)
        · exact hmine
      have heos : b.EndHanded → b.eosSent = true := fun h ↦
        (hflow.ended h).2.2.resolve_right fun hlock ↦ hlock hfree
      refine hs.flush (b := b.hold t) ht hk ?_ ?_ rfl hmine hstream ?_ (fun _ ↦ hending)
        fun h ↦ ⟨rfl, heos h⟩
      · exact ⟨hb.tasks, ⟨hb.grows.openTask, hb.grows.stream, hb.grows.ending,
          hb.grows.endHanded, .inr hmine⟩, hb.drained, hb.accepted⟩
      · exact ⟨hflow.noCancel, fun h ↦ ⟨hending, (hflow.ended h).2.1, .inl (heos h)⟩,
          hflow.eosSent, hflow.closed, hflow.order⟩
      · rw [hcall]
        exact rfl
    · refine hs.goto ht hk hflow (hmoves (by rw [hcall]; rfl)) ?_
      rw [hcall]
      exact ⟨hending, hstream⟩

/-- The open task can be in one of its places only, and has no way to raise. -/
theorem Placed.openPc (hs : s.Placed) (h : s.openTask.isSome = true) :
    ∃ (t : Nat) (k : Task), s.openTask = some t ∧ s.tasks[t]? = some k ∧ k.call = .open ∧
      s.openPc = some k.pc := by
  obtain ⟨t, ht⟩ := Option.isSome_iff_exists.mp h
  obtain ⟨k, hk, hcall⟩ := hs.opener t ht
  refine ⟨t, k, ht, hk, hcall, ?_⟩
  rw [Session.openPc, ht, Option.bind_some, pc?, hk]
  rfl

theorem Placed.stream_of_openPc (hs : s.Placed) (h : s.openTask.isSome = true)
    (hpc : s.openPc = some .returned) : s.streamId.isSome = true := by
  obtain ⟨t, ⟨c, pc⟩, -, hk, rfl, heq⟩ := hs.openPc h
  rw [hpc] at heq
  cases heq
  exact (hs.place t _ hk).2

theorem Placed.openPc_ne_raised (hs : s.Placed) (h : s.openTask.isSome = true) (e : PyErr) :
    s.openPc ≠ some (.raised e) := by
  intro hpc
  obtain ⟨t, ⟨c, pc⟩, -, hk, rfl, heq⟩ := hs.openPc h
  rw [hpc] at heq
  cases heq
  exact hs.place t _ hk

/-- What the first block of `finish` does to the other fields. -/
theorem drainBuffer_cases (opus : OpusEncoder ε) (b : Session ε) (pad : Bool) :
    b.ending = true ∧ b.drainBuffer opus pad = b ∨
      b.ending = false ∧ (b.drainBuffer opus pad).ending = true ∧
        (b.drainBuffer opus pad).drained = some pad ∧
        (b.drainBuffer opus pad).accepted = b.accepted ∧
        (b.drainBuffer opus pad).cancelReason = b.cancelReason := by
  unfold Session.drainBuffer
  split
  · next he => exact .inl ⟨he, rfl⟩
  · next he =>
    have he : b.ending = false := Bool.eq_false_iff.mpr he
    refine .inr ⟨he, ?_⟩
    simp only
    split
    · exact ⟨rfl, rfl, rfl, rfl⟩
    · split
      · exact ⟨rfl, rfl, rfl, rfl⟩
      · exact ⟨rfl, rfl, rfl, rfl⟩

/-- The first block of `finish`, and what follows it. -/
theorem Sound.finishDrain (hs : s.Sound) (ht : s.tasks[t]? = some k) (hk : k.pc.done = false)
    {pad : Bool} (hcall : k.call = .finish true pad) (hstarted : s.openTask.isSome = true)
    (hfree : s.ioLock = none) :
    (((s.hold t).drainBuffer opus pad).release.finishDrained t).Sound := by
  have hwait : k.waiting = none := by
    obtain ⟨c, pc⟩ := k
    subst hcall
    rfl
  obtain ⟨hbase, -, hclosed, hid, heosSent⟩ := drainBuffer_base opus (s.hold t) pad
  generalize hd : (s.hold t).drainBuffer opus pad = d at hbase hclosed hid heosSent ⊢
  have hevents : d.events = s.events := events_of_log hbase.log
  have hgrows : Grows s d.release t := by
    refine ⟨hbase.openTask, fun h ↦ ?_, fun h ↦ ?_, (endHanded_of_events hevents).mpr,
      .inr (.inl hfree)⟩
    · exact hid.symm ▸ h
    · rcases drainBuffer_cases opus (s.hold t) pad with ⟨-, hsame⟩ | ⟨he, -⟩
      · rw [← hd, hsame]
        exact h
      · rw [show s.ending = false from he] at h
        cases h
  obtain ⟨hending, hflow, hblock⟩ :
      d.ending = true ∧ d.release.Flow ∧ Block s d.release t k := by
    rcases drainBuffer_cases opus (s.hold t) pad with
      ⟨he, hsame⟩ | ⟨he, hending, hdrained, haccepted, hcancel⟩
    · rw [hd] at hsame
      subst hsame
      refine ⟨he, ?_, ⟨rfl, hgrows, fun h ↦ .inl ⟨h, rfl⟩, .inl ⟨hwait, rfl⟩⟩⟩
      exact ⟨hs.flow.noCancel, fun h ↦ ⟨he, (hs.flow.ended h).2.1, .inl <|
        (hs.flow.ended h).2.2.resolve_right fun hlock ↦ hlock hfree⟩, hs.flow.eosSent,
        hs.flow.closed, hs.flow.order⟩
    · rw [hd] at hending hdrained haccepted hcancel
      have hnot : ¬ s.EndHanded := by
        intro h
        exact Bool.false_ne_true (he.symm.trans (hs.flow.ended h).1)
      have hnot' : ¬ d.release.EndHanded := fun h ↦ hnot ((endHanded_of_events hevents).mp h)
      refine ⟨hending, ⟨hcancel.trans hs.flow.noCancel, fun h ↦ (hnot' h).elim, fun h ↦ ?_,
        fun h ↦ ?_, ?_⟩, ⟨hbase.tasks, hgrows, fun _ ↦ .inr ⟨pad, hdrained, hcall⟩,
        .inl ⟨hwait, haccepted⟩⟩⟩
      · exact (hnot (hs.flow.eosSent (heosSent.symm.trans h))).elim
      · exact (hnot (hs.flow.closed (hclosed.symm.trans h))).elim
      · rw [show d.release.events = s.events from hevents]
        exact hs.flow.order
  have hopenPc : d.release.openPc = s.openPc :=
    openPc_eq ⟨hbase.tasks, hbase.openTask, hbase.log, hbase.closeSent, fun h ↦ hclosed.symm ▸ h⟩
  have hstarted' : d.openTask.isSome = true := hbase.openTask.symm ▸ hstarted
  unfold Session.finishDrained
  rw [hopenPc]
  split
  · next hpc =>
    obtain ⟨t', k', -, -, -, heq⟩ := hs.placed.openPc hstarted
    rw [heq] at hpc
    cases hpc
  · next hpc =>
    exact hs.finishOpened ht hk hcall hblock hflow nofun hending
      (hgrows.stream (hs.placed.stream_of_openPc hstarted hpc))
  · next e hpc => exact (hs.placed.openPc_ne_raised hstarted e hpc).elim
  · refine hs.release ht hk (b := d) ?_ hflow hfree (by rw [hcall]; rfl) ?_
    · exact ⟨hblock.tasks, ⟨hgrows.openTask, hgrows.stream, hgrows.ending, hgrows.endHanded,
        .inr (.inl hfree)⟩, hblock.drained, hblock.accepted⟩
    · rw [hcall]
      exact ⟨hstarted', hending⟩

/-! ## The close -/

/-- The coroutine calls `_send_close` behind the end of the stream. -/
def Closes : Call → Closer → Prop
  | .finish true _, .timeout | .handleAck _, .ack => True
  | _, _ => False

/-- The close of a stream that has ended. -/
theorem Sound.closeReturned (hs : s.Sound) (ht : s.tasks[t]? = some k) (hk : k.pc.done = false)
    (hflush : k.pc.flushing = false) (hwait : k.waiting = none) (hb : Alike s b)
    (hend : s.EndHanded) {who : Closer} (hcloses : Closes k.call who) :
    (b.closeReturned t who).Sound := by
  unfold Closes at hcloses
  split at hcloses
  · next hc =>
    have hb' : Alike s ({ b with error := some ackTimeout } : Session ε).markDone :=
      ⟨hb.1, hb.2, hb.3, hb.4, hb.5, hb.6, hb.7, hb.8, hb.9, hb.10, hb.11⟩
    refine hs.goto ht hk (hb'.flow hs.flow fun _ ↦ hend)
      (hb'.moves hs.placed ht (.inl hflush) (hwait.trans (by rw [hc]; rfl))) ?_
    rw [hc]
    exact (endHanded_of_events hb'.events).mpr hend
  · next hc =>
    have hb' : Alike s b.markDone :=
      ⟨hb.1, hb.2, hb.3, hb.4, hb.5, hb.6, hb.7, hb.8, hb.9, hb.10, hb.11⟩
    refine hs.goto ht hk (hb'.flow hs.flow fun _ ↦ hend)
      (hb'.moves hs.placed ht (.inl hflush) (hwait.trans (by rw [hc]; rfl))) ?_
    rw [hc]
    trivial
  · exact hcloses.elim

theorem Sound.sendClose (hs : s.Sound) (ht : s.tasks[t]? = some k) (hk : k.pc.done = false)
    (hflush : k.pc.flushing = false) (hwait : k.waiting = none) (hend : s.EndHanded)
    {who : Closer} (hcloses : Closes k.call who) (connectionClosed : Bool)
    (reason : HDSCloseReason) : (s.sendClose connectionClosed t reason who).Sound := by
  rcases s.sendClose_cases connectionClosed t reason who with ⟨streamId, -, heq⟩ | ⟨-, heq⟩
  · rw [heq]
    have hb : Alike s (s.record (.handed (.close streamId reason))) := .record rfl
    refine hs.goto ht hk (hb.flow hs.flow hs.flow.closed)
      (hb.moves hs.placed ht (.inl hflush) (hwait.trans waiting_sending.symm)) ?_
    have hend' := (endHanded_of_events hb.events).mpr hend
    unfold Closes at hcloses
    split at hcloses
    · next hc =>
      rw [hc]
      exact hend'
    · next hc =>
      rw [hc]
      exact hend'
    · exact hcloses.elim
  · rw [heq]
    exact hs.closeReturned ht hk hflush hwait (.refl s) hend hcloses

/-! ## The open request -/

/-- `_open` behind a response that opens the stream. -/
theorem Sound.openResponse (hs : s.Sound) (ht : s.tasks[t]? = some k)
    (hpc : k.pc = .awaitResponse) {status : Int} {message : List (Obj × Obj)}
    {onOpen : Option PyErr} (hopens : opensStream status message onOpen = true)
    (connectionClosed : Bool) :
    (s.openResponse opus connectionClosed t status message onOpen).Sound := by
  obtain ⟨c, pc⟩ := k
  subst hpc
  have hlocal := hs.placed.place t _ ht
  have hcall : c = .open := by
    cases c with
    | «open» => rfl
    | finish timeoutPositive => cases timeoutPositive <;> exact hlocal.elim
    | _ => exact hlocal.elim
  subst hcall
  have hopen : s.openTask = some t := hlocal
  simp only [opensStream, Bool.and_eq_true, Option.isNone_iff_eq_none] at hopens
  obtain ⟨hsome, hvalid⟩ := hopens
  obtain ⟨streamId, hid⟩ := Option.isSome_iff_exists.mp hsome
  unfold Session.openResponse
  simp only [hid, hvalid, Option.some_or]
  generalize hd : ({ s with streamId := some streamId } : Session ε) = b
  have hb : Alike s b := by
    subst hd
    exact ⟨rfl, rfl, fun _ ↦ rfl, rfl, rfl, rfl, rfl, rfl, rfl, rfl, rfl⟩
  have hstream : b.streamId.isSome = true := by
    subst hd
    rfl
  have hclosed : b.closed = s.closed := by
    subst hd
    rfl
  have hflow := hb.flow hs.flow fun h ↦ hs.flow.closed (hclosed.symm.trans h)
  rw [hs.flow.noCancel]
  simp only
  unfold Session.acquire
  split
  · next hfree =>
    have hfree : b.ioLock = none := by
      simp only [lockFree, Bool.and_eq_true, Option.isNone_iff_eq_none] at hfree
      exact hfree.1
    have hgrows := hb.grows t
    have hmine : s.ioLock = none := hb.ioLock.symm.trans hfree
    refine hs.flush (b := b.hold t) ht rfl ?_ ?_ rfl (.inl hmine) hstream ?_ id fun h ↦
      ⟨(hflow.ended h).1, ?_⟩
    · exact ⟨hb.tasks, ⟨hgrows.openTask, hgrows.stream, hgrows.ending, hgrows.endHanded,
        .inr (.inl hmine)⟩, fun h ↦ .inl ⟨hb.ending.symm.trans h, hb.drained⟩,
        .inl ⟨rfl, hb.accepted⟩⟩
    · exact ⟨hflow.noCancel, fun h ↦ ⟨(hflow.ended h).1, (hflow.ended h).2.1, .inr (by rintro ⟨⟩)⟩,
        hflow.eosSent, hflow.closed, hflow.order⟩
    · exact hb.openTask.trans hopen
    · exact (hflow.ended h).2.2.resolve_right fun hlock ↦ hlock hfree
  · exact hs.goto ht rfl hflow (hb.moves hs.placed ht (.inl rfl) rfl)
      ⟨hb.openTask.trans hopen, hstream⟩

/-! ## New tasks -/

/-- A task is created: a call of the client that is idle, or the open task. -/
theorem Sound.create (hs : s.Sound) (hk : k.pc = .start) {openTask : Option Nat}
    (hopen : openTask = s.openTask ∨
      s.openTask = none ∧ openTask = some s.tasks.length ∧ k.call = .open)
    (hlocal : ({ s with tasks := s.tasks ++ [k], openTask } : Session ε).Local
      s.tasks.length k.call .start)
    (hclient : k.call.fromClient = true → s.Idle) :
    ({ s with tasks := s.tasks ++ [k], openTask } : Session ε).Sound := by
  have hcases : ∀ {t' : Nat} {k' : Task}, (s.tasks ++ [k])[t']? = some k' →
      s.tasks[t']? = some k' ∨ t' = s.tasks.length ∧ k' = k := by
    intro t' k' h
    rcases Nat.lt_trichotomy t' s.tasks.length with hlt | rfl | hlt
    · rw [List.getElem?_append_left hlt] at h
      exact .inl h
    · rw [List.getElem?_concat_length] at h
      exact .inr ⟨rfl, (Option.some.inj h).symm⟩
    · rw [List.getElem?_eq_none (by rw [List.length_append]; exact hlt)] at h
      cases h
  have hold : ∀ {t' : Nat} {k' : Task}, s.tasks[t']? = some k' → (s.tasks ++ [k])[t']? = some k' :=
    fun h ↦ (List.getElem?_append_left (List.getElem?_eq_some_iff.mp h).1).trans h
  have hnew : (s.tasks ++ [k])[s.tasks.length]? = some k := List.getElem?_concat_length
  have hwritten : ({ s with tasks := s.tasks ++ [k], openTask } : Session ε).written =
      s.written ++ k.call.pcm := by
    rw [written, List.flatMap_append]
    exact congrArg _ (List.append_nil _)
  refine ⟨⟨hs.flow.1, hs.flow.2, hs.flow.3, hs.flow.4, hs.flow.5⟩, ?_, ?_, ?_, ?_, ?_, ?_⟩
  · intro t' k' h
    rcases hcases h with h | ⟨rfl, rfl⟩
    · refine (hs.placed.place t' k' h).mono (fun t hsome ↦ ?_) id id id
        fun hf ↦ ⟨hf.lock, hf.stream, hf.eosSent, hf.force, hf.endHanded⟩
      rcases hopen with heq | ⟨hnone, -⟩
      · exact heq.trans hsome
      · rw [hnone] at hsome
        cases hsome
    · rw [hk]
      exact hlocal
  · intro t' h
    rcases hopen with heq | ⟨-, heq, hcall⟩
    · obtain ⟨k', hk', hcall⟩ := hs.placed.opener t' (heq ▸ h)
      exact ⟨k', hold hk', hcall⟩
    · rw [show t' = s.tasks.length from Option.some.inj (h.symm.trans heq)]
      exact ⟨k, hnew, hcall⟩
  · intro t' h
    obtain ⟨k', hk', hflush⟩ := hs.placed.owner t' h
    exact ⟨k', hold hk', hflush⟩
  · intro h
    obtain ⟨pad, hpad, k', hmem, hcall⟩ := hs.placed.drained h
    exact ⟨pad, hpad, k', List.mem_append_left _ hmem, hcall⟩
  · intro t₁ t₂ k₁ k₂ hlt h₁ h₂ hc₁ hc₂
    rcases hcases h₁ with hk₁ | ⟨rfl, rfl⟩
    · rcases hcases h₂ with hk₂ | ⟨rfl, rfl⟩
      · exact hs.placed.client t₁ t₂ k₁ k₂ hlt hk₁ hk₂ hc₁ hc₂
      · exact (hclient hc₂).2 k₁ (List.mem_of_getElem? hk₁) hc₁
    · have hlen := (List.getElem?_eq_some_iff.mp h₂).1
      rw [List.length_append, List.length_singleton] at hlen
      omega
  · by_cases hw : k.waiting = none
    · have hpcm : k.call.pcm = [] := by
        obtain ⟨c, pc⟩ := k
        subst hk
        cases c with
        | write pcm => cases hw
        | _ => rfl
      rw [hpcm, List.append_nil] at hwritten
      rcases hs.placed.settled with ⟨hnone, hall⟩ | ⟨t', k', pcm, hk', hpcm', hothers, hall⟩
      · refine .inl ⟨fun k' hmem ↦ ?_, hall.trans hwritten.symm⟩
        rcases List.mem_append.mp hmem with hmem | hmem
        · exact hnone k' hmem
        · rw [List.mem_singleton.mp hmem]
          exact hw
      · refine .inr ⟨t', k', pcm, hold hk', hpcm', fun t₁ k₁ hne h₁ ↦ ?_, hall.trans hwritten.symm⟩
        rcases hcases h₁ with h₁ | ⟨-, rfl⟩
        · exact hothers t₁ k₁ hne h₁
        · exact hw
    · -- a new `write`, behind returned ones
      obtain ⟨pcm, hcall⟩ : ∃ pcm, k.call = .write pcm := by
        obtain ⟨c, pc⟩ := k
        cases c with
        | write pcm => exact ⟨pcm, rfl⟩
        | _ => exact (hw rfl).elim
      have hidle := hclient (by rw [hcall]; rfl)
      have hnone : ∀ k' ∈ s.tasks, k'.waiting = none := by
        intro k' hmem
        obtain ⟨c, pc⟩ := k'
        cases c with
        | write pcm' =>
            have hback : pc = .returned := (hidle.2 _ hmem rfl).1
            subst hback
            rfl
        | _ => rfl
      rcases hs.placed.settled with ⟨-, hall⟩ | ⟨t', k', pcm', hk', hpcm', -, -⟩
      · refine .inr ⟨s.tasks.length, k, pcm, hnew, ?_, fun t₁ k₁ hne h₁ ↦ ?_, ?_⟩
        · obtain ⟨c, pc⟩ := k
          subst hk hcall
          rfl
        · rcases hcases h₁ with h₁ | ⟨rfl, -⟩
          · exact hnone k₁ (List.mem_of_getElem? h₁)
          · exact (hne rfl).elim
        · rw [hwritten, ← hall, hcall]
          rfl
      · rw [hnone k' (List.mem_of_getElem? hk')] at hpcm'
        cases hpcm'

end Blocks

end Session

end AtvRemote.Audio
