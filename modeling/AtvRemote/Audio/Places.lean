import AtvRemote.Audio.Packets

/-!
# The tasks of one utterance

A client writes PCM, one `write` after the other, and ends with one `finish`, and nobody
disturbs it.  What holds of such a session between two steps (`Sound`) is kept in two
parts.  `Flow` is about the fields of the session alone.  `Placed` is about the tasks:
where each of them can be, what it may rely on there (`Local`), and that the client is one
task at a time.  A step moves one task, and the others rely only on what a step cannot
take back (`Grows`) or on the I/O lock.
-/

namespace AtvRemote.Audio

open Lib

/-- The calls of the client. -/
def Call.fromClient : Call → Bool
  | .write _ | .finish _ _ => true
  | _ => false

/-- The PCM that a call brings. -/
def Call.pcm : Call → Bytes
  | .write pcm => pcm
  | _ => []

/-- The PCM of a `write` that has not entered its block yet. -/
def Task.waiting : Task → Option Bytes
  | ⟨.write pcm, .start⟩ | ⟨.write pcm, .awaitLock _⟩ => some pcm
  | _ => none

namespace Session

variable {ε : Type}

/-- The PCM of all calls of `write`, in the order of the calls. -/
def written (s : Session ε) : Bytes := s.tasks.flatMap fun k ↦ k.call.pcm

/-- The end of the stream was handed to the connection. -/
def EndHanded (s : Session ε) : Prop := ∃ e ∈ s.events, e.endOfStream = true

instance (s : Session ε) : Decidable s.EndHanded :=
  inferInstanceAs (Decidable (∃ e ∈ s.events, e.endOfStream = true))

/-- The session was started, and the client has awaited its calls, which were writes. -/
def Idle (s : Session ε) : Prop :=
  s.openTask.isSome = true ∧
    ∀ k ∈ s.tasks, k.call.fromClient = true → k.pc = .returned ∧ k = ⟨.write k.call.pcm, k.pc⟩

instance (s : Session ε) : Decidable s.Idle := inferInstanceAs (Decidable (_ ∧ _))

/-! ## The fields -/

/-- What holds of the fields of a session between two steps. -/
structure Flow (s : Session ε) : Prop where
  noCancel : s.cancelReason = none
  ended : s.EndHanded → s.ending = true ∧ s.frames = [] ∧ (s.eosSent = true ∨ s.ioLock ≠ none)
  eosSent : s.eosSent = true → s.EndHanded
  closed : s.closed = true → s.EndHanded
  order : ∀ e ∈ s.events.dropLast, e.endOfStream = false

/-- A task is suspended in an event of its flush. -/
structure Flushes (s : Session ε) (t : Nat) (isEos force : Bool) : Prop where
  lock : s.ioLock = some t
  stream : s.streamId.isSome = true
  eosSent : s.eosSent = false
  force : force = true → s.ending = true
  endHanded : isEos = true ↔ s.EndHanded

/-! ## The tasks -/

/-- Where a task can be, and what it relies on there. -/
def Local (s : Session ε) (t : Nat) : Call → Pc → Prop
  | .open, .start | .open, .sending .request _ | .open, .awaitResponse => s.openTask = some t
  | .open, .awaitLock .openFlush | .open, .returned =>
      s.openTask = some t ∧ s.streamId.isSome = true
  | .open, .sending (.data _ _ isEos force .open) _ =>
      s.openTask = some t ∧ s.Flushes t isEos force
  | .write _, .start | .write _, .returned => True
  | .write pcm, .awaitLock (.write pcm') => pcm' = pcm
  | .write _, .sending (.data _ _ isEos force .write) _ => force = false ∧ s.Flushes t isEos force
  | .finish true _, .start => s.openTask.isSome = true
  | .finish true pad, .awaitLock (.finishDrain pad') => s.openTask.isSome = true ∧ pad' = pad
  | .finish true _, .awaitOpen => s.openTask.isSome = true ∧ s.ending = true
  | .finish true _, .awaitLock .finishFlush => s.ending = true ∧ s.streamId.isSome = true
  | .finish true _, .sending (.data _ _ isEos force .finish) _ =>
      force = true ∧ s.Flushes t isEos force
  | .finish true _, .awaitDone | .finish true _, .sending (.close _ _ .timeout) _
  | .finish true _, .returned | .finish true _, .raised _ => s.EndHanded
  | .handleAck endOfStream, .start => endOfStream = true → s.EndHanded
  | .handleAck _, .sending (.close _ _ .ack) _ => s.EndHanded
  | .handleAck _, .returned => True
  | _, _ => False

/-- The accepted PCM is that of the calls, but for one that waits. -/
def Settled (s : Session ε) : Prop :=
  (∀ k ∈ s.tasks, k.waiting = none) ∧ s.accepted = s.written ∨
    ∃ (t : Nat) (k : Task) (pcm : Bytes), s.tasks[t]? = some k ∧ k.waiting = some pcm ∧
      (∀ (t' : Nat) (k' : Task), t' ≠ t → s.tasks[t']? = some k' → k'.waiting = none) ∧
      s.accepted ++ pcm = s.written

/-- What holds of the tasks of a session between two steps. -/
structure Placed (s : Session ε) : Prop where
  place : ∀ (t : Nat) (k : Task), s.tasks[t]? = some k → s.Local t k.call k.pc
  opener : ∀ t, s.openTask = some t → ∃ k, s.tasks[t]? = some k ∧ k.call = .open
  /-- A task that holds the I/O lock flushes. -/
  owner : ∀ t, s.ioLock = some t → ∃ k, s.tasks[t]? = some k ∧ k.pc.flushing = true
  /-- The buffer was emptied by the `finish` that is there. -/
  drained : s.ending = true →
    ∃ pad, s.drained = some pad ∧ ∃ k ∈ s.tasks, k.call = .finish true pad
  /-- The client calls again only behind a `write` that has returned. -/
  client : ∀ (t t' : Nat) (k k' : Task), t < t' → s.tasks[t]? = some k → s.tasks[t']? = some k' →
    k.call.fromClient = true → k'.call.fromClient = true →
    k.pc = .returned ∧ k = ⟨.write k.call.pcm, k.pc⟩
  settled : s.Settled

/-- What a step of the task `t` leaves to the others. -/
structure Grows (s b : Session ε) (t : Nat) : Prop where
  openTask : b.openTask = s.openTask
  stream : s.streamId.isSome = true → b.streamId.isSome = true
  ending : s.ending = true → b.ending = true
  endHanded : s.EndHanded → b.EndHanded
  lock : b.ioLock = s.ioLock ∧ b.events = s.events ∧ b.eosSent = s.eosSent ∨
    s.ioLock = none ∨ s.ioLock = some t

/-- A step of the task `t`, on its fields `b`, to the place `pc`. -/
structure Moves (s b : Session ε) (t : Nat) (k : Task) (pc : Pc) : Prop where
  tasks : b.tasks = s.tasks
  grows : Grows s b t
  owner : ∀ t', b.ioLock = some t' → t' = t ∧ pc.flushing = true ∨ t' ≠ t ∧ s.ioLock = some t'
  drained : b.ending = true → s.ending = true ∧ b.drained = s.drained ∨
    ∃ pad, b.drained = some pad ∧ k.call = .finish true pad
  settles : k.waiting = Task.waiting ⟨k.call, pc⟩ ∧ b.accepted = s.accepted ∨
    ∃ pcm, k.waiting = some pcm ∧ Task.waiting ⟨k.call, pc⟩ = none ∧
      b.accepted = s.accepted ++ pcm

section Tasks

variable {s b : Session ε} {t : Nat} {k : Task} {pc : Pc}

theorem endHanded_of_events (h : b.events = s.events) : b.EndHanded ↔ s.EndHanded := by
  rw [EndHanded, EndHanded, h]

/-- What a task relies on can only grow, but for its flush. -/
theorem Local.mono {c : Call} (h : s.Local t c pc)
    (hopen : ∀ t, s.openTask = some t → b.openTask = some t)
    (hstream : s.streamId.isSome = true → b.streamId.isSome = true)
    (hending : s.ending = true → b.ending = true) (hend : s.EndHanded → b.EndHanded)
    (hflushes : ∀ {isEos force : Bool}, s.Flushes t isEos force → b.Flushes t isEos force) :
    b.Local t c pc := by
  have hstarted : s.openTask.isSome = true → b.openTask.isSome = true := by
    intro hsome
    obtain ⟨t', ht'⟩ := Option.isSome_iff_exists.mp hsome
    rw [hopen t' ht']
    rfl
  unfold Local at h ⊢
  split at h
  · exact hopen t h
  · exact hopen t h
  · exact hopen t h
  · exact ⟨hopen t h.1, hstream h.2⟩
  · exact ⟨hopen t h.1, hstream h.2⟩
  · exact ⟨hopen t h.1, hflushes h.2⟩
  · trivial
  · trivial
  · exact h
  · exact ⟨h.1, hflushes h.2⟩
  · exact hstarted h
  · exact ⟨hstarted h.1, h.2⟩
  · exact ⟨hstarted h.1, hending h.2⟩
  · exact ⟨hending h.1, hstream h.2⟩
  · exact ⟨h.1, hflushes h.2⟩
  · exact hend h
  · exact hend h
  · exact hend h
  · exact hend h
  · exact fun heos ↦ hend (h heos)
  · exact hend h
  · trivial
  · exact h.elim

/-- What a task relies on is left to it by the steps of the others. -/
theorem Local.grows {t' : Nat} {c : Call} (h : s.Local t' c pc) (hg : Grows s b t)
    (hne : t' ≠ t) : b.Local t' c pc := by
  refine h.mono (fun _ ↦ hg.openTask.trans) hg.stream hg.ending hg.endHanded fun hf ↦ ?_
  rcases hg.lock with ⟨hlock, hevents, heos⟩ | hfree | hmine
  · exact ⟨hlock.trans hf.lock, hg.stream hf.stream, heos.trans hf.eosSent,
      fun hforce ↦ hg.ending (hf.force hforce),
      hf.endHanded.trans (endHanded_of_events hevents).symm⟩
  · rw [hf.lock] at hfree
    cases hfree
  · rw [hf.lock] at hmine
    exact (hne (Option.some.inj hmine)).elim

/-- The places are no part of what a task relies on. -/
theorem Local.goto {t' : Nat} {c : Call} {pc' : Pc} (h : b.Local t' c pc) :
    (b.goto t pc').Local t' c pc :=
  h.mono (fun _ ↦ id) id id id fun hf ↦ ⟨hf.lock, hf.stream, hf.eosSent, hf.force, hf.endHanded⟩

/-- A step changes no call. -/
theorem written_goto (t : Nat) (pc : Pc) (htasks : b.tasks = s.tasks) :
    (b.goto t pc).written = s.written := by
  have hcalls : (b.goto t pc).tasks.map Task.call = s.tasks.map Task.call := by
    apply List.ext_getElem?
    intro t'
    rw [List.getElem?_map, List.getElem?_map, tasks_goto, htasks]
    split
    · next h =>
      rw [h, Option.map_map]
      rfl
    · rfl
  rw [written, written, ← List.flatMap_map, hcalls, List.flatMap_map]

/-- The place of the task that moves, or of another one. -/
theorem getElem?_goto {t' : Nat} {k' : Task} (ht : s.tasks[t]? = some k)
    (htasks : b.tasks = s.tasks) (h : (b.goto t pc).tasks[t']? = some k') :
    t' = t ∧ k' = ⟨k.call, pc⟩ ∨ t' ≠ t ∧ s.tasks[t']? = some k' := by
  rw [tasks_goto, htasks, ht] at h
  split at h
  · next heq =>
    cases h
    exact .inl ⟨heq, rfl⟩
  · next hne => exact .inr ⟨hne, h⟩

theorem getElem?_goto_self (ht : s.tasks[t]? = some k) (htasks : b.tasks = s.tasks) :
    (b.goto t pc).tasks[t]? = some ⟨k.call, pc⟩ := by
  rw [tasks_goto, if_pos rfl, htasks, ht]
  rfl

theorem getElem?_goto_of_ne {t' : Nat} (htasks : b.tasks = s.tasks) (hne : t' ≠ t) :
    (b.goto t pc).tasks[t']? = s.tasks[t']? := by
  rw [tasks_goto, if_neg hne, htasks]

/-- A task keeps its call. -/
theorem exists_call_goto (pc : Pc) (ht : s.tasks[t]? = some k) (htasks : b.tasks = s.tasks)
    {t' : Nat} {k' : Task} (h : s.tasks[t']? = some k') :
    ∃ k'', (b.goto t pc).tasks[t']? = some k'' ∧ k''.call = k'.call := by
  by_cases hne : t' = t
  · subst hne
    rw [ht] at h
    cases h
    exact ⟨_, getElem?_goto_self ht htasks, rfl⟩
  · exact ⟨k', (getElem?_goto_of_ne htasks hne).trans h, rfl⟩

/-- The accepted PCM, when a `write` enters its block or another task moves. -/
theorem Settled.goto (hs : s.Settled) (ht : s.tasks[t]? = some k) (htasks : b.tasks = s.tasks)
    (h : k.waiting = Task.waiting ⟨k.call, pc⟩ ∧ b.accepted = s.accepted ∨
      ∃ pcm, k.waiting = some pcm ∧ Task.waiting ⟨k.call, pc⟩ = none ∧
        b.accepted = s.accepted ++ pcm) : (b.goto t pc).Settled := by
  have hwritten := written_goto t pc htasks
  rcases h with ⟨hsame, haccepted⟩ | ⟨pcm, hwait, hdone, haccepted⟩
  · rcases hs with ⟨hnone, hall⟩ | ⟨w, k', pcm, hw, hpcm, hothers, hall⟩
    · refine .inl ⟨fun k' hmem ↦ ?_, ?_⟩
      · obtain ⟨t', ht'⟩ := List.mem_iff_getElem?.mp hmem
        rcases getElem?_goto ht htasks ht' with ⟨-, rfl⟩ | ⟨-, hk'⟩
        · rw [← hsame]
          exact hnone k (List.mem_of_getElem? ht)
        · exact hnone k' (List.mem_of_getElem? hk')
      · rw [hwritten, ← hall]
        exact haccepted
    · refine .inr ?_
      obtain ⟨k'', hk'', hwait⟩ : ∃ k'', (b.goto t pc).tasks[w]? = some k'' ∧
          k''.waiting = some pcm := by
        by_cases hne : w = t
        · subst hne
          rw [ht] at hw
          cases hw
          exact ⟨_, getElem?_goto_self ht htasks, hsame ▸ hpcm⟩
        · exact ⟨k', (getElem?_goto_of_ne htasks hne).trans hw, hpcm⟩
      refine ⟨w, k'', pcm, hk'', hwait, fun t' k₁ hne hk₁ ↦ ?_, ?_⟩
      · rcases getElem?_goto ht htasks hk₁ with ⟨rfl, rfl⟩ | ⟨-, hk₁⟩
        · rw [← hsame]
          exact hothers _ k hne ht
        · exact hothers t' k₁ hne hk₁
      · rw [hwritten, ← hall]
        exact congrArg (· ++ pcm) haccepted
  · -- the waiting `write` is this one
    rcases hs with ⟨hnone, -⟩ | ⟨w, k', pcm', hw, hpcm, hothers, hall⟩
    · rw [hnone k (List.mem_of_getElem? ht)] at hwait
      cases hwait
    · have hmine : w = t := by
        by_contra hne
        rw [hothers t k (Ne.symm hne) ht] at hwait
        cases hwait
      subst hmine
      rw [ht] at hw
      cases hw
      rw [hwait] at hpcm
      cases hpcm
      refine .inl ⟨fun k₁ hmem ↦ ?_, ?_⟩
      · obtain ⟨t', ht'⟩ := List.mem_iff_getElem?.mp hmem
        rcases getElem?_goto ht htasks ht' with ⟨-, rfl⟩ | ⟨hne, hk₁⟩
        · exact hdone
        · exact hothers t' k₁ hne hk₁
      · rw [hwritten, ← hall]
        exact haccepted

/-- **A task moves.** -/
theorem Placed.goto (hs : s.Placed) (ht : s.tasks[t]? = some k) (hk : k.pc.done = false)
    (h : Moves s b t k pc) (hpc : b.Local t k.call pc) : (b.goto t pc).Placed where
  place t' k' ht' := by
    rcases getElem?_goto ht h.tasks ht' with ⟨rfl, rfl⟩ | ⟨hne, hk'⟩
    · exact hpc.goto
    · exact ((hs.place t' k' hk').grows h.grows hne).goto
  opener t' ht' := by
    obtain ⟨k', hk', hcall⟩ := hs.opener t' (h.grows.openTask ▸ ht')
    obtain ⟨k'', hk'', hcall'⟩ := exists_call_goto pc ht h.tasks hk'
    exact ⟨k'', hk'', hcall'.trans hcall⟩
  owner t' ht' := by
    rcases h.owner t' ht' with ⟨rfl, hflush⟩ | ⟨hne, hlock⟩
    · exact ⟨_, getElem?_goto_self ht h.tasks, hflush⟩
    · obtain ⟨k', hk', hflush⟩ := hs.owner t' hlock
      exact ⟨k', (getElem?_goto_of_ne h.tasks hne).trans hk', hflush⟩
  drained he := by
    obtain ⟨pad, hpad, k', hmem, hcall⟩ :
        ∃ pad, b.drained = some pad ∧ ∃ k ∈ s.tasks, k.call = .finish true pad := by
      rcases h.drained he with ⟨hs', hsame⟩ | ⟨pad, hpad, hcall⟩
      · rw [hsame]
        exact hs.drained hs'
      · exact ⟨pad, hpad, k, List.mem_of_getElem? ht, hcall⟩
    obtain ⟨t', hk'⟩ := List.mem_iff_getElem?.mp hmem
    obtain ⟨k'', hk'', hcall'⟩ := exists_call_goto pc ht h.tasks hk'
    exact ⟨pad, hpad, k'', List.mem_of_getElem? hk'', hcall'.trans hcall⟩
  client t₁ t₂ k₁ k₂ hlt h₁ h₂ hc₁ hc₂ := by
    -- the earlier of two client tasks has returned, so it is not the one that moves
    obtain ⟨k₁', hk₁', hcall₁⟩ : ∃ k₁', s.tasks[t₁]? = some k₁' ∧ k₁'.call = k₁.call := by
      rcases getElem?_goto ht h.tasks h₁ with ⟨rfl, rfl⟩ | ⟨-, hk₁⟩
      · exact ⟨k, ht, rfl⟩
      · exact ⟨k₁, hk₁, rfl⟩
    obtain ⟨k₂', hk₂', hcall₂⟩ : ∃ k₂', s.tasks[t₂]? = some k₂' ∧ k₂'.call = k₂.call := by
      rcases getElem?_goto ht h.tasks h₂ with ⟨rfl, rfl⟩ | ⟨-, hk₂⟩
      · exact ⟨k, ht, rfl⟩
      · exact ⟨k₂, hk₂, rfl⟩
    have hback := hs.client t₁ t₂ k₁' k₂' hlt hk₁' hk₂' (hcall₁ ▸ hc₁) (hcall₂ ▸ hc₂)
    rcases getElem?_goto ht h.tasks h₁ with ⟨rfl, rfl⟩ | ⟨-, hk₁⟩
    · rw [ht] at hk₁'
      cases hk₁'
      rw [hback.1] at hk
      cases hk
    · rw [hk₁] at hk₁'
      cases hk₁'
      exact hback
  settled := hs.settled.goto ht h.tasks h.settles

end Tasks

/-! ## Sessions between two steps -/

/-- What holds of a session between two steps. -/
structure Sound (s : Session ε) : Prop where
  flow : s.Flow
  placed : s.Placed

/-- A block of the task `t` has made `b` of the fields, and the task is about to leave it. -/
structure Block (s b : Session ε) (t : Nat) (k : Task) : Prop where
  tasks : b.tasks = s.tasks
  grows : Grows s b t
  drained : b.ending = true → s.ending = true ∧ b.drained = s.drained ∨
    ∃ pad, b.drained = some pad ∧ k.call = .finish true pad
  accepted : k.waiting = none ∧ b.accepted = s.accepted ∨
    ∃ pcm, k.waiting = some pcm ∧ b.accepted = s.accepted ++ pcm

/-- A block that changes nothing the stream depends on. -/
structure Alike (s b : Session ε) : Prop where
  tasks : b.tasks = s.tasks
  openTask : b.openTask = s.openTask
  stream : s.streamId.isSome = true → b.streamId.isSome = true
  events : b.events = s.events
  frames : b.frames = s.frames
  ending : b.ending = s.ending
  eosSent : b.eosSent = s.eosSent
  ioLock : b.ioLock = s.ioLock
  cancelReason : b.cancelReason = s.cancelReason
  accepted : b.accepted = s.accepted
  drained : b.drained = s.drained

section Moves

variable {s b : Session ε} {t : Nat} {k : Task} {pc : Pc}

theorem Flow.goto (h : b.Flow) : (b.goto t pc).Flow := ⟨h.1, h.2, h.3, h.4, h.5⟩

theorem Sound.goto (hs : s.Sound) (ht : s.tasks[t]? = some k) (hk : k.pc.done = false)
    (hflow : b.Flow) (h : Moves s b t k pc) (hpc : b.Local t k.call pc) : (b.goto t pc).Sound :=
  ⟨hflow.goto, hs.placed.goto ht hk h hpc⟩

/-- A task that does not flush does not hold the lock. -/
theorem Placed.owner_ne (hs : s.Placed) (ht : s.tasks[t]? = some k)
    (hk : k.pc.flushing = false) {t' : Nat} (h : s.ioLock = some t') : t' ≠ t := by
  rintro rfl
  obtain ⟨k', hk', hflush⟩ := hs.owner t' h
  rw [ht] at hk'
  cases hk'
  rw [hk] at hflush
  cases hflush

theorem Alike.refl (s : Session ε) : Alike s s :=
  ⟨rfl, rfl, id, rfl, rfl, rfl, rfl, rfl, rfl, rfl, rfl⟩

theorem Alike.record {entry : Entry} (h : entry.dataEvent? = none) : Alike s (s.record entry) :=
  ⟨rfl, rfl, id, events_record h, rfl, rfl, rfl, rfl, rfl, rfl, rfl⟩

theorem Alike.grows (h : Alike s b) (t : Nat) : Grows s b t where
  openTask := h.openTask
  stream := h.stream
  ending he := h.ending.trans he
  endHanded := (endHanded_of_events h.events).mpr
  lock := .inl ⟨h.ioLock, h.events, h.eosSent⟩

theorem Alike.flow (h : Alike s b) (hs : s.Flow) (hclosed : b.closed = true → s.EndHanded) :
    b.Flow where
  noCancel := h.cancelReason.trans hs.noCancel
  ended he := by
    rw [h.ending, h.frames, h.eosSent, h.ioLock]
    exact hs.ended ((endHanded_of_events h.events).mp he)
  eosSent he := (endHanded_of_events h.events).mpr (hs.eosSent (h.eosSent.symm.trans he))
  closed hc := (endHanded_of_events h.events).mpr (hclosed hc)
  order := by
    rw [h.events]
    exact hs.order

/-- The task moves, with nothing changed. -/
theorem Alike.moves (h : Alike s b) (hs : s.Placed) (ht : s.tasks[t]? = some k)
    (hflush : k.pc.flushing = false ∨ pc.flushing = true)
    (hwait : k.waiting = Task.waiting ⟨k.call, pc⟩) : Moves s b t k pc where
  tasks := h.tasks
  grows := h.grows t
  owner t' ht' := by
    rw [h.ioLock] at ht'
    rcases hflush with hk | hpc
    · exact .inr ⟨hs.owner_ne ht hk ht', ht'⟩
    · by_cases hne : t' = t
      · exact .inl ⟨hne, hpc⟩
      · exact .inr ⟨hne, ht'⟩
  drained he := .inl ⟨h.ending.symm.trans he, h.drained⟩
  settles := .inl ⟨hwait, h.accepted⟩

/-- The task ends or waits. -/
theorem Sound.move (hs : s.Sound) (ht : s.tasks[t]? = some k) (hk : k.pc.done = false)
    (hflush : k.pc.flushing = false) (hwait : k.waiting = Task.waiting ⟨k.call, pc⟩)
    (hpc : s.Local t k.call pc) : (s.goto t pc).Sound :=
  hs.goto ht hk hs.flow ((Alike.refl s).moves hs.placed ht (.inl hflush) hwait) hpc

/-- The task leaves its block. -/
theorem Block.moves (h : Block s b t k) (hwait : Task.waiting ⟨k.call, pc⟩ = none)
    (howner : ∀ t', b.ioLock = some t' → t' = t ∧ pc.flushing = true ∨
      t' ≠ t ∧ s.ioLock = some t') : Moves s b t k pc where
  tasks := h.tasks
  grows := h.grows
  owner := howner
  drained := h.drained
  settles := by
    rcases h.accepted with ⟨hk, haccepted⟩ | ⟨pcm, hk, haccepted⟩
    · exact .inl ⟨hk.trans hwait.symm, haccepted⟩
    · exact .inr ⟨pcm, hk, hwait, haccepted⟩

end Moves

end Session

end AtvRemote.Audio
