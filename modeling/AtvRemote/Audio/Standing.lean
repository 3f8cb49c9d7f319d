import AtvRemote.Audio.Places
import AtvRemote.Audio.Turns
import AtvRemote.Lib.Table
import Mathlib.Logic.Relation

/-!
# What holds of a session in every run

Whatever happens to a session, its tasks are at places of their own coroutines, and each of
them can rely on something there (`Stands`): the stream id is assigned once, by the open task;
a flush and a close carry it; a close that drains was written.  `Proper` is the invariant, and
`Proper.step` says that every step keeps it.
-/

namespace AtvRemote.Audio

open Lib

namespace Session

variable {ε : Type}

/-- What a task can rely on at its place. -/
def Stands (s : Session ε) (t : Nat) : Task → Prop
  | ⟨.open, .start⟩ | ⟨.open, .sending .request _⟩ | ⟨.open, .awaitResponse⟩ =>
      s.openTask = some t ∧ s.streamId = none
  | ⟨.open, .awaitLock _⟩ => s.streamId.isSome = true
  | ⟨.finish _ _, .awaitLock .finishFlush⟩ | ⟨.finish _ _, .awaitOpen⟩ => s.ending = true
  | ⟨_, .sending (.data _ streamId _ force _) _⟩ =>
      s.streamId = some streamId ∧ (force = true → s.ending = true)
  | ⟨_, .sending (.close streamId _ _) .queued⟩ => s.streamId = some streamId
  | ⟨_, .sending (.close streamId reason _) .drain⟩ =>
      s.streamId = some streamId ∧ .written (.close streamId reason) ∈ s.log
  | _ => True

/-- What holds of a session between any two steps. -/
structure Proper (s : Session ε) : Prop where
  fits : ∀ k ∈ s.tasks, k.Fits
  stands : ∀ (t : Nat) (k : Task), s.tasks[t]? = some k → s.Stands t k
  /-- The stream is assigned by the open task. -/
  unopened : s.openTask = none → s.streamId = none
  closeSent : s.closeSent = true →
    ∃ streamId reason, .written (.close streamId reason) ∈ s.log
  /-- A close is for the stream of the session. -/
  written : ∀ streamId reason, .written (.close streamId reason) ∈ s.log →
    s.streamId = some streamId
  received : ∀ reason, .received reason ∈ s.log → s.closed = true

/-- What a step of the task `t` leaves to the others. -/
structure Onward (s b : Session ε) (t : Nat) : Prop where
  tasks : b.tasks = s.tasks
  openTask : b.openTask = s.openTask
  streamId : b.streamId = s.streamId ∨ s.openTask = some t ∧ s.streamId = none
  ending : s.ending = true → b.ending = true
  log : ∀ entry ∈ s.log, entry ∈ b.log

section Tasks

variable {s b : Session ε} {t : Nat} {k : Task} {pc : Pc}

theorem SameStand.onward {c : Call} (h : SameStand c s b) (t : Nat) : Onward s b t :=
  ⟨h.tasks, h.openTask, .inl h.streamId, h.ending, fun _ hmem ↦ h.log ▸ hmem⟩

/-- The stream id stays once it is assigned. -/
theorem Onward.assigned (h : Onward s b t) {streamId : Int} (hid : s.streamId = some streamId) :
    b.streamId = some streamId := by
  rcases h.streamId with heq | ⟨-, hnone⟩
  · exact heq.trans hid
  · rw [hid] at hnone
    cases hnone

/-- Another task keeps what it relies on. -/
theorem Stands.onward {t' : Nat} {k' : Task} (hs : s.Stands t' k') (h : Onward s b t)
    (hne : t' ≠ t) : b.Stands t' k' := by
  have hopening : s.openTask = some t' ∧ s.streamId = none →
      b.openTask = some t' ∧ b.streamId = none := by
    rintro ⟨hopen, hnone⟩
    refine ⟨h.openTask.trans hopen, ?_⟩
    rcases h.streamId with heq | ⟨hmine, -⟩
    · exact heq.trans hnone
    · rw [hopen] at hmine
      exact (hne (Option.some.inj hmine)).elim
  rw [Stands.eq_def] at hs ⊢
  split at hs
  · exact hopening hs
  · exact hopening hs
  · exact hopening hs
  · obtain ⟨streamId, hid⟩ := Option.isSome_iff_exists.mp hs
    exact Option.isSome_of_eq_some (h.assigned hid)
  · exact h.ending hs
  · exact h.ending hs
  · exact ⟨h.assigned hs.1, fun hforce ↦ h.ending (hs.2 hforce)⟩
  · exact h.assigned hs
  · exact ⟨h.assigned hs.1, h.log _ hs.2⟩
  · trivial

/-- The places are no part of what a task relies on. -/
theorem Stands.goto {t' : Nat} {k' : Task} (h : b.Stands t' k') : (b.goto t pc).Stands t' k' := by
  rw [Stands.eq_def] at h ⊢
  exact h

theorem stands_data {c : Call} {packets : List Packet} {streamId : Int} {isEos force : Bool}
    {who : Flusher} {phase : SendPhase} :
    s.Stands t ⟨c, .sending (.data packets streamId isEos force who) phase⟩ ↔
      s.streamId = some streamId ∧ (force = true → s.ending = true) := by
  cases c <;> rfl

theorem stands_close {c : Call} {streamId : Int} {reason : HDSCloseReason} {who : Closer}
    {phase : SendPhase} :
    s.Stands t ⟨c, .sending (.close streamId reason who) phase⟩ ↔ s.streamId = some streamId ∧
      (phase = .drain → .written (.close streamId reason) ∈ s.log) := by
  cases c <;> cases phase <;> simp [Stands]

theorem stands_done {c : Call} (h : pc.done = true) : s.Stands t ⟨c, pc⟩ := by
  cases pc with
  | returned | raised => cases c <;> trivial
  | _ => cases h

/-- A task that waits, or is done, is at a place of its coroutine. -/
theorem Rests.fits {c : Call} (h : b.Rests c pc) : Task.Fits ⟨c, pc⟩ := by
  rw [Rests.eq_def] at h
  split at h
  · trivial
  · cases c <;> trivial
  · cases c <;> trivial
  all_goals trivial

theorem Rests.stands {c : Call} (h : b.Rests c pc) : b.Stands t ⟨c, pc⟩ := by
  rw [Rests.eq_def] at h
  split at h
  · trivial
  · exact stands_done rfl
  · exact stands_done rfl
  all_goals first | exact h | trivial

/-- **A task moves.** -/
theorem Proper.goto (hs : s.Proper) (ht : s.tasks[t]? = some k) (h : Onward s b t)
    (hfits : Task.Fits ⟨k.call, pc⟩) (hpc : b.Stands t ⟨k.call, pc⟩)
    (hsent : b.closeSent = true → s.closeSent = true ∨
      ∃ streamId reason, .written (.close streamId reason) ∈ b.log)
    (hwritten : ∀ streamId reason, .written (.close streamId reason) ∈ b.log →
      b.streamId = some streamId)
    (hreceived : ∀ reason, .received reason ∈ b.log → b.closed = true) :
    (b.goto t pc).Proper where
  fits k' hmem := by
    obtain ⟨t', ht'⟩ := List.mem_iff_getElem?.mp hmem
    rcases getElem?_goto ht h.tasks ht' with ⟨-, rfl⟩ | ⟨-, hk'⟩
    · exact hfits
    · exact hs.fits k' (List.mem_of_getElem? hk')
  stands t' k' ht' := by
    rcases getElem?_goto ht h.tasks ht' with ⟨rfl, rfl⟩ | ⟨hne, hk'⟩
    · exact hpc.goto
    · exact ((hs.stands t' k' hk').onward h hne).goto
  unopened hnone := by
    have hnone : s.openTask = none := h.openTask.symm.trans hnone
    rcases h.streamId with heq | ⟨hmine, -⟩
    · exact heq.trans (hs.unopened hnone)
    · rw [hnone] at hmine
      cases hmine
  closeSent hsent' := by
    rcases hsent hsent' with hold | hnew
    · obtain ⟨streamId, reason, hmem⟩ := hs.closeSent hold
      exact ⟨streamId, reason, h.log _ hmem⟩
    · exact hnew
  written := hwritten
  received := hreceived

/-- A task moves, and nothing is told about the close. -/
theorem Proper.move (hs : s.Proper) (ht : s.tasks[t]? = some k) (h : Onward s b t)
    (hfits : Task.Fits ⟨k.call, pc⟩) (hpc : b.Stands t ⟨k.call, pc⟩)
    (hsent : b.closeSent = s.closeSent) (hclosed : s.closed = true → b.closed = true)
    (hlog : ∀ entry ∈ b.log, entry ∈ s.log ∨
      (∀ streamId reason, entry ≠ .written (.close streamId reason)) ∧
        ∀ reason, entry ≠ .received reason) :
    (b.goto t pc).Proper := by
  refine hs.goto ht h hfits hpc (fun hb ↦ .inl (hsent ▸ hb)) ?_ ?_
  · intro streamId reason hmem
    rcases hlog _ hmem with hold | ⟨hno, -⟩
    · exact h.assigned (hs.written streamId reason hold)
    · exact (hno _ _ rfl).elim
  · intro reason hmem
    rcases hlog _ hmem with hold | ⟨-, hno⟩
    · exact hclosed (hs.received reason hold)
    · exact (hno _ rfl).elim

end Tasks

/-! ## Steps -/

section Steps

variable {opus : OpusEncoder ε} {s s' b : Session ε} {cc : Bool} {a : Label} {t : Nat} {k : Task}

theorem mem_record {entry entry' : Entry} (h : entry' ∈ (s.record entry).log) :
    entry' ∈ s.log ∨ entry' = entry := by
  rcases List.mem_append.mp h with hmem | hmem
  · exact .inl hmem
  · exact .inr (List.mem_singleton.mp hmem)

theorem mem_log_record (entry : Entry) {entry' : Entry} (h : entry' ∈ s.log) :
    entry' ∈ (s.record entry).log := List.mem_append_left _ h

theorem Onward.refl (s : Session ε) (t : Nat) : Onward s s t :=
  ⟨rfl, rfl, .inl rfl, id, fun _ ↦ id⟩

/-- The close is recorded, or another thing that tells nothing about it. -/
theorem onward_record (h : Onward s b t) (entry : Entry) : Onward s (b.record entry) t :=
  ⟨h.tasks, h.openTask, h.streamId, h.ending, fun _ hmem ↦ mem_log_record entry (h.log _ hmem)⟩

/-- What a session that a task has begun with leaves to the others. -/
theorem Begins.onward (hs : s.Proper) (ht : s.tasks[t]? = some k) (h : Begins s a t k b) :
    Onward s b t ∧ b.closed = s.closed ∧ b.closeSent = s.closeSent ∧ b.log = s.log := by
  cases h with
  | runs b h => exact ⟨h.onward t, h.closed, h.closeSent, h.log⟩
  | cancels => exact ⟨⟨rfl, rfl, .inl rfl, fun _ ↦ rfl, fun _ ↦ id⟩, rfl, rfl, rfl⟩
  | opens status message streamId _ hk =>
      subst hk
      have hstands : s.openTask = some t ∧ s.streamId = none := hs.stands t _ ht
      exact ⟨⟨rfl, rfl, .inr hstands, id, fun _ ↦ id⟩, rfl, rfl, rfl⟩

/-- The session that the callers of `_send_close` leave behind. -/
theorem closeReturned_stand (b : Session ε) (t : Nat) (who : Closer) :
    ∃ (d : Session ε) (pc : Pc), b.closeReturned t who = d.goto t pc ∧ pc.done = true ∧
      d.tasks = b.tasks ∧ d.openTask = b.openTask ∧ d.streamId = b.streamId ∧
      d.ending = b.ending ∧ d.log = b.log ∧ d.closeSent = b.closeSent ∧ d.closed = true := by
  cases who <;> exact ⟨_, _, rfl, rfl, rfl, rfl, rfl, rfl, rfl, rfl, rfl⟩

theorem closeRaised_stand (b : Session ε) (t : Nat) (e : PyErr) (who : Closer) :
    ∃ (d : Session ε) (pc : Pc), b.closeRaised t e who = d.goto t pc ∧ pc.done = true ∧
      d.tasks = b.tasks ∧ d.openTask = b.openTask ∧ d.streamId = b.streamId ∧
      d.ending = b.ending ∧ d.log = b.log ∧ d.closeSent = b.closeSent ∧ d.closed = true := by
  cases who <;> exact ⟨_, _, rfl, rfl, rfl, rfl, rfl, rfl, rfl, rfl, rfl⟩

theorem flushRaised_stand (b : Session ε) (t : Nat) (e : PyErr) (who : Flusher) :
    ∃ (d : Session ε) (pc : Pc), b.flushRaised t e who = d.goto t pc ∧ pc.done = true ∧
      d.tasks = b.tasks ∧ d.openTask = b.openTask ∧ d.streamId = b.streamId ∧
      d.ending = b.ending ∧ d.log = b.log ∧ d.closeSent = b.closeSent ∧
      (d.closed = b.closed ∨ d.closed = true) := by
  cases who with
  | «open» => exact ⟨_, _, rfl, rfl, rfl, rfl, rfl, rfl, rfl, rfl, .inr rfl⟩
  | _ => exact ⟨_, _, rfl, rfl, rfl, rfl, rfl, rfl, rfl, rfl, .inl rfl⟩

theorem fits_done {c : Call} {pc : Pc} (h : pc.done = true) : Task.Fits ⟨c, pc⟩ := by
  cases pc with
  | returned | raised => cases c <;> trivial
  | _ => cases h

/-- Nothing but a close that is written, or received, tells about the close. -/
theorem quiet_record {entry : Entry}
    (hwritten : ∀ streamId reason, entry ≠ .written (.close streamId reason))
    (hreceived : ∀ reason, entry ≠ .received reason) :
    ∀ entry' ∈ (s.record entry).log, entry' ∈ s.log ∨
      (∀ streamId reason, entry' ≠ .written (.close streamId reason)) ∧
        ∀ reason, entry' ≠ .received reason := by
  intro entry' hmem
  rcases mem_record hmem with hold | rfl
  · exact .inl hold
  · exact .inr ⟨hwritten, hreceived⟩

/-- The task is done, and the session is closed behind it. -/
theorem Proper.finish (hs : s.Proper) (ht : s.tasks[t]? = some k) {b d : Session ε} {pc : Pc}
    (h : Onward s b t) (hdone : pc.done = true) (htasks : d.tasks = b.tasks)
    (hopenTask : d.openTask = b.openTask) (hid : d.streamId = b.streamId)
    (hending : d.ending = b.ending) (hlog : d.log = b.log)
    (hsent : d.closeSent = true → s.closeSent = true ∨
      ∃ streamId reason, .written (.close streamId reason) ∈ b.log)
    (hclosed : s.closed = true → d.closed = true)
    (hquiet : ∀ entry ∈ b.log, entry ∈ s.log ∨
      (∀ streamId reason, entry ≠ .written (.close streamId reason)) ∧
        ∀ reason, entry ≠ .received reason) : (d.goto t pc).Proper := by
  have honward : Onward s d t := by
    refine ⟨htasks.trans h.tasks, hopenTask.trans h.openTask, ?_, fun he ↦ ?_, fun entry hmem ↦ ?_⟩
    · rw [hid]
      exact h.streamId
    · exact hending.trans (h.ending he)
    · rw [hlog]
      exact h.log entry hmem
  refine hs.goto ht honward (fits_done hdone) (stands_done hdone) ?_ ?_ ?_
  · rw [hlog]
    exact hsent
  · intro streamId reason hmem
    rw [hlog] at hmem
    rcases hquiet _ hmem with hold | ⟨hno, -⟩
    · exact honward.assigned (hs.written streamId reason hold)
    · exact (hno _ _ rfl).elim
  · intro reason hmem
    rw [hlog] at hmem
    rcases hquiet _ hmem with hold | ⟨-, hno⟩
    · exact hclosed (hs.received reason hold)
    · exact (hno _ rfl).elim

theorem Outcome.proper (hs : s.Proper) (ht : s.tasks[t]? = some k) (hb : Begins s a t k b)
    (h : Outcome b cc t k s') : s'.Proper := by
  obtain ⟨honward, hclosed, hsent, hlog⟩ := hb.onward hs ht
  have hquiet : ∀ entry ∈ b.log, entry ∈ s.log ∨
      (∀ streamId reason, entry ≠ .written (.close streamId reason)) ∧
        ∀ reason, entry ≠ .received reason := fun entry hmem ↦ .inl (hlog ▸ hmem)
  have hstay : s.closed = true → b.closed = true := fun h ↦ hclosed.trans h
  cases h with
  | rests d pc h hpc =>
      have hd : Onward s d t := ⟨h.tasks.trans honward.tasks, h.openTask.trans honward.openTask,
        h.streamId ▸ honward.streamId, fun he ↦ h.ending (honward.ending he),
        fun entry hmem ↦ h.log ▸ honward.log entry hmem⟩
      refine hs.move ht hd hpc.fits hpc.stands (h.closeSent.trans hsent)
        (fun hc ↦ h.closed.trans (hstay hc)) ?_
      rw [h.log]
      exact hquiet
  | event d packets streamId isEos force who h hwho hid hforce _ =>
      have hd : Onward s d t := ⟨h.tasks.trans honward.tasks, h.openTask.trans honward.openTask,
        h.streamId ▸ honward.streamId, fun he ↦ h.ending (honward.ending he),
        fun entry hmem ↦ h.log ▸ honward.log entry hmem⟩
      refine hs.move ht (onward_record hd _) (Task.fits_data.mpr hwho)
        (stands_data.mpr ⟨hid, hforce⟩) (h.closeSent.trans hsent)
        (fun hc ↦ h.closed.trans (hstay hc)) fun entry hmem ↦ ?_
      rcases mem_record hmem with hold | rfl
      · exact hquiet entry (h.log ▸ hold)
      · exact .inr ⟨nofun, nofun⟩
  | close streamId reason who hwho _ _ hid _ =>
      refine hs.move ht (onward_record honward _) (Task.fits_close.mpr (Task.closer_call hwho))
        (stands_close.mpr ⟨hid, nofun⟩) hsent hstay fun entry hmem ↦ ?_
      rcases mem_record hmem with hold | rfl
      · exact hquiet entry hold
      · exact .inr ⟨nofun, nofun⟩
  | noClose who =>
      obtain ⟨d, pc, heq, hdone, htasks, hopenTask, hid, hending, hdlog, hdsent, hdclosed⟩ :=
        b.closeReturned_stand t who
      rw [heq]
      exact hs.finish ht honward hdone htasks hopenTask hid hending hdlog
        (fun h ↦ .inl (hsent.symm.trans (hdsent.symm.trans h))) (fun _ ↦ hdclosed) hquiet
  | noStream =>
      exact hs.finish ht (d := b.markDone) honward rfl rfl rfl rfl rfl rfl
        (fun h ↦ .inl (hsent.symm.trans h)) (fun _ ↦ rfl) hquiet

/-- **A turn keeps a session proper.** -/
theorem Turn.proper (hs : s.Proper) (ht : s.tasks[t]? = some k) (h : Turn s cc a t k s') :
    s'.Proper := by
  have hstands := hs.stands t k ht
  have hfits := hs.fits k (List.mem_of_getElem? ht)
  have hrefl := Onward.refl s t
  have hold : ∀ entry ∈ s.log, entry ∈ s.log ∨
      (∀ streamId reason, entry ≠ .written (.close streamId reason)) ∧
        ∀ reason, entry ≠ .received reason := fun _ hmem ↦ .inl hmem
  obtain ⟨c, pc⟩ := k
  cases h with
  | request hk =>
      cases hk
      exact hs.move ht (onward_record hrefl _) trivial hstands rfl id (quiet_record nofun nofun)
  | written send hk =>
      cases hk
      cases send with
      | request =>
          cases c with
          | «open» =>
              exact hs.move ht (onward_record hrefl _) trivial hstands rfl id
                (quiet_record nofun nofun)
          | _ => exact hfits.elim
      | data packets streamId isEos force who =>
          have hdata := stands_data.mp hstands
          exact hs.move ht (onward_record hrefl _) (Task.fits_data.mpr (Task.fits_data.mp hfits))
            (stands_data.mpr hdata) rfl id (quiet_record nofun nofun)
      | close streamId reason who =>
          have hid := (stands_close.mp hstands).1
          refine hs.goto ht (onward_record hrefl _) (Task.fits_close.mpr (Task.fits_close.mp hfits))
            (stands_close.mpr ⟨hid, fun _ ↦ ?_⟩) .inl ?_ ?_
          · exact List.mem_append_right _ (List.mem_singleton_self _)
          · intro streamId' reason' hmem
            rcases mem_record hmem with hmem | heq
            · exact hs.written streamId' reason' hmem
            · cases heq
              exact hid
          · intro reason' hmem
            rcases mem_record hmem with hmem | heq
            · exact hs.received reason' hmem
            · cases heq
  | requestSent hk =>
      cases hk
      cases c with
      | «open» => exact hs.move ht hrefl trivial hstands rfl id hold
      | _ => exact hfits.elim
  | runs b s' _ hb h => exact h.proper hs ht hb
  | unstarted e => exact hs.move ht hrefl (fits_done rfl) (stands_done rfl) rfl id hold
  | refused status message onOpen e _ hk =>
      cases hk
      cases c with
      | «open» =>
          have hassign : Onward s { s with
              streamId := (openedStream status message).1.or s.streamId } t :=
            ⟨rfl, rfl, .inr hstands, id, fun _ ↦ id⟩
          exact hs.finish ht hassign (d := markDone { s with
              streamId := (openedStream status message).1.or s.streamId, error := some e })
            rfl rfl rfl rfl rfl rfl .inl (fun _ ↦ rfl) hold
      | _ => exact hfits.elim
  | closeSent streamId reason who hk =>
      cases hk
      obtain ⟨d, pc, heq, hdone, htasks, hopenTask, hid, hending, hlog, -, hclosed⟩ :=
        ({ s with closeSent := true } : Session ε).closeReturned_stand t who
      rw [heq]
      exact hs.finish ht hrefl hdone htasks hopenTask hid hending hlog
        (fun _ ↦ .inr ⟨streamId, reason, (stands_close.mp hstands).2 rfl⟩) (fun _ ↦ hclosed) hold
  | openRaised e =>
      exact hs.finish ht hrefl (d := ({ s with error := some e } : Session ε).markDone)
        rfl rfl rfl rfl rfl
        rfl .inl (fun _ ↦ rfl) hold
  | requestRaised phase e =>
      exact hs.finish ht (onward_record hrefl _)
        (d := ({ s.record (.raised .open) with error := some e } : Session ε).markDone)
        rfl rfl rfl rfl rfl rfl .inl (fun _ ↦ rfl) (quiet_record nofun nofun)
  | eventRaised packets streamId isEos force who phase e =>
      obtain ⟨d, pc, heq, hdone, htasks, hopenTask, hid, hending, hlog, hsent, hclosed⟩ :=
        (s.record (.raised (.data packets streamId isEos))).flushRaised_stand t e who
      rw [heq]
      refine hs.finish ht (onward_record hrefl _) hdone htasks hopenTask hid hending hlog
        (fun h ↦ .inl (hsent.symm.trans h)) (fun h ↦ ?_) (quiet_record nofun nofun)
      rcases hclosed with hsame | hclosed
      · exact hsame.trans h
      · exact hclosed
  | closeRaised streamId reason who phase e =>
      obtain ⟨d, pc, heq, hdone, htasks, hopenTask, hid, hending, hlog, hsent, hclosed⟩ :=
        (s.record (.raised (.close streamId reason))).closeRaised_stand t e who
      rw [heq]
      exact hs.finish ht (onward_record hrefl _) hdone htasks hopenTask hid hending hlog
        (fun h ↦ .inl (hsent.symm.trans h)) (fun _ ↦ hclosed) (quiet_record nofun nofun)

/-- A new task starts. -/
theorem Proper.create (hs : s.Proper) {c : Call} {openTask : Option Nat}
    (hkeep : ∀ t, s.openTask = some t → openTask = some t)
    (hopen : c = .open → s.openTask = none ∧ openTask = some s.tasks.length) :
    ({ s with tasks := s.tasks ++ [⟨c, .start⟩], openTask } : Session ε).Proper where
  fits k hmem := by
    rcases List.mem_append.mp hmem with hold | hnew
    · exact hs.fits k hold
    · rw [List.mem_singleton.mp hnew]
      cases c <;> trivial
  stands t k ht := by
    rcases getElem?_concat_eq_some.mp ht with hold | ⟨rfl, rfl⟩
    · have hstands := hs.stands t k hold
      rw [Stands.eq_def] at hstands ⊢
      split at hstands
      · exact ⟨hkeep t hstands.1, hstands.2⟩
      · exact ⟨hkeep t hstands.1, hstands.2⟩
      · exact ⟨hkeep t hstands.1, hstands.2⟩
      all_goals exact hstands
    · cases c with
      | «open» =>
          obtain ⟨hnone, hsome⟩ := hopen rfl
          exact ⟨hsome, hs.unopened hnone⟩
      | _ => trivial
  unopened hnone := by
    refine hs.unopened ?_
    cases hopenTask : s.openTask with
    | none => rfl
    | some t =>
        rw [show openTask = none from hnone] at hkeep
        cases hkeep t hopenTask
  closeSent := hs.closeSent
  written := hs.written
  received := hs.received

theorem Proper.handleClose (hs : s.Proper) (reason : Int) : (s.handleClose reason).Proper := by
  have hrecord : Onward s (s.record (.received reason)) s.tasks.length :=
    onward_record (.refl s _) _
  obtain ⟨b, heq, hb, hid, hsent, hlog, hclosed⟩ : ∃ b, s.handleClose reason = b ∧
      Onward s b s.tasks.length ∧ b.streamId = s.streamId ∧ b.closeSent = s.closeSent ∧
      b.log = s.log ++ [.received reason] ∧ b.closed = true := by
    rcases s.handleClose_cases reason with ⟨hclosed, heq⟩ | ⟨-, heq⟩
    · exact ⟨_, heq, hrecord, rfl, rfl, rfl, hclosed⟩
    · exact ⟨_, heq, ⟨hrecord.tasks, hrecord.openTask, hrecord.streamId, hrecord.ending,
        hrecord.log⟩, rfl, rfl, rfl, rfl⟩
  rw [heq]
  constructor
  · rw [hb.tasks]
    exact hs.fits
  · intro t k ht
    rw [hb.tasks] at ht
    exact (hs.stands t k ht).onward hb (Nat.ne_of_lt (List.getElem?_eq_some_iff.mp ht).1)
  · rw [hb.openTask, hid]
    exact hs.unopened
  · rw [hsent]
    intro h
    obtain ⟨streamId, reason, hmem⟩ := hs.closeSent h
    exact ⟨streamId, reason, hb.log _ hmem⟩
  · intro streamId reason' hmem
    rw [hlog] at hmem
    rcases List.mem_append.mp hmem with hold | hnew
    · exact hid.trans (hs.written streamId reason' hold)
    · cases List.mem_singleton.mp hnew
  · exact fun _ _ ↦ hclosed

/-- The steps of an proper session. -/
theorem Proper.turn_cases (hs : s.Proper) (h : s.step opus cc a = some s') :
    (a = .start ∧ s' = s.start) ∨ (∃ c, a = .call c ∧ c ≠ .open ∧ s' = s.spawn c) ∨
      (∃ reason, a = .handleClose reason ∧ s' = s.handleClose reason) ∨
      ∃ (t : Nat) (k : Task), a.task = some t ∧ s.tasks[t]? = some k ∧ Turn s cc a t k s' := by
  refine Session.turn_cases hs.fits ?_ h
  intro k hmem hwait
  obtain ⟨t, ht⟩ := List.mem_iff_getElem?.mp hmem
  have hstands := hs.stands t k ht
  have hfits := hs.fits k hmem
  obtain ⟨c, pc⟩ := k
  rcases hwait with rfl | rfl | ⟨packets, streamId, isEos, who, phase, rfl⟩
  · cases c with
    | finish => exact hstands
    | _ => exact hfits.elim
  · cases c with
    | finish => exact hstands
    | _ => exact hfits.elim
  · exact (stands_data.mp hstands).2 rfl

/-- **Every step keeps a session proper.** -/
theorem Proper.step (hs : s.Proper) (h : s.step opus cc a = some s') : s'.Proper := by
  rcases hs.turn_cases h with ⟨-, rfl⟩ | ⟨c, -, hne, rfl⟩ | ⟨reason, -, rfl⟩ | ⟨t, k, -, ht, hturn⟩
  · rw [Session.start]
    split
    · next hnone =>
      have hnone : s.openTask = none := by simpa using hnone
      refine hs.create (fun t h ↦ ?_) fun _ ↦ ⟨hnone, rfl⟩
      rw [hnone] at h
      cases h
    · exact hs
  · exact hs.create (fun _ ↦ id) fun h ↦ (hne h).elim
  · exact hs.handleClose reason
  · exact hturn.proper hs ht

theorem Outcome.streamId (h : Outcome b cc t k s') : s'.streamId = b.streamId := by
  cases h with
  | rests d pc h => exact h.streamId
  | event d _ _ _ _ _ h => exact h.streamId
  | close => rfl
  | noClose who => cases who <;> rfl
  | noStream => rfl

/-- **The stream id is assigned once.** -/
theorem Proper.assigned (hs : s.Proper) (h : s.step opus cc a = some s') {streamId : Int}
    (hid : s.streamId = some streamId) : s'.streamId = some streamId := by
  rcases hs.turn_cases h with ⟨-, rfl⟩ | ⟨c, -, -, rfl⟩ | ⟨reason, -, rfl⟩ | ⟨t, k, -, ht, hturn⟩
  · rw [Session.start]
    split <;> exact hid
  · exact hid
  · rcases s.handleClose_cases reason with ⟨-, heq⟩ | ⟨-, heq⟩
    · rw [heq]
      exact hid
    · rw [heq]
      exact hid
  · cases hturn with
    | runs b s' _ hb h =>
        rw [h.streamId]
        exact (hb.onward hs ht).1.assigned hid
    | refused status message onOpen e _ hk =>
        obtain ⟨c, pc⟩ := k
        cases hk
        have hstands := hs.stands t _ ht
        cases c with
        | «open» =>
            rw [hstands.2] at hid
            cases hid
        | _ => exact (hs.fits _ (List.mem_of_getElem? ht)).elim
    | closeSent streamId reason who => cases who <;> exact hid
    | eventRaised _ _ _ _ who => cases who <;> exact hid
    | closeRaised _ _ who => cases who <;> exact hid
    | _ => exact hid

/-- A task that awaits the response has no stream yet. -/
theorem Proper.awaiting (hs : s.Proper) {t : Nat} (h : s.pc? t = some .awaitResponse) :
    s.openTask = some t ∧ s.streamId = none := by
  obtain ⟨⟨c, pc⟩, ht, rfl⟩ := Option.map_eq_some_iff.mp h
  cases c with
  | «open» => exact hs.stands t _ ht
  | _ => exact (hs.fits _ (List.mem_of_getElem? ht)).elim

/-- The stream id that a response assigns. -/
theorem Proper.streamId_response (hs : s.Proper) {status : Int} {message : List (Obj × Obj)}
    {streamId : Int} (hid : openedStream status message = (some streamId, none))
    (h : s.step opus cc (.response t status message none) = some s') :
    s'.streamId = some streamId := by
  rw [Session.step] at h
  split at h
  · next hawait =>
    cases h
    obtain ⟨⟨c, pc⟩, ht, rfl⟩ := Option.map_eq_some_iff.mp hawait
    cases c with
    | «open» => exact (outcome_openResponse rfl hid).streamId
    | _ => exact (hs.fits _ (List.mem_of_getElem? ht)).elim
  · cases h

theorem proper_new (encoder : ε) : (Session.new encoder).Proper where
  fits := List.forall_mem_nil _
  stands _ _ h := by cases h
  unopened _ := rfl
  closeSent h := by cases h
  written _ _ h := by cases h
  received _ h := by cases h

theorem proper_start (opus : OpusEncoder ε) : (Session.new opus.init).start.Proper := by
  have hstart :
      (Session.new opus.init).step opus false .start = some (Session.new opus.init).start := rfl
  exact (proper_new opus.init).step hstart

end Steps

/-! ## Several steps -/

/-- The session after steps of its own. -/
def Progress (opus : OpusEncoder ε) : Session ε → Session ε → Prop :=
  Relation.ReflTransGen fun s s' ↦ ∃ cc a, s.step opus cc a = some s'

namespace Progress

variable {opus : OpusEncoder ε} {s s' : Session ε}

theorem refl (s : Session ε) : Progress opus s s := Relation.ReflTransGen.refl

theorem single (cc : Bool) (a : Label) (h : s.step opus cc a = some s') : Progress opus s s' :=
  Relation.ReflTransGen.single ⟨cc, a, h⟩

theorem proper (h : Progress opus s s') (hs : s.Proper) : s'.Proper := by
  induction h with
  | refl => exact hs
  | tail _ hstep ih =>
      obtain ⟨cc, a, hstep⟩ := hstep
      exact ih.step hstep

theorem closed (h : Progress opus s s') (hs : s.closed = true) : s'.closed = true := by
  induction h with
  | refl => exact hs
  | tail _ hstep ih =>
      obtain ⟨cc, a, hstep⟩ := hstep
      exact step_closed hstep ih

theorem assigned (h : Progress opus s s') (hs : s.Proper) {streamId : Int}
    (hid : s.streamId = some streamId) : s'.streamId = some streamId := by
  induction h with
  | refl => exact hid
  | tail hsome hstep ih =>
      obtain ⟨cc, a, hstep⟩ := hstep
      exact (proper hsome hs).assigned hstep ih

end Progress

end Session

end AtvRemote.Audio
