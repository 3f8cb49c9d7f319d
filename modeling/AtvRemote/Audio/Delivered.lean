import AtvRemote.Audio.Exits
import AtvRemote.Audio.Stream

/-!
# What a `finish` that returns has delivered

A session can be closed without an error by a `cancel`, by an acknowledgement and by a close of
the Apple TV, at any time.  `finishHonest_iff` says that the returns of `finish` are right
exactly when its exits come behind the end of the stream, and that they do when nothing of that
kind closes the session before.
-/

namespace AtvRemote.Audio

open Lib

/-- The task closes the session without an error once it runs on. -/
def Task.closing : Task → Bool
  | ⟨.cancel _, .awaitShielded _⟩ => true
  | ⟨_, .sending (.close _ _ who) _⟩ => who ≠ .timeout
  | _ => false

theorem Task.closing_sending {c : Call} {send : Send} {phase : SendPhase}
    (h : Task.closing ⟨c, .sending send phase⟩ = true) :
    ∃ streamId reason who, send = .close streamId reason who ∧ who ≠ .timeout := by
  cases send with
  | close streamId reason who =>
      refine ⟨streamId, reason, who, rfl, ?_⟩
      rintro rfl
      cases c <;> cases h
  | _ => cases c <;> cases h

namespace Session

variable {ε : Type}

/-- A task is about to close the session: a `cancel`, or the acknowledgement of the end. -/
def AboutToClose (s : Session ε) : Task → Prop
  | ⟨.cancel _, .start⟩ => True
  | ⟨.handleAck true, .start⟩ => s.streamId.isSome = true
  | _ => False

/-- An open session is cancelled, acknowledged and closed without an error only behind the end
of its stream, and all calls of `finish` agree on the remainder. -/
def ClosesBehindEnd (s : Session ε) : Label → Prop
  | .run t => ∀ k, s.tasks[t]? = some k → s.AboutToClose k → s.closed = false → s.EndHanded
  | .handleClose reason => closeError reason = none → s.closed = false → s.EndHanded
  | .call (.finish _ pad) => ∀ k ∈ s.tasks, ∀ positive' pad', k.call = .finish positive' pad' →
      pad' = pad
  | _ => True

/-- The end of the stream comes before everything that closes the session without an error, and
all calls of `finish` agree on the remainder. -/
structure Ordered (s : Session ε) : Prop where
  cancels : s.cancelReason.isSome = true → s.EndHanded
  closed : s.closed = true → s.error = none → s.EndHanded
  closes : ∀ k ∈ s.tasks, k.closing = true → s.EndHanded
  drains : s.ending = true → ∃ pad, s.drained = some pad ∧
    ∃ k ∈ s.tasks, ∃ positive, k.call = .finish positive pad
  agree : ∀ k ∈ s.tasks, ∀ k' ∈ s.tasks, ∀ positive pad positive' pad',
    k.call = .finish positive pad → k'.call = .finish positive' pad' → pad' = pad

/-- What a step of the task `k` leaves of the order. -/
structure Keeps (s b : Session ε) (k : Task) : Prop where
  tasks : b.tasks = s.tasks
  further : Further s b
  cancels : b.cancelReason.isSome = true → s.cancelReason.isSome = true ∨ s.EndHanded
  drains : b.ending = true → s.ending = true ∨
    ∃ positive pad, k.call = .finish positive pad ∧ b.drained = some pad

section Keeps

variable {s b d : Session ε} {a : Label} {t : Nat} {k : Task} {pc : Pc}

theorem Keeps.refl (s : Session ε) (k : Task) : Keeps s s k := ⟨rfl, .refl s, .inl, .inl⟩

theorem Keeps.of_same (h : Keeps s b k) (htasks : d.tasks = b.tasks) (hfurther : Further b d)
    (hcancels : d.cancelReason = b.cancelReason) (hending : d.ending = b.ending)
    (hdrained : d.drained = b.drained) : Keeps s d k where
  tasks := htasks.trans h.tasks
  further := h.further.trans hfurther
  cancels := by
    rw [hcancels]
    exact h.cancels
  drains := by
    rw [hending, hdrained]
    exact h.drains

theorem SameStand.keeps (h : SameStand k.call b d) (hb : Keeps s b k) : Keeps s d k where
  tasks := h.tasks.trans hb.tasks
  further := hb.further.trans h.further
  cancels := by
    rw [h.cancelReason]
    exact hb.cancels
  drains hd := by
    rcases h.ends with ⟨hsame, hdrained⟩ | ⟨-, -, positive, pad, hcall, hdrained⟩
    · rw [hdrained]
      exact hb.drains (hsame.symm.trans hd)
    · exact .inr ⟨positive, pad, hcall, hdrained⟩

/-- **A task moves.** -/
theorem Ordered.goto (hs : s.Ordered) (ht : s.tasks[t]? = some k) (h : Keeps s b k)
    (hclosed : b.closed = true → b.error = none → s.closed = true ∧ s.error = none ∨ s.EndHanded)
    (hpc : Task.closing ⟨k.call, pc⟩ = true → s.EndHanded) : (b.goto t pc).Ordered := by
  have hend : s.EndHanded → (b.goto t pc).EndHanded := h.further.endHanded
  have hcalls : ∀ k' ∈ (b.goto t pc).tasks, ∃ k'' ∈ s.tasks, k''.call = k'.call := by
    intro k' hmem
    obtain ⟨t', ht'⟩ := List.mem_iff_getElem?.mp hmem
    rcases getElem?_goto ht h.tasks ht' with ⟨-, rfl⟩ | ⟨-, hk'⟩
    · exact ⟨k, List.mem_of_getElem? ht, rfl⟩
    · exact ⟨k', List.mem_of_getElem? hk', rfl⟩
  constructor
  · intro hsome
    rcases h.cancels hsome with hold | hnew
    · exact hend (hs.cancels hold)
    · exact hend hnew
  · intro hc he
    rcases hclosed hc he with ⟨hold, herror⟩ | hnew
    · exact hend (hs.closed hold herror)
    · exact hend hnew
  · intro k' hmem hcloses
    obtain ⟨t', ht'⟩ := List.mem_iff_getElem?.mp hmem
    rcases getElem?_goto ht h.tasks ht' with ⟨-, rfl⟩ | ⟨-, hk'⟩
    · exact hend (hpc hcloses)
    · exact hend (hs.closes k' (List.mem_of_getElem? hk') hcloses)
  · intro hending
    rcases h.drains hending with hold | ⟨positive, pad, hcall, hpad⟩
    · obtain ⟨pad, hpad, k', hmem, positive, hcall⟩ := hs.drains hold
      obtain ⟨t', ht'⟩ := List.mem_iff_getElem?.mp hmem
      obtain ⟨k'', hk'', hcall'⟩ := exists_call_goto pc ht h.tasks ht'
      exact ⟨pad, (h.further.drained hold).trans hpad, k'', List.mem_of_getElem? hk'', positive,
        hcall'.trans hcall⟩
    · exact ⟨pad, hpad, _, List.mem_of_getElem? (getElem?_goto_self ht h.tasks), positive, hcall⟩
  · intro k₁ hmem₁ k₂ hmem₂ positive pad positive' pad' hcall hcall'
    obtain ⟨k₁', hk₁', hsame₁⟩ := hcalls k₁ hmem₁
    obtain ⟨k₂', hk₂', hsame₂⟩ := hcalls k₂ hmem₂
    exact hs.agree k₁' hk₁' k₂' hk₂' positive pad positive' pad' (hsame₁.trans hcall)
      (hsame₂.trans hcall')

end Keeps

/-! ## The steps -/

section Steps

variable {opus : OpusEncoder ε} {s s' b : Session ε} {cc : Bool} {a : Label} {t : Nat} {k : Task}
  {pc : Pc}

/-- A task that waits, or is done, closes the session only as a `cancel` that has begun. -/
theorem closing_of_done {c : Call} (hpc : pc.done = true) : Task.closing ⟨c, pc⟩ = false := by
  cases pc with
  | returned | raised => cases c <;> rfl
  | _ => cases hpc

/-- A `cancel` begins behind the end of the stream. -/
theorem Begins.keeps (hend : ∀ reason, k = ⟨.cancel reason, .start⟩ → s.closed = false →
    s.ending = true ∧ s.EndHanded) (h : Begins s a t k b) : Keeps s b k := by
  cases h with
  | runs b h => exact h.keeps (.refl s k)
  | cancels reason hk hopen =>
      obtain ⟨hending, hend⟩ := hend reason hk hopen
      exact ⟨rfl, (Begins.cancels reason hk hopen : Begins s a t k _).further, fun _ ↦ .inr hend,
        fun _ ↦ .inl hending⟩
  | opens status message streamId ha hk hid =>
      exact ⟨rfl, (Begins.opens status message streamId ha hk hid).further, .inl, .inl⟩

theorem Begins.same (h : Begins s a t k b) : b.closed = s.closed ∧ b.error = s.error := by
  cases h with
  | runs b h => exact ⟨h.closed, h.error⟩
  | cancels => exact ⟨rfl, rfl⟩
  | opens => exact ⟨rfl, rfl⟩

theorem Begins.streamId (h : Begins s a t k b) (hk : k.call ≠ .open) :
    b.streamId = s.streamId := by
  cases h with
  | runs b h => exact h.streamId
  | cancels => rfl
  | opens _ _ _ _ hopen =>
      rw [hopen] at hk
      exact (hk rfl).elim

/-- A close in flight that is not that of a timeout comes behind the end of the stream. -/
theorem Ordered.closing (hs : s.Ordered) (ht : s.tasks[t]? = some k) {streamId : Int}
    {reason : HDSCloseReason} {who : Closer} {phase : SendPhase}
    (hk : k.pc = .sending (.close streamId reason who) phase) (hne : who ≠ .timeout) :
    s.EndHanded := by
  refine hs.closes k (List.mem_of_getElem? ht) ?_
  obtain ⟨c, pc⟩ := k
  cases hk
  cases c <;> exact decide_eq_true hne

/-- The callers of `_send_close`, but for the timeout, come behind the end of the stream. -/
theorem Ordered.closer (hs : s.Ordered) (ht : s.tasks[t]? = some k)
    (hcond : s.ClosesBehindEnd a) (hstart : k.pc = .start → a = .run t) (hkeeps : Keeps s b k)
    {who : Closer} (hwho : k.closer = some who) (hne : who ≠ .timeout)
    (hopened : who = .open → b.cancelReason.isSome = true)
    (hopen : k.pc = .start → s.closed = false)
    (hsome : who = .ack → s.streamId.isSome = true) : s.EndHanded := by
  have hbegin : s.AboutToClose k → k.pc = .start → s.EndHanded := by
    intro hclose hk
    rw [hstart hk] at hcond
    exact hcond k ht hclose (hopen hk)
  rw [Task.closer.eq_def] at hwho
  split at hwho
  · cases hwho
    rcases hkeeps.cancels (hopened rfl) with hold | hend
    · exact hs.cancels hold
    · exact hend
  · cases hwho
    exact (hne rfl).elim
  · cases hwho
    exact hbegin (hsome rfl) rfl
  · exact hbegin trivial rfl
  · exact hs.closes _ (List.mem_of_getElem? ht) rfl
  · cases hwho

theorem Outcome.ordered (hs : s.Ordered) (ht : s.tasks[t]? = some k)
    (hcond : s.ClosesBehindEnd a) (hstart : k.pc = .start → a = .run t) (hb : Begins s a t k b)
    (hkeeps : Keeps s b k) (h : Outcome b cc t k s') : s'.Ordered := by
  obtain ⟨hclosed, herror⟩ := hb.same
  have hsame : ∀ {P : Prop}, b.closed = true → b.error = none →
      s.closed = true ∧ s.error = none ∨ P :=
    fun hc he ↦ .inl ⟨hclosed.symm.trans hc, herror.symm.trans he⟩
  have hcloser : ∀ {who : Closer}, k.closer = some who → who ≠ .timeout →
      (who = .open → b.cancelReason.isSome = true) → (k.pc = .start → b.closed = false) →
      (who = .ack → b.streamId.isSome = true) → s.EndHanded := by
    intro who hwho hne hopened hopen hsome
    refine hs.closer ht hcond hstart hkeeps hwho hne hopened
      (fun hk ↦ hclosed.symm.trans (hopen hk)) fun hack ↦ ?_
    subst hack
    rw [← hb.streamId fun hcall ↦ ?_]
    · exact hsome rfl
    · have hcall' := Task.closer_call hwho
      rw [hcall] at hcall'
      cases hcall'
  cases h with
  | rests d pc h hpc =>
      refine hs.goto ht (h.keeps hkeeps) (fun hc he ↦ ?_) fun hcloses ↦ ?_
      · exact hsame (h.closed.symm.trans hc) (h.error.symm.trans he)
      · obtain ⟨c, pc'⟩ := k
        cases pc with
        | awaitShielded reason =>
            cases c with
            | cancel =>
                have hcancel : d.cancelReason.isSome = true := hpc
                rw [h.cancelReason] at hcancel
                rcases hkeeps.cancels hcancel with hold | hend
                · exact hs.cancels hold
                · exact hend
            | _ => exact hpc.elim
        | sending => cases c <;> exact hpc.elim
        | _ => cases c <;> cases hcloses
  | event d packets streamId isEos force who h hwho hid hforce hlast =>
      refine hs.goto ht (b := d.record _) ((h.keeps hkeeps).of_same rfl ?_ rfl rfl rfl)
        (fun hc he ↦ hsame (h.closed.symm.trans hc) (h.error.symm.trans he)) fun hcloses ↦ ?_
      · have hlast : isEos = true → d.ending = true ∧ d.frames = [] :=
          fun heos ↦ ⟨hforce (hlast heos).1, (hlast heos).2⟩
        exact (further_hand (t := t) hlast).trans (further_log rfl rfl rfl rfl rfl)
      · obtain ⟨_, _, _, heq, -⟩ := Task.closing_sending hcloses
        cases heq
  | close streamId reason who hwho hopened hopen hid =>
      refine hs.goto ht (b := b.record _)
        (hkeeps.of_same rfl (further_record rfl rfl rfl rfl rfl rfl) rfl rfl rfl) hsame
        fun hcloses ↦ ?_
      obtain ⟨_, _, _, heq, hne⟩ := Task.closing_sending hcloses
      cases heq
      exact hcloser hwho hne hopened hopen fun _ ↦ Option.isSome_of_eq_some hid
  | noClose who hwho hopened hopen hsome =>
      have hend : who ≠ .timeout → s.EndHanded := fun hne ↦ hcloser hwho hne hopened hopen hsome
      have hd : ∀ error, Keeps s (markDone { b with error }) k := fun error ↦
        hkeeps.of_same rfl (further_log rfl rfl rfl rfl rfl) rfl rfl rfl
      have hdone : ∀ {c : Call} {pc : Pc}, pc.done = true →
          Task.closing ⟨c, pc⟩ = true → s.EndHanded := by
        intro c pc hpc hcloses
        rw [closing_of_done hpc] at hcloses
        cases hcloses
      cases who with
      | timeout =>
          exact hs.goto ht (hd (some ackTimeout)) (fun _ he ↦ by cases he) (hdone rfl)
      | «open» => exact hs.goto ht (hd b.error) (fun _ _ ↦ .inr (hend nofun)) (hdone rfl)
      | ack => exact hs.goto ht (hd b.error) (fun _ _ ↦ .inr (hend nofun)) (hdone rfl)
      | cancel => exact hs.goto ht (hd b.error) (fun _ _ ↦ .inr (hend nofun)) (hdone rfl)
  | noStream hwho hopen =>
      have hend : s.EndHanded := hcloser hwho nofun nofun hopen nofun
      refine hs.goto ht (b := b.markDone)
        (hkeeps.of_same rfl (further_log rfl rfl rfl rfl rfl) rfl rfl rfl) (fun _ _ ↦ .inr hend)
        fun _ ↦ hend

/-- **A turn keeps the order.** -/
theorem Turn.ordered (hs : s.Ordered) (hended : s.Ended) (ht : s.tasks[t]? = some k)
    (hcond : s.ClosesBehindEnd a) (h : Turn s cc a t k s') : s'.Ordered := by
  have hsame : s.closed = true → s.error = none → s.closed = true ∧ s.error = none ∨ s.EndHanded :=
    fun hc he ↦ .inl ⟨hc, he⟩
  have hdone : ∀ {c : Call} {pc : Pc}, pc.done = true →
      Task.closing ⟨c, pc⟩ = true → s.EndHanded := by
    intro c pc hpc hcloses
    rw [closing_of_done hpc] at hcloses
    cases hcloses
  have hkeeps : ∀ {entry : Entry}, entry.dataEvent? = none → Keeps s (s.record entry) k :=
    fun h ↦ (Keeps.refl s k).of_same rfl (further_record rfl rfl rfl rfl rfl h) rfl rfl rfl
  have hcloses : ∀ {b : Session ε} {e : PyErr}, b.tasks = s.tasks → Further s b →
      b.cancelReason = s.cancelReason → b.ending = s.ending → b.drained = s.drained →
      Ordered (b.openRaised t e) := fun htasks hfurther hcancel hending hdrained ↦
    hs.goto ht ((Keeps.refl s k).of_same htasks
      (hfurther.trans (further_log rfl rfl rfl rfl rfl)) hcancel hending hdrained)
      (fun _ he ↦ by cases he) (hdone rfl)
  cases h with
  | request hk =>
      refine hs.goto ht (b := s.record _) (hkeeps rfl) hsame fun hcloses ↦ ?_
      obtain ⟨_, _, _, heq, -⟩ := Task.closing_sending hcloses
      cases heq
  | written send hk =>
      refine hs.goto ht (hkeeps rfl) hsame fun hcloses ↦ ?_
      obtain ⟨streamId, reason, who, rfl, hne⟩ := Task.closing_sending hcloses
      exact hs.closing ht hk hne
  | requestSent hk =>
      refine hs.goto ht (.refl s k) hsame fun hcloses ↦ ?_
      cases hc : k.call <;> rw [hc] at hcloses <;> cases hcloses
  | runs b s' hstart hb h =>
      refine h.ordered hs ht hcond hstart hb (hb.keeps fun reason hk hopen ↦ ?_)
      subst hk
      rw [hstart rfl] at hcond
      have hend := hcond _ ht trivial hopen
      exact ⟨(hended hend).1, hend⟩
  | unstarted e => exact hs.goto ht (.refl s k) hsame (hdone rfl)
  | refused status message onOpen e =>
      exact hcloses rfl (further_log rfl rfl rfl rfl rfl) rfl rfl rfl
  | closeSent streamId reason who hk =>
      have hd : ∀ error, Keeps s (markDone { s with closeSent := true, error }) k := fun error ↦
        (Keeps.refl s k).of_same rfl (further_log rfl rfl rfl rfl rfl) rfl rfl rfl
      cases who with
      | timeout =>
          exact hs.goto ht (hd (some ackTimeout)) (fun _ he ↦ by cases he) (hdone rfl)
      | «open» =>
          exact hs.goto ht (hd s.error) (fun _ _ ↦ .inr (hs.closing ht hk nofun)) (hdone rfl)
      | ack =>
          exact hs.goto ht (hd s.error) (fun _ _ ↦ .inr (hs.closing ht hk nofun)) (hdone rfl)
      | cancel =>
          exact hs.goto ht (hd s.error) (fun _ _ ↦ .inr (hs.closing ht hk nofun)) (hdone rfl)
  | openRaised e => exact hcloses rfl (.refl s) rfl rfl rfl
  | requestRaised phase e =>
      exact hcloses (b := s.record _) rfl (hkeeps rfl).further rfl rfl rfl
  | eventRaised packets streamId isEos force who =>
      have hrecord : Keeps s (s.record (.raised (.data packets streamId isEos))).release k :=
        (hkeeps rfl).of_same rfl (further_log rfl rfl rfl rfl rfl) rfl rfl rfl
      cases who with
      | «open» => exact hcloses (b := (s.record _).release) rfl hrecord.further rfl rfl rfl
      | write => exact hs.goto ht hrecord hsame (hdone rfl)
      | finish => exact hs.goto ht hrecord hsame (hdone rfl)
  | closeRaised streamId reason who phase e _ hk =>
      have hrecord : Keeps s (s.record (.raised (.close streamId reason))) k := hkeeps rfl
      have hd : ∀ error, Keeps s
          (markDone { s.record (.raised (.close streamId reason)) with error }) k := fun error ↦
        hrecord.of_same rfl (further_log rfl rfl rfl rfl rfl) rfl rfl rfl
      cases who with
      | «open» => exact hcloses rfl hrecord.further rfl rfl rfl
      | ack => exact hcloses rfl hrecord.further rfl rfl rfl
      | timeout =>
          exact hs.goto ht (hd (some ackTimeout)) (fun _ he ↦ by cases he) (hdone rfl)
      | cancel =>
          exact hs.goto ht (hd s.error) (fun _ _ ↦ .inr (hs.closing ht hk nofun)) (hdone rfl)

/-- A task more. -/
theorem Ordered.create (hs : s.Ordered) {c : Call} (openTask : Option Nat)
    (hagree : ∀ positive pad, c = .finish positive pad → ∀ k ∈ s.tasks, ∀ positive' pad',
      k.call = .finish positive' pad' → pad' = pad) :
    ({ s with tasks := s.tasks ++ [⟨c, .start⟩], openTask } : Session ε).Ordered where
  cancels := hs.cancels
  closed := hs.closed
  closes k hmem hcloses := by
    rcases List.mem_append.mp hmem with hold | hnew
    · exact hs.closes k hold hcloses
    · rw [List.mem_singleton.mp hnew] at hcloses
      cases c <;> cases hcloses
  drains hending := by
    obtain ⟨pad, hpad, k, hmem, hcall⟩ := hs.drains hending
    exact ⟨pad, hpad, k, List.mem_append_left _ hmem, hcall⟩
  agree k hmem k' hmem' positive pad positive' pad' hcall hcall' := by
    rcases List.mem_append.mp hmem with hold | hnew
    · rcases List.mem_append.mp hmem' with hold' | hnew'
      · exact hs.agree k hold k' hold' positive pad positive' pad' hcall hcall'
      · rw [List.mem_singleton.mp hnew'] at hcall'
        exact (hagree positive' pad' hcall' k hold positive pad hcall).symm
    · rw [List.mem_singleton.mp hnew] at hcall
      rcases List.mem_append.mp hmem' with hold' | hnew'
      · exact hagree positive pad hcall k' hold' positive' pad' hcall'
      · rw [List.mem_singleton.mp hnew'] at hcall'
        cases hcall.symm.trans hcall'
        rfl

theorem Ordered.handleClose (hs : s.Ordered) {reason : Int}
    (hcond : closeError reason = none → s.closed = false → s.EndHanded) :
    (s.handleClose reason).Ordered := by
  have hend : s.EndHanded → (s.record (.received reason)).EndHanded :=
    (endHanded_of_events (events_record rfl)).mpr
  rcases s.handleClose_cases reason with ⟨-, heq⟩ | ⟨hopen, heq⟩
  · rw [heq]
    exact ⟨fun h ↦ hend (hs.cancels h), fun hc he ↦ hend (hs.closed hc he),
      fun k hmem hk ↦ hend (hs.closes k hmem hk), hs.drains, hs.agree⟩
  · rw [heq]
    refine ⟨fun h ↦ hend (hs.cancels h), fun _ he ↦ hend (hcond ?_ hopen),
      fun k hmem hk ↦ hend (hs.closes k hmem hk), hs.drains, hs.agree⟩
    exact (Option.or_eq_none_iff.mp he).1

/-- **Every step behind the end of the stream keeps the order.** -/
theorem Proper.ordered (hp : s.Proper) (hs : s.Ordered) (hended : s.Ended)
    (hcond : s.ClosesBehindEnd a) (h : s.step opus cc a = some s') : s'.Ordered := by
  rcases hp.turn_cases h with
    ⟨-, rfl⟩ | ⟨c, rfl, -, rfl⟩ | ⟨reason, rfl, rfl⟩ | ⟨t, k, -, ht, hturn⟩
  · rw [Session.start]
    split
    · exact hs.create _ (by rintro _ _ ⟨⟩)
    · exact hs
  · refine hs.create _ ?_
    rintro positive pad rfl
    exact hcond
  · exact hs.handleClose hcond
  · exact hturn.ordered hs hended ht hcond

/-- Behind the end of the stream a `finish` finds it sent. -/
theorem Ordered.exitsBehindEnd (hs : s.Ordered) (hended : s.Ended) (a : Label) :
    s.ExitsBehindEnd a := by
  cases a with
  | run t =>
      intro positive pad pc ht _ hclosed herror
      have hend := hs.closed hclosed herror
      obtain ⟨pad', hdrained, k, hmem, positive', hcall⟩ := hs.drains (hended hend).1
      have hpad : pad' = pad :=
        hs.agree _ (List.mem_of_getElem? ht) k hmem positive pad positive' pad' rfl hcall
      subst hpad
      refine ⟨hend, ?_⟩
      rintro rfl
      exact .inl hdrained
  | _ => trivial

theorem ordered_new (encoder : ε) : (Session.new encoder).Ordered where
  cancels h := by cases h
  closed h := by cases h
  closes := List.forall_mem_nil _
  drains h := by cases h
  agree := List.forall_mem_nil _

theorem ended_new (encoder : ε) : (Session.new encoder).Ended := by
  rintro ⟨e, hmem, -⟩
  cases hmem

end Steps

end Session

/-! ## Runs -/

/-- The returns of `finish` are right. -/
def FinishHonest {ε : Type} (opus : OpusEncoder ε) (s : Live ε) : Prop :=
  s.session.FinishHonest opus

/-- A `finish` finds the session closed without an error only behind the end of its stream. -/
def ExitsBehindEnd {ε : Type} (s : Live ε) : Event → Prop
  | .session a => s.session.ExitsBehindEnd a
  | .connectionClosed => True

/-- An open session is closed without an error only behind the end of its stream. -/
def ClosesBehindEnd {ε : Type} (s : Live ε) : Event → Prop
  | .session a => s.session.ClosesBehindEnd a
  | .connectionClosed => True

/-- **The returns of `finish` are right throughout a run exactly when its exits come behind the
end of the stream; and they do when nothing closes the session without an error before.** -/
theorem finishHonest_iff {ε : Type} (opus : OpusEncoder ε) (h : List (Live ε × Event))
    (s : Live ε) (hrun : (sessions opus).Run h s) :
    (((∀ p ∈ h, FinishHonest opus p.1) ∧ FinishHonest opus s) ↔
        ∀ p ∈ h, ExitsBehindEnd p.1 p.2) ∧
      ((∀ p ∈ h, ClosesBehindEnd p.1 p.2) → ∀ p ∈ h, ExitsBehindEnd p.1 p.2) := by
  suffices hmain : s.session.Proper ∧ s.session.Ended ∧
      (((∀ p ∈ h, FinishHonest opus p.1) ∧ FinishHonest opus s) ↔
        ∀ p ∈ h, ExitsBehindEnd p.1 p.2) ∧
      ((∀ p ∈ h, ClosesBehindEnd p.1 p.2) →
        s.session.Ordered ∧ ∀ p ∈ h, ExitsBehindEnd p.1 p.2) from
    ⟨hmain.2.2.1, fun hcloses ↦ (hmain.2.2.2 hcloses).2⟩
  induction hrun with
  | @init s hinit =>
      have hinit : s = ⟨.new opus.init, false⟩ := hinit
      subst hinit
      refine ⟨Session.proper_new opus.init, Session.ended_new opus.init, ⟨?_, ?_⟩, ?_⟩
      · exact fun _ ↦ List.forall_mem_nil _
      · exact fun _ ↦ ⟨List.forall_mem_nil _, fun k hmem ↦ by cases hmem⟩
      · exact fun _ ↦ ⟨Session.ordered_new opus.init, List.forall_mem_nil _⟩
  | @step h s s' a hr hstep ih =>
      obtain ⟨hs, hended, hiff, hordered⟩ := ih
      have hacc := accounted opus hr.reachable
      have hacc' := accounted opus (hr.step hstep).reachable
      have hsplit : ∀ P : Live ε × Event → Prop,
          (∀ p ∈ h ++ [(s, a)], P p) ↔ (∀ p ∈ h, P p) ∧ P (s, a) := by
        intro P
        simp [or_imp, forall_and]
      -- what the step leaves, and what it says of the order
      obtain ⟨hs', hended', hhonest, hkeeps⟩ : s'.session.Proper ∧ s'.session.Ended ∧
          (FinishHonest opus s → (FinishHonest opus s' ↔ ExitsBehindEnd s a)) ∧
          (s.session.Ordered → ClosesBehindEnd s a →
            s'.session.Ordered ∧ ExitsBehindEnd s a) := by
        cases a with
        | connectionClosed =>
            cases hstep
            exact ⟨hs, hended, fun hhonest ↦ ⟨fun _ ↦ trivial, fun _ ↦ hhonest⟩,
              fun hord _ ↦ ⟨hord, trivial⟩⟩
        | session a =>
            obtain ⟨session, hsession, rfl⟩ := Option.map_eq_some_iff.mp hstep
            exact ⟨hs.step hsession, (hs.further hsession).ended hended,
              fun hhonest ↦ hs.finishHonest_step hended hacc hacc' hsession hhonest,
              fun hord hcond ↦ ⟨hs.ordered hord hended hcond hsession,
                hord.exitsBehindEnd hended a⟩⟩
      refine ⟨hs', hended', ?_, ?_⟩
      · rw [hsplit, hsplit]
        constructor
        · rintro ⟨⟨hbefore, hhere⟩, hnext⟩
          exact ⟨hiff.mp ⟨hbefore, hhere⟩, (hhonest hhere).mp hnext⟩
        · rintro ⟨hbefore, hlast⟩
          have hhere := (hiff.mpr hbefore).2
          exact ⟨⟨(hiff.mpr hbefore).1, hhere⟩, (hhonest hhere).mpr hlast⟩
      · rw [hsplit, hsplit]
        rintro ⟨hbefore, hlast⟩
        obtain ⟨hord, hexits⟩ := hordered hbefore
        obtain ⟨hord', hexit⟩ := hkeeps hord hlast
        exact ⟨hord', hexits, hexit⟩

/-- The Apple TV closes a stream that was finished, and the `finish` returns. -/
def finishedAndClosed : List Event :=
  finishedOnce ++ [.session (.handleClose 0), .session (.run 2)]

/-- A `finish` that returns behind its stream. -/
theorem finishHonest_iff_finishedAndClosed :
    ∃ s, (sessions .verbatim).exec ⟨.new (), false⟩ finishedAndClosed = some s ∧
      s.session.pc? 2 = some .returned ∧
      (((∀ p ∈ (sessions .verbatim).trace ⟨.new (), false⟩ finishedAndClosed,
          FinishHonest .verbatim p.1) ∧ FinishHonest .verbatim s) ↔
        ∀ p ∈ (sessions .verbatim).trace ⟨.new (), false⟩ finishedAndClosed,
          ExitsBehindEnd p.1 p.2) ∧
      ((∀ p ∈ (sessions .verbatim).trace ⟨.new (), false⟩ finishedAndClosed,
          ClosesBehindEnd p.1 p.2) →
        ∀ p ∈ (sessions .verbatim).trace ⟨.new (), false⟩ finishedAndClosed,
          ExitsBehindEnd p.1 p.2) := by
  have hend : ((sessions .verbatim).exec ⟨.new (), false⟩ finishedAndClosed).map
      (fun s ↦ s.session.pc? 2) = some (some .returned) := by decide
  obtain ⟨s, hs, hreturned⟩ := Option.map_eq_some_iff.mp hend
  have hinit : (sessions .verbatim).Run [] ⟨.new (), false⟩ := .init rfl
  exact ⟨s, hs, hreturned, finishHonest_iff .verbatim _ s (hinit.exec hs)⟩

/-- Three bytes are written to an open stream, the Apple TV closes it with reason `NORMAL`, and
the stream is finished. -/
def closedEarly : List Event :=
  [.session .start, .session (.run 0), .session (.sent 0), .session (.resume 0),
    .session (.response 0 0 [(.text "streamId", .int 7)] none),
    .session (.call (.write [1, 2, 3])), .session (.run 1), .session (.handleClose 0),
    .session (.call (.finish true true)), .session (.run 2)]

/-- The `finish` that returns with nothing sent. -/
theorem not_finishHonest_of_closed :
    ∃ s, (sessions .verbatim).Reachable s ∧ s.session.accepted = [1, 2, 3] ∧
      s.session.tasks[2]? = some ⟨.finish true true, .returned⟩ ∧ s.session.events = [] ∧
      ¬ FinishHonest .verbatim s := by
  have hend : ((sessions .verbatim).exec ⟨.new (), false⟩ closedEarly).map
      (fun s ↦ (s.session.accepted, s.session.tasks[2]?, s.session.events)) =
        some ([1, 2, 3], some ⟨.finish true true, .returned⟩, []) := by decide
  obtain ⟨s, hs, hfound⟩ := Option.map_eq_some_iff.mp hend
  simp only [Prod.mk.injEq] at hfound
  obtain ⟨haccepted, hfinish, hevents⟩ := hfound
  have hinit : (sessions .verbatim).Reachable ⟨.new (), false⟩ := .init rfl
  refine ⟨s, hinit.exec hs, haccepted, hfinish, hevents, fun h ↦ ?_⟩
  rcases h _ (List.mem_of_getElem? hfinish) true true rfl rfl with ⟨-, hdelivered⟩ | ⟨e, he⟩
  · obtain ⟨e, hmem, -⟩ := hdelivered.ends
    rw [hevents] at hmem
    cases hmem
  · cases he

end AtvRemote.Audio
