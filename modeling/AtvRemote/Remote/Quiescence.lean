import AtvRemote.Remote.Shutdown

/-!
# What a stopped controller leaves behind

A controller is quiescent when nothing of its run is left that a later one would meet
(`Quiescent`).  Whether a call of `stop` leaves it so is decided at the step that ends the
call (`Orderly`): the clearing forgets the active session without releasing its lock, and it
is skipped altogether where `stop` raises or returns at once.

The argument is about the lock.  While a session is active its watcher releases the lock;
behind a clearing no watcher does.
-/

namespace AtvRemote.Remote

open Lib Audio

variable {ε T : Type}

namespace AppleTVHomeKitRemote

/-! ## Quiescence -/

/-- Nothing of an earlier run is left that a later one would meet. -/
structure Quiescent (r : AppleTVHomeKitRemote ε T) : Prop where
  siriSessions : r.siriSessions = .empty
  hdsConnections : r.hdsConnections = .empty
  activeClient : r.activeClient = none
  activeSiriSession : r.activeSiriSession = none
  siriLocked : r.siriLocked = false

/-- No call of `start_siri` has the lock. -/
def NoHolder (r : AppleTVHomeKitRemote ε T) : Prop := ∀ k ∈ r.siriCalls, k.pc ≠ .acquired

/-- Nothing is left but a closed session that is still active, with its entry. -/
structure NothingLeft (r : AppleTVHomeKitRemote ε T) : Prop where
  siriSessions : ∀ streamId sid, r.siriSessions.get streamId = some sid →
    r.activeSiriSession = some sid ∧
      (r.sessions[sid]?.bind fun u ↦ u.session.streamId) = some streamId
  hdsConnections : r.hdsConnections = .empty
  activeClient : r.activeClient = none
  closed : ∀ sid u, r.activeSiriSession = some sid → r.sessions[sid]? = some u →
    u.session.closed = true

/-- The lock is free exactly when no session is active and no call has it. -/
theorem SingleUtterance.siriLocked_eq_false {r : AppleTVHomeKitRemote ε T}
    (hr : r.SingleUtterance) :
    r.siriLocked = false ↔ r.activeSiriSession = none ∧ r.NoHolder := by
  constructor
  · intro hfree
    constructor
    · cases hactive : r.activeSiriSession with
      | none => rfl
      | some sid =>
          have hlocked := hr.locked (Option.isSome_of_eq_some hactive)
          rw [hfree] at hlocked
          cases hlocked
    · intro k hk hpc
      obtain ⟨t, ht⟩ := List.getElem?_of_mem hk
      have hlocked := (hr.acquired t k ht hpc).1
      rw [hfree] at hlocked
      cases hlocked
  · rintro ⟨hnone, hno⟩
    by_contra hlocked
    rcases hr.held (eq_true_of_ne_false hlocked) with hsome | ⟨t, k, hk, hpc⟩
    · rw [hnone] at hsome
      cases hsome
    · exact hno k (List.mem_of_getElem? hk) hpc

/-- The watcher of a session takes the entry of its stream away. -/
theorem get_siriSessionEnded {json : JsonText} {r : AppleTVHomeKitRemote ε json.Text} {sid : Nat}
    {u : Utterance ε} {streamId : Int} {sid' : Nat} :
    (r.siriSessionEnded json sid u).siriSessions.get streamId = some sid' ↔
      r.siriSessions.get streamId = some sid' ∧
        ¬(sid' = sid ∧ u.session.streamId = some streamId) := by
  simp only [siriSessionEnded]
  cases u.session.streamId with
  | none => simp
  | some own =>
      simp only [Option.some.injEq]
      split
      · next hown =>
        rw [Dict.get_erase]
        split
        · next heq =>
          subst heq
          simp [hown, eq_comm]
        · next hne => simp [Ne.symm hne]
      · next hown =>
        constructor
        · intro h
          refine ⟨h, ?_⟩
          rintro ⟨rfl, rfl⟩
          exact hown h
        · exact And.left

end AppleTVHomeKitRemote

namespace Lifecycle

open AppleTVHomeKitRemote

/-! ## The remaining watchers -/

section

variable {json : JsonText} {l : Lifecycle ε json.Text}

/-- A session that is not watched, or that is open and whose watcher was not cancelled. -/
theorem runWatcher_idle {sid : Nat} (h : ∀ u, l.remote.sessions[sid]? = some u →
    (u.watched && (u.session.closed || l.cancelledWatchers.contains sid)) = false) :
    l.runWatcher json sid = l := by
  rw [runWatcher]
  split
  · next u hu =>
    rw [h u hu]
    rfl
  · rfl

theorem runWatcher_of_not_watches {sid : Nat} (h : l.remote.watches sid = false) :
    l.runWatcher json sid = l := by
  refine runWatcher_idle fun u hu ↦ ?_
  rw [watches, hu] at h
  have hwatched : u.watched = false := h
  rw [hwatched]
  rfl

theorem runWatchers_idle (hidle : ∀ sid, l.runWatcher json sid = l) : l.runWatchers json = l := by
  rw [runWatchers]
  induction List.range l.remote.sessions.length with
  | nil => rfl
  | cons sid sids ih =>
      rw [List.foldl_cons, hidle]
      exact ih

/-- Only one watcher has something to do. -/
theorem foldl_runWatcher {sid : Nat} (hother : ∀ sid', sid' ≠ sid → l.runWatcher json sid' = l)
    (hdone : ∀ sid', (l.runWatcher json sid).runWatcher json sid' = l.runWatcher json sid)
    {sids : List Nat} (hmem : sid ∈ sids) :
    sids.foldl (runWatcher json) l = l.runWatcher json sid := by
  have hrest : ∀ sids : List Nat,
      sids.foldl (runWatcher json) (l.runWatcher json sid) = l.runWatcher json sid := by
    intro sids
    induction sids with
    | nil => rfl
    | cons sid' sids ih =>
        rw [List.foldl_cons, hdone]
        exact ih
  induction sids with
  | nil => cases hmem
  | cons sid' sids ih =>
      rw [List.foldl_cons]
      rcases eq_or_ne sid' sid with rfl | hne
      · exact hrest sids
      · rw [hother sid' hne]
        exact ih ((List.mem_cons.mp hmem).resolve_left hne.symm)

/-- Without an active session the watchers have nothing to do. -/
theorem Kept.runWatchers_of_none (h : l.Kept) (hnone : l.remote.activeSiriSession = none) :
    l.runWatchers json = l := by
  have hidle : ∀ sid, l.runWatcher json sid = l := by
    intro sid
    have hwatched := h.attended.watched sid
    rw [hnone] at hwatched
    exact runWatcher_of_not_watches (by simpa using hwatched)
  exact runWatchers_idle hidle

/-- An active session that is closed loses its watcher, and the lock is free. -/
theorem Kept.runWatchers_of_closed (h : l.Kept) {sid : Nat} {u : Utterance ε}
    (hactive : l.remote.activeSiriSession = some sid) (hu : l.remote.sessions[sid]? = some u)
    (hclosed : u.session.closed = true) :
    l.runWatchers json = { l with remote := l.remote.siriSessionEnded json sid u } := by
  have hwatched : u.watched = true := by
    have hwatched := (h.attended.watched sid).mp hactive
    rwa [watches, hu] at hwatched
  have hrun : l.runWatcher json sid =
      { l with remote := l.remote.siriSessionEnded json sid u } := by
    simp only [runWatcher, hu, hwatched, hclosed, Bool.true_or, Bool.and_self, if_true]
  have hended : (l.remote.siriSessionEnded json sid u).Attended := h.attended.ended hu
  have hnone : (l.remote.siriSessionEnded json sid u).activeSiriSession = none := if_pos hactive
  rw [runWatchers, foldl_runWatcher ?_ ?_ (List.mem_range.mpr (lt_length_of_getElem? hu)), hrun]
  · intro sid' hne
    apply runWatcher_of_not_watches
    by_contra hwatched
    have hactive' := (h.attended.watched sid').mpr (eq_true_of_ne_false hwatched)
    rw [hactive] at hactive'
    exact hne (Option.some.inj hactive').symm
  · intro sid'
    rw [hrun]
    apply runWatcher_of_not_watches
    have hwatched := hended.watched sid'
    rw [hnone] at hwatched
    simpa using hwatched

/-- The watcher of a session that stays open has nothing to do either. -/
theorem Kept.runWatchers_of_open (h : l.Kept) {sid : Nat} {u : Utterance ε}
    (hactive : l.remote.activeSiriSession = some sid) (hu : l.remote.sessions[sid]? = some u)
    (hopen : u.session.closed = false) : l.runWatchers json = l := by
  have hidle : ∀ sid', l.runWatcher json sid' = l := by
    intro sid'
    rcases eq_or_ne sid' sid with rfl | hne
    · refine runWatcher_idle fun u' hu' ↦ ?_
      rw [hu] at hu'
      cases hu'
      simp [hopen, h.uncancelled]
    · apply runWatcher_of_not_watches
      by_contra hwatched
      have hactive' := (h.attended.watched sid').mpr (eq_true_of_ne_false hwatched)
      rw [hactive] at hactive'
      exact hne (Option.some.inj hactive').symm
  exact runWatchers_idle hidle

/-- A lock that is held while no session is active is not released by a watcher. -/
theorem locked_runWatchers (hlocked : l.remote.siriLocked = true)
    (hnone : l.remote.activeSiriSession = none) :
    (l.runWatchers json).remote.siriLocked = true := by
  have hstep : ∀ (l : Lifecycle ε json.Text) (sid : Nat), l.remote.siriLocked = true →
      l.remote.activeSiriSession = none → (l.runWatcher json sid).remote.siriLocked = true ∧
        (l.runWatcher json sid).remote.activeSiriSession = none := by
    intro l sid hlocked hnone
    rw [runWatcher]
    split
    · split
      · simp [siriSessionEnded, hlocked, hnone]
      · exact ⟨hlocked, hnone⟩
    · exact ⟨hlocked, hnone⟩
  rw [runWatchers]
  induction List.range l.remote.sessions.length generalizing l with
  | nil => exact hlocked
  | cons sid sids ih =>
      obtain ⟨hlocked, hnone⟩ := hstep l sid hlocked hnone
      exact ih hlocked hnone

/-! ## Endings -/

/-- Behind a clearing the controller is quiescent exactly when the lock was free before. -/
theorem Kept.quiescent_clear (h : l.Kept) (t : Nat) (cancelledWatchers : List Nat)
    (hsame : l.remote.activeSiriSession = none → cancelledWatchers = []) :
    ((Lifecycle.clear { l with cancelledWatchers } t).runWatchers json).remote.Quiescent ↔
      l.remote.NoHolder ∧ l.remote.activeSiriSession = none := by
  rw [and_comm, ← h.utterance.siriLocked_eq_false]
  constructor
  · intro hquiet
    by_contra hlocked
    have hstays : (runWatchers json
        (Lifecycle.clear { l with cancelledWatchers } t)).remote.siriLocked = true :=
      locked_runWatchers (eq_true_of_ne_false hlocked) rfl
    rw [hquiet.siriLocked] at hstays
    cases hstays
  · intro hfree
    have hnone := (h.utterance.siriLocked_eq_false.mp hfree).1
    rw [hsame hnone, ← h.uncancelled, (h.clear t hnone).runWatchers_of_none rfl]
    exact ⟨rfl, rfl, rfl, rfl, hfree⟩

/-- Without a clearing it is when nothing was left and no call has the lock. -/
theorem Kept.quiescent_runWatchers (h : l.Kept) :
    (l.runWatchers json).remote.Quiescent ↔ l.remote.NoHolder ∧ l.remote.NothingLeft := by
  cases hactive : l.remote.activeSiriSession with
  | none =>
      have hinactive : ∀ sid, l.remote.activeSiriSession ≠ some sid := by
        rw [hactive]
        nofun
      rw [h.runWatchers_of_none hactive]
      constructor
      · intro hquiet
        obtain ⟨-, hno⟩ := h.utterance.siriLocked_eq_false.mp hquiet.siriLocked
        refine ⟨hno, fun streamId sid hget ↦ ?_, hquiet.hdsConnections, hquiet.activeClient,
          fun sid _ hsid ↦ (hinactive sid hsid).elim⟩
        rw [hquiet.siriSessions] at hget
        cases hget
      · rintro ⟨hno, hleft⟩
        refine ⟨Dict.eq_empty_iff.mpr fun streamId ↦ ?_, hleft.hdsConnections,
          hleft.activeClient, hactive, h.utterance.siriLocked_eq_false.mpr ⟨hactive, hno⟩⟩
        cases hget : l.remote.siriSessions.get streamId with
        | none => rfl
        | some sid => exact (hinactive sid (hleft.siriSessions streamId sid hget).1).elim
  | some sid =>
      have hno : l.remote.NoHolder := by
        intro k hk hpc
        obtain ⟨t, ht⟩ := List.getElem?_of_mem hk
        have hnone := (h.utterance.acquired t k ht hpc).2.1
        rw [hactive] at hnone
        cases hnone
      obtain ⟨u, hu⟩ : ∃ u, l.remote.sessions[sid]? = some u := by
        have hwatched := (h.attended.watched sid).mp hactive
        cases hu : l.remote.sessions[sid]? with
        | some u => exact ⟨u, rfl⟩
        | none =>
            rw [watches, hu] at hwatched
            cases hwatched
      cases hclosed : u.session.closed with
      | false =>
          rw [h.runWatchers_of_open hactive hu hclosed]
          constructor
          · intro hquiet
            rw [hquiet.activeSiriSession] at hactive
            cases hactive
          · rintro ⟨-, hleft⟩
            rw [hleft.closed sid u hactive hu] at hclosed
            cases hclosed
      | true =>
          rw [h.runWatchers_of_closed hactive hu hclosed]
          constructor
          · intro hquiet
            refine ⟨hno, fun streamId sid' hget ↦ ?_, hquiet.hdsConnections,
              hquiet.activeClient, fun sid' u' hsid' hu' ↦ ?_⟩
            · -- the entry that the watcher has not left is that of its session
              have hgone := Dict.eq_empty_iff.mp hquiet.siriSessions streamId
              by_contra hother
              have hkept : (l.remote.siriSessionEnded json sid u).siriSessions.get streamId =
                  some sid' := by
                refine get_siriSessionEnded.mpr ⟨hget, ?_⟩
                rintro ⟨rfl, hid⟩
                exact hother ⟨hactive, by rw [hu]; exact hid⟩
              rw [hgone] at hkept
              cases hkept
            · rw [hactive] at hsid'
              cases hsid'
              rw [hu] at hu'
              cases hu'
              exact hclosed
          · rintro ⟨-, hleft⟩
            refine ⟨Dict.eq_empty_iff.mpr fun streamId ↦ ?_, hleft.hdsConnections,
              hleft.activeClient, if_pos hactive, if_pos hactive⟩
            cases hget : (l.remote.siriSessionEnded json sid u).siriSessions.get streamId with
            | none => rfl
            | some sid' =>
                obtain ⟨hget, hother⟩ := get_siriSessionEnded.mp hget
                obtain ⟨hsid', hid⟩ := hleft.siriSessions streamId sid' hget
                rw [hactive] at hsid'
                cases hsid'
                rw [hu] at hid
                exact (hother ⟨rfl, hid⟩).elim

end

/-- The call of `stop` that a step runs. -/
def Label.stopCall : Label → Option Nat
  | .enterStop t | .resumeStop t | .failStop t _ => some t
  | _ => none

/-- The call of `stop` has ended. -/
def Ended (l : Lifecycle ε T) (t : Nat) : Prop :=
  ∃ pc, l.stops[t]? = some pc ∧ pc.ended = true

/-- The step ends a call of `stop`. -/
def EndsStop (a : Label) (l' : Lifecycle ε T) : Prop := ∃ t, a.stopCall = some t ∧ l'.Ended t

/-- What a call of `stop` that ends at the step passes over has nothing to do: the clearing,
where the call returns at once or raises, and the release of the lock by the watcher, where it
does not wait for it any longer. -/
def SkipsNothing (l : Lifecycle ε T) : Label → Prop
  | .enterStop _ => l.started = false ∧ l.listening = false → l.remote.NothingLeft
  | .resumeStop t => match l.stops[t]? with
      | some (.watching _) => l.remote.activeSiriSession = none
      | _ => True
  | .failStop t _ => match l.stops[t]? with
      | some (.watching _) => l.remote.activeSiriSession = none
      | _ => l.remote.NothingLeft
  | _ => True

section

variable {l : Lifecycle ε T} {t : Nat}

theorem ended_gotoStop {pc : StopPc} (h : (l.gotoStop t pc).Ended t) : pc.ended = true := by
  obtain ⟨pc', hpc', hended⟩ := h
  rw [gotoStop, List.getElem?_set_self'] at hpc'
  obtain ⟨_, _, rfl⟩ := Option.map_eq_some_iff.mp hpc'
  exact hended

theorem ended_clear (h : t < l.stops.length) : (l.clear t).Ended t :=
  ⟨.returned, List.getElem?_set_self h, rfl⟩

/-- `HDSServer.stop` does not touch the calls of `start_siri`. -/
theorem siriCalls_stopServer : l.stopServer.2.remote.siriCalls = l.remote.siriCalls := by
  have hsweep := l.remote.sheds_closeAll.siriCalls
  simp only [stopServer, drainServer]
  split
  · exact hsweep
  · split <;> exact hsweep

theorem siriCalls_resumeServer (phase : ServerPhase) :
    (l.resumeServer phase).2.remote.siriCalls = l.remote.siriCalls := by
  cases phase with
  | draining => rfl
  | closing connections =>
      simp only [resumeServer, drainServer]
      split <;> rfl

end

section

variable {json : JsonText} {opus : OpusEncoder ε} {l l' : Lifecycle ε json.Text} {t : Nat}

theorem Kept.quiescent_driverStopped (h : l.Kept) (hends : (l.driverStopped t).Ended t) :
    ((l.driverStopped t).runWatchers json).remote.Quiescent ↔ l.remote.NoHolder := by
  have hflag : Kept { l with started := false } := ⟨h.1, h.2, h.3⟩
  rcases h.driverStopped_cases t with ⟨sid, heq⟩ | ⟨hnone, heq⟩
  · rw [heq] at hends
    cases ended_gotoStop hends
  · rw [heq]
    exact (hflag.quiescent_clear t _ fun _ ↦ h.uncancelled).trans (and_iff_left hnone)

theorem Kept.quiescent_serverStopped {x : Option ServerPhase × Lifecycle ε json.Text}
    (h : x.2.Kept) (hends : (Lifecycle.serverStopped t x).Ended t) :
    ((Lifecycle.serverStopped t x).runWatchers json).remote.Quiescent ↔ x.2.remote.NoHolder := by
  obtain ⟨_ | phase, l⟩ := x
  · simp only [Lifecycle.serverStopped] at hends ⊢
    split at hends
    · cases ended_gotoStop hends
    · next hdriver =>
      rw [if_neg hdriver]
      exact h.quiescent_driverStopped hends
  · cases ended_gotoStop hends

theorem Kept.quiescent_stopServer (h : l.Kept) (opus : OpusEncoder ε)
    (hends : (Lifecycle.serverStopped t l.stopServer).Ended t) :
    ((Lifecycle.serverStopped t l.stopServer).runWatchers json).remote.Quiescent ↔
      l.remote.NoHolder := by
  rw [(h.stopServer opus).quiescent_serverStopped hends, NoHolder, siriCalls_stopServer]
  rfl

theorem Kept.quiescent_cancelled (h : l.Kept) (opus : OpusEncoder ε) {sid task : Nat}
    (hends : (l.cancelled t sid task).Ended t) :
    ((l.cancelled t sid task).runWatchers json).remote.Quiescent ↔ l.remote.NoHolder := by
  rw [Lifecycle.cancelled] at hends ⊢
  split at hends
  · next hdone =>
    rw [if_pos hdone]
    exact h.quiescent_stopServer opus hends
  · cases ended_gotoStop hends

theorem Kept.quiescent_enterStop (h : l.Kept) (hends : (l.enterStop opus t).Ended t) :
    ((l.enterStop opus t).runWatchers json).remote.Quiescent ↔
      l.remote.NoHolder ∧ l.SkipsNothing (.enterStop t) := by
  rcases l.enterStop_cases opus t with ⟨hstarted, hlistening, heq⟩ | ⟨hbusy, heq⟩
  · have hstay : (l.gotoStop t .returned).Kept := ⟨h.1, h.2, h.3⟩
    rw [heq, hstay.quiescent_runWatchers, SkipsNothing, forall_prop_of_true ⟨hstarted, hlistening⟩]
    rfl
  · have hskips : l.SkipsNothing (.enterStop t) := fun hidle ↦ (hbusy hidle).elim
    rw [and_iff_left hskips]
    rcases heq with heq | ⟨sid, u, hu, heq⟩
    · rw [heq] at hends ⊢
      exact h.quiescent_stopServer opus hends
    · rw [heq] at hends ⊢
      exact (h.beginCancel opus hu).quiescent_cancelled opus hends

theorem Kept.quiescent_resumeStop (h : l.Kept) (opus : OpusEncoder ε) {pc : StopPc}
    (hpc : l.stops[t]? = some pc) (hstep : l.resumeStop t pc = some l') (hends : l'.Ended t) :
    (l'.runWatchers json).remote.Quiescent ↔
      l.remote.NoHolder ∧ l.SkipsNothing (.resumeStop t) := by
  rw [SkipsNothing, hpc]
  cases pc with
  | cancelling sid task =>
      simp only [Lifecycle.resumeStop] at hstep
      split at hstep
      · cases hstep
        exact (h.quiescent_stopServer opus hends).trans (and_iff_left trivial).symm
      · cases hstep
  | stoppingServer phase =>
      cases hstep
      rw [(h.resumeServer phase).quiescent_serverStopped hends, NoHolder, siriCalls_resumeServer]
      exact (and_iff_left trivial).symm
  | stoppingDriver =>
      cases hstep
      exact (h.quiescent_driverStopped hends).trans (and_iff_left trivial).symm
  | watching sid =>
      simp only [Lifecycle.resumeStop] at hstep
      split at hstep
      · cases hstep
      · cases hstep
        exact h.quiescent_clear t _ fun _ ↦ h.uncancelled
  | called | returned | raised => cases hstep

theorem Kept.quiescent_failStop (h : l.Kept) {e : PyErr} {pc : StopPc}
    (hpc : l.stops[t]? = some pc) (hstep : l.failStop t e pc = some l') :
    (l'.runWatchers json).remote.Quiescent ↔
      l.remote.NoHolder ∧ l.SkipsNothing (.failStop t e) := by
  rw [SkipsNothing, hpc]
  cases pc with
  | stoppingServer phase =>
      cases hstep
      have hstay : (l.gotoStop t (.raised e)).Kept := ⟨h.1, h.2, h.3⟩
      exact hstay.quiescent_runWatchers
  | stoppingDriver =>
      cases hstep
      have hstay : (gotoStop { l with started := false } t (.raised e)).Kept := ⟨h.1, h.2, h.3⟩
      exact hstay.quiescent_runWatchers
  | watching sid =>
      simp only [Lifecycle.failStop] at hstep
      split at hstep
      · cases hstep
        refine h.quiescent_clear t _ fun hnone ↦ ?_
        rw [if_neg, h.uncancelled]
        rw [← h.attended.watched, hnone]
        nofun
      · cases hstep
  | called | cancelling | returned | raised => cases hstep

end

/-! ## Steps -/

section

variable (json : JsonText) (opus : OpusEncoder ε) (l : Lifecycle ε json.Text) (a : Label)

/-- If the step ends a call of `stop`, the controller is quiescent once the remaining watchers
have run. -/
def Clean : Prop := ∀ l', l.step json opus a = some l' → EndsStop a l' →
  (l'.runWatchers json).remote.Quiescent

/-- If the step ends a call of `stop`, no call of `start_siri` has the lock before it, and
nothing is skipped that has something to do. -/
def Orderly : Prop := ∀ l', l.step json opus a = some l' → EndsStop a l' →
  l.remote.NoHolder ∧ l.SkipsNothing a

end

section

variable {json : JsonText} {opus : OpusEncoder ε} {l l' : Lifecycle ε json.Text} {a : Label}

/-- **A call of `stop` leaves a quiescent controller exactly when it ends in order.** -/
theorem Kept.quiescent_step (h : l.Kept) (hstep : l.step json opus a = some l')
    (hends : EndsStop a l') : (l'.runWatchers json).remote.Quiescent ↔
      l.remote.NoHolder ∧ l.SkipsNothing a := by
  obtain ⟨t, ht, hends⟩ := hends
  cases a with
  | enterStop t =>
      cases ht
      simp only [Lifecycle.step] at hstep
      split at hstep
      · cases hstep
        exact h.quiescent_enterStop hends
      · cases hstep
  | resumeStop t =>
      cases ht
      obtain ⟨pc, hpc, hresume⟩ := Option.bind_eq_some_iff.mp hstep
      exact h.quiescent_resumeStop opus hpc hresume hends
  | failStop t e =>
      cases ht
      obtain ⟨pc, hpc, hfail⟩ := Option.bind_eq_some_iff.mp hstep
      exact h.quiescent_failStop hpc hfail
  | _ => cases ht

theorem Kept.clean_iff (h : l.Kept) (a : Label) : l.Clean json opus a ↔ l.Orderly json opus a :=
  forall_congr' fun _ ↦ forall_congr' fun hstep ↦ forall_congr' fun hends ↦
    h.quiescent_step hstep hends

/-- Next to the calls only the controller changes. -/
theorem step_remote {a : AppleTVHomeKitRemote.Label}
    (hstep : l.step json opus (.remote a) = some l') :
    ∃ remote, l.remote.step json opus a = some remote ∧ l' = { l with remote } := by
  cases a with
  | start => cases hstep
  | _ =>
      simp only [Lifecycle.step] at hstep
      obtain ⟨remote, hremote, rfl⟩ := Option.map_eq_some_iff.mp hstep
      exact ⟨remote, hremote, rfl⟩

theorem Kept.resumeStop (h : l.Kept) (opus : OpusEncoder ε) {t : Nat} {pc : StopPc}
    (hpc : l.stops[t]? = some pc) (hstep : l.resumeStop t pc = some l')
    (hskips : l'.Ended t → l.SkipsNothing (.resumeStop t)) : l'.Kept := by
  rw [SkipsNothing, hpc] at hskips
  cases pc with
  | cancelling sid task =>
      simp only [Lifecycle.resumeStop] at hstep
      split at hstep
      · cases hstep
        exact (h.stopServer opus).serverStopped t
      · cases hstep
  | stoppingServer phase =>
      cases hstep
      exact (h.resumeServer phase).serverStopped t
  | stoppingDriver =>
      cases hstep
      exact h.driverStopped t
  | watching sid =>
      simp only [Lifecycle.resumeStop] at hstep
      split at hstep
      · cases hstep
      · cases hstep
        exact h.clear t (hskips (ended_clear (lt_length_of_getElem? hpc)))
  | called | returned | raised => cases hstep

theorem Kept.failStop (h : l.Kept) {t : Nat} {e : PyErr} {pc : StopPc}
    (hpc : l.stops[t]? = some pc) (hstep : l.failStop t e pc = some l')
    (hskips : l'.Ended t → l.SkipsNothing (.failStop t e)) : l'.Kept := by
  rw [SkipsNothing, hpc] at hskips
  cases pc with
  | stoppingServer | stoppingDriver =>
      cases hstep
      exact ⟨h.1, h.2, h.3⟩
  | watching sid =>
      simp only [Lifecycle.failStop] at hstep
      split at hstep
      · cases hstep
        have hnone := hskips (ended_clear (lt_length_of_getElem? hpc))
        rw [if_neg]
        · exact h.clear t hnone
        · -- the watcher that is given up is done
          rw [← h.attended.watched, hnone]
          nofun
      · cases hstep
  | called | cancelling | returned | raised => cases hstep

theorem Kept.step (h : l.Kept) (hok : l.Orderly json opus a)
    (hstep : l.step json opus a = some l') : l'.Kept := by
  cases a with
  | start | stop =>
      cases hstep
      exact ⟨h.1, h.2, h.3⟩
  | enterStart t =>
      simp only [Lifecycle.step] at hstep
      split at hstep
      · cases hstep
        exact h.enterStart t
      · cases hstep
  | enterStop t =>
      simp only [Lifecycle.step] at hstep
      split at hstep
      · cases hstep
        exact h.enterStop opus t
      · cases hstep
  | resumeStart t =>
      obtain ⟨pc, -, hresume⟩ := Option.bind_eq_some_iff.mp hstep
      exact h.resumeStart hresume
  | resumeStop t =>
      obtain ⟨pc, hpc, hresume⟩ := Option.bind_eq_some_iff.mp hstep
      exact h.resumeStop opus hpc hresume fun hends ↦ (hok l' hstep ⟨t, rfl, hends⟩).2
  | failStart t e =>
      obtain ⟨pc, -, hfail⟩ := Option.bind_eq_some_iff.mp hstep
      exact h.failStart opus hfail
  | failStop t e =>
      obtain ⟨pc, hpc, hfail⟩ := Option.bind_eq_some_iff.mp hstep
      exact h.failStop hpc hfail fun hends ↦ (hok l' hstep ⟨t, rfl, hends⟩).2
  | remote a =>
      obtain ⟨remote, hremote, rfl⟩ := step_remote hstep
      exact h.setRemote (h.utterance.step hremote) (h.attended.step h.utterance hremote)
  | watchCancelled sid =>
      simp only [Lifecycle.step, h.uncancelled] at hstep
      split at hstep
      · simp at hstep
      · cases hstep

end

/-- A new controller has nothing to keep. -/
theorem kept_new {ε : Type} (json : JsonText) (file : Option json.Text) :
    (Lifecycle.new json file : Lifecycle ε json.Text).Kept where
  utterance := singleUtterance_new file
  attended := ⟨rfl, fun _ ↦ ⟨nofun, nofun⟩⟩
  uncancelled := rfl

end Lifecycle

open AppleTVHomeKitRemote Lifecycle

/-! ## Runs -/

/-- **Every call of `stop` of a run leaves a quiescent controller exactly when all of them end
in order.** -/
theorem quiescent_iff_orderly {ε : Type} (json : JsonText) (opus : OpusEncoder ε)
    (file : Option json.Text) (h : List (Lifecycle ε json.Text × Lifecycle.Label))
    (l : Lifecycle ε json.Text) (hrun : (lifecycles json opus file).Run h l) :
    (∀ p ∈ h, p.1.Clean json opus p.2) ↔ ∀ p ∈ h, p.1.Orderly json opus p.2 := by
  suffices hmain : ((∀ p ∈ h, p.1.Orderly json opus p.2) → l.Kept) ∧
      ((∀ p ∈ h, p.1.Clean json opus p.2) ↔ ∀ p ∈ h, p.1.Orderly json opus p.2) from hmain.2
  induction hrun with
  | @init l hinit =>
      have hinit : l = .new json file := hinit
      subst hinit
      exact ⟨fun _ ↦ kept_new json file, fun _ ↦ List.forall_mem_nil _,
        fun _ ↦ List.forall_mem_nil _⟩
  | @step h l l' a hrun hstep ih =>
      obtain ⟨hkept, hiff⟩ := ih
      have hstep : l.step json opus a = some l' := hstep
      simp only [List.mem_append, List.mem_singleton, or_imp, forall_and, forall_eq]
      refine ⟨fun ⟨hbefore, ha⟩ ↦ (hkept hbefore).step ha hstep, ?_, ?_⟩
      · rintro ⟨hbefore, ha⟩
        have horderly := hiff.mp hbefore
        exact ⟨horderly, ((hkept horderly).clean_iff a).mp ha⟩
      · rintro ⟨hbefore, ha⟩
        exact ⟨hiff.mpr hbefore, ((hkept hbefore).clean_iff a).mpr ha⟩

/-- A controller is started and paired, and an utterance is made. -/
def uttering : List Lifecycle.Label :=
  [.start, .enterStart 0, .resumeStart 0, .resumeStart 0,
    .remote (.targetListWrite (.ofString "AQECAgYBBAEAAAA=") (some ⟨"hub", 1⟩) true),
    .remote (.accept ⟨"hub", 1⟩), .remote (.whoami 0 1),
    .remote (.activeWrite (.int 1) (some ⟨"hub", 1⟩)),
    .remote (.startSiri none true), .remote (.enterSiri 0), .remote (.runSiri 0 none)]

/-- It is stopped, up to `driver.async_stop()`. -/
def stopping : List Lifecycle.Label :=
  uttering ++ [.stop, .enterStop 0, .remote (.session 0 (.timeout 1)), .resumeStop 0,
    .resumeStop 0, .resumeStop 0]

/-- A controller that is stopped in the middle of an utterance. -/
theorem quiescent_iff_orderly_stopped :
    ∃ l, (lifecycles .documents .verbatim none).exec (.new .documents none)
        (stopping ++ [.resumeStop 0, .remote (.watch 0), .resumeStop 0]) = some l ∧
      l.stops = [.returned] ∧
      ((∀ p ∈ (lifecycles .documents .verbatim none).trace (.new .documents none)
          (stopping ++ [.resumeStop 0, .remote (.watch 0), .resumeStop 0]),
          p.1.Clean .documents .verbatim p.2) ↔
        ∀ p ∈ (lifecycles .documents .verbatim none).trace (.new .documents none)
          (stopping ++ [.resumeStop 0, .remote (.watch 0), .resumeStop 0]),
          p.1.Orderly .documents .verbatim p.2) := by
  have hstops : ((lifecycles .documents .verbatim none).exec (.new .documents none)
      (stopping ++ [.resumeStop 0, .remote (.watch 0), .resumeStop 0])).map Lifecycle.stops =
        some [.returned] := by
    decide +kernel
  obtain ⟨l, hl, hstops⟩ := Option.map_eq_some_iff.mp hstops
  have hinit : (lifecycles .documents .verbatim none).Run [] (.new .documents none) := .init rfl
  exact ⟨l, hl, hstops, quiescent_iff_orderly .documents .verbatim none _ l (hinit.exec hl)⟩

/-- Where `driver.async_stop()` raises, the client stays active. -/
theorem not_quiescent_of_ended :
    ∃ l l', (lifecycles .documents .verbatim none).Reachable l ∧
      l.step .documents .verbatim (.failStop 0 .osError) = some l' ∧
      l'.stops = [.raised .osError] ∧ ¬ (l'.runWatchers .documents).remote.Quiescent := by
  have hinit : (lifecycles .documents .verbatim none).Reachable (.new .documents none) := .init rfl
  have hfound : (((lifecycles .documents .verbatim none).exec (.new .documents none)
      stopping).bind fun l ↦ (l.step .documents .verbatim (.failStop 0 .osError)).map fun l' ↦
        (l'.stops, (l'.runWatchers .documents).remote.activeClient)) =
      some ([.raised .osError], some ⟨"hub", 1⟩) := by
    decide +kernel
  obtain ⟨l, hl, hfound⟩ := Option.bind_eq_some_iff.mp hfound
  obtain ⟨l', hl', hfound⟩ := Option.map_eq_some_iff.mp hfound
  obtain ⟨hstops, hclient⟩ := Prod.mk.inj hfound
  refine ⟨l, l', hinit.exec hl, hl', hstops, fun hquiet ↦ ?_⟩
  rw [hquiet.activeClient] at hclient
  cases hclient

end AtvRemote.Remote
