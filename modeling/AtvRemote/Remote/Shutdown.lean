import AtvRemote.Remote.Lifecycle
import AtvRemote.Remote.Sessions

/-!
# What the calls of `stop` keep

As long as every call of `stop` ended in order the session that is watched is the active one
(`Attended`), so that its watcher will release the lock, and no watcher was cancelled (`Kept`).
There is one lemma for each stretch of `start`, of `stop` and of `HDSServer.stop` between two
suspensions; only the clearing at the end of `stop` asks for something, that no session is
active any more.
-/

namespace AtvRemote.Remote

open Lib Audio

variable {ε T : Type}

namespace AppleTVHomeKitRemote

/-! ## Watchers -/

/-- The active session is the one that `_siri_watch_task` watches, and the only one whose
watcher is not done. -/
structure Attended (r : AppleTVHomeKitRemote ε T) : Prop where
  task : r.siriWatchTask = r.activeSiriSession
  watched : ∀ sid, r.activeSiriSession = some sid ↔ r.watches sid = true

theorem watches_of_map {r r' : AppleTVHomeKitRemote ε T}
    (h : r'.sessions.map Utterance.watched = r.sessions.map Utterance.watched) (sid : Nat) :
    r'.watches sid = r.watches sid := by
  rw [watches, watches, ← List.getElem?_map, h, List.getElem?_map]

theorem watches_of_sessions {r r' : AppleTVHomeKitRemote ε T} {sid : Nat}
    (h : r'.sessions[sid]? = r.sessions[sid]?) : r'.watches sid = r.watches sid := by
  rw [watches, watches, h]

section

variable {json : JsonText} {opus : OpusEncoder ε} {r r' : AppleTVHomeKitRemote ε json.Text}

theorem GoesOn.watches {r r' : AppleTVHomeKitRemote ε T} (h : GoesOn opus r r') (sid : Nat) :
    r'.watches sid = r.watches sid := by
  induction h with
  | rest h => exact watches_of_map (congrArg _ h.sessions) sid
  | session r sid' hf =>
      apply watches_of_map
      apply List.ext_getElem?
      intro i
      simp only [onSession, List.getElem?_map, List.getElem?_modify]
      cases r.sessions[i]? with
      | none => rfl
      | some u => split <;> rfl
  | drop => rfl
  | trans _ _ ih ih' => exact ih'.trans ih

theorem GoesOn.attended {r r' : AppleTVHomeKitRemote ε T} (h : GoesOn opus r r')
    (hr : r.Attended) : r'.Attended where
  task := by
    rw [h.siriWatchTask, hr.task, h.activeSiriSession]
  watched sid := by
    rw [h.activeSiriSession, h.watches]
    exact hr.watched sid

theorem watches_siriSessionEnded {r : AppleTVHomeKitRemote ε json.Text} {sid : Nat}
    {u : Utterance ε} (hu : r.sessions[sid]? = some u) (sid' : Nat) :
    (r.siriSessionEnded json sid u).watches sid' = (r.watches sid' && sid' != sid) := by
  rcases eq_or_ne sid' sid with rfl | hne
  · simp [watches, siriSessionEnded, hu]
  · rw [watches_of_sessions (List.getElem?_modify_ne _ _ hne.symm)]
    simp [hne]

theorem Attended.ended (hr : r.Attended) {sid : Nat} {u : Utterance ε}
    (hu : r.sessions[sid]? = some u) : (r.siriSessionEnded json sid u).Attended := by
  constructor
  · simp only [siriSessionEnded]
    rw [hr.task]
  · intro sid'
    rw [watches_siriSessionEnded hu, Bool.and_eq_true, ← hr.watched, bne_iff_ne]
    simp only [siriSessionEnded]
    split
    · next hactive =>
      rw [hactive]
      simp only [reduceCtorEq, Option.some.injEq, false_iff, not_and, not_not]
      exact Eq.symm
    · next hactive =>
      refine ⟨fun hsid' ↦ ⟨hsid', ?_⟩, And.left⟩
      rintro rfl
      exact hactive hsid'

theorem Attended.step (hr : r.Attended) (hlock : r.SingleUtterance) {a : Label}
    (h : r.step json opus a = some r') : r'.Attended := by
  cases siriTurn_step h with
  | goesOn r' h => exact h.attended hr
  | registers r' sid t status message streamId ha hid hfree h =>
      refine (goesOn_stepSession h).attended ⟨hr.task, ?_⟩
      exact hr.watched
  | calls r' hsessions hstreams hactive hwatch =>
      refine ⟨by rw [hwatch, hr.task, hactive], fun sid ↦ ?_⟩
      rw [watches_of_map (congrArg _ hsessions), hactive]
      exact hr.watched sid
  | fails t k e b hk hpc hb =>
      obtain ⟨htask, hwatched⟩ := hb.attended hr
      exact ⟨htask, hwatched⟩
  | starts t k b c hk hpc hb =>
      -- no session was watched before
      have hnone : b.activeSiriSession = none :=
        hb.activeSiriSession.trans (hlock.acquired t k hk hpc).2.1
      refine ⟨rfl, fun sid ↦ ?_⟩
      have hidle : b.watches sid = false := by
        have hwatched := (hb.attended hr).watched sid
        rw [hnone] at hwatched
        simpa using hwatched
      rw [watches] at hidle
      simp only [gotoSiri, watches, Option.some.injEq]
      rcases Nat.lt_trichotomy sid b.sessions.length with hlt | rfl | hgt
      · rw [List.getElem?_append_left hlt, hidle]
        simp only [reduceCtorEq, iff_false]
        exact (Nat.ne_of_lt hlt).symm
      · simp
      · rw [List.getElem?_eq_none (by rw [List.length_append]; exact hgt)]
        simp only [Option.map_none, Option.getD_none, reduceCtorEq, iff_false]
        exact Nat.ne_of_lt hgt
  | ends sid u ha hu hclosed => exact hr.ended hu

end

end AppleTVHomeKitRemote

namespace Lifecycle

open AppleTVHomeKitRemote

/-! ## What is kept -/

/-- What holds between the steps of a run in which every call of `stop` ended in order. -/
structure Kept (l : Lifecycle ε T) : Prop where
  utterance : l.remote.SingleUtterance
  attended : l.remote.Attended
  uncancelled : l.cancelledWatchers = []

section

variable {l : Lifecycle ε T}

/-- Only the controller changes. -/
theorem Kept.setRemote (h : l.Kept) {remote : AppleTVHomeKitRemote ε T}
    (hlock : remote.SingleUtterance) (hwatch : remote.Attended) : Kept { l with remote } :=
  ⟨hlock, hwatch, h.uncancelled⟩

/-- The controller sheds, and its sessions go on. -/
theorem Kept.sheds (h : l.Kept) {opus : OpusEncoder ε} {remote : AppleTVHomeKitRemote ε T}
    (hsheds : Sheds l.remote remote) (hgo : GoesOn opus l.remote remote) :
    Kept { l with remote } :=
  h.setRemote (h.utterance.sheds hsheds) (hgo.attended h.attended)

/-- A field of the controller that has nothing to do with Siri changes. -/
theorem Kept.sameSiri (h : l.Kept) {remote : AppleTVHomeKitRemote ε T}
    (hsame : SameSiri l.remote remote) (hclosed : remote.connections = l.remote.connections) :
    Kept { l with remote } := by
  refine h.setRemote (h.utterance.of_frame hsame.activeSiriSession hsame.siriLocked
    hsame.siriCalls fun sid u hu hopen ↦ ⟨u, hsame.sessions ▸ hu, hopen, fun _ hc ↦ ?_⟩) ?_
  · rw [isClosed, hclosed]
    exact hc
  · constructor
    · rw [hsame.siriWatchTask, hsame.activeSiriSession]
      exact h.attended.task
    · intro sid
      rw [hsame.activeSiriSession, watches_of_map (congrArg _ hsame.sessions)]
      exact h.attended.watched sid

/-! ### `HDSServer.stop` -/

theorem Kept.clearServer (h : l.Kept) : l.clearServer.Kept :=
  h.sameSiri ⟨rfl, rfl, rfl, rfl, rfl, rfl⟩ rfl

theorem Kept.drainServer (h : l.Kept) (connections : List Nat) :
    (l.drainServer connections).2.Kept := by
  rw [Lifecycle.drainServer]
  split
  · exact h.clearServer
  · exact h

theorem Kept.stopServer (h : l.Kept) (opus : OpusEncoder ε) : l.stopServer.2.Kept := by
  have hgo : GoesOn opus l.remote l.remote.closeAll := (l.remote.moves_closings _).goesOn
  have hswept := h.sheds l.remote.sheds_closeAll hgo
  simp only [Lifecycle.stopServer]
  split
  · exact hswept
  · exact hswept.drainServer _

theorem Kept.resumeServer (h : l.Kept) (phase : ServerPhase) : (l.resumeServer phase).2.Kept := by
  cases phase with
  | closing connections =>
      have hclosed : Kept { l with listening := false } := ⟨h.1, h.2, h.3⟩
      exact hclosed.drainServer connections
  | draining => exact h.clearServer

/-! ### `start` -/

theorem Kept.undo {x : Option ServerPhase × Lifecycle ε T} (h : x.2.Kept) (t : Nat) (e : PyErr) :
    (Lifecycle.undo t e x).Kept := by
  obtain ⟨_ | phase, l⟩ := x
  · exact ⟨h.1, h.2, h.3⟩
  · exact ⟨h.1, h.2, h.3⟩

theorem Kept.enterStart (h : l.Kept) (t : Nat) : (l.enterStart t).Kept := by
  have haccessory : ∀ accessory, Kept { l with remote := { l.remote with accessory } } :=
    fun _ ↦ h.sameSiri ⟨rfl, rfl, rfl, rfl, rfl, rfl⟩ rfl
  simp only [Lifecycle.enterStart]
  split
  · exact ⟨h.1, h.2, h.3⟩
  · obtain ⟨hlock, hwatch, hcancelled⟩ := haccessory (l.remote.accessory.or (some ⟨0, 0⟩))
    split <;> exact ⟨hlock, hwatch, hcancelled⟩

theorem Kept.resumeStart (h : l.Kept) {l' : Lifecycle ε T} {t : Nat} {pc : StartPc}
    (hstep : l.resumeStart t pc = some l') : l'.Kept := by
  cases pc with
  | startingServer | startingDriver =>
      cases hstep
      exact ⟨h.1, h.2, h.3⟩
  | undoing phase e =>
      cases hstep
      exact (h.resumeServer phase).undo t e
  | called | returned | raised => cases hstep

theorem Kept.failStart (h : l.Kept) (opus : OpusEncoder ε) {l' : Lifecycle ε T} {t : Nat}
    {e : PyErr} {pc : StartPc} (hstep : l.failStart t e pc = some l') : l'.Kept := by
  cases pc with
  | called =>
      simp only [Lifecycle.failStart] at hstep
      split at hstep
      · cases hstep
      · cases hstep
        exact ⟨h.1, h.2, h.3⟩
  | startingServer | undoing =>
      cases hstep
      exact ⟨h.1, h.2, h.3⟩
  | startingDriver =>
      cases hstep
      exact (h.stopServer opus).undo t e
  | returned | raised => cases hstep

/-! ### `stop` -/

/-- The clearing, when no session is active any more. -/
theorem Kept.clear (h : l.Kept) (t : Nat) (hnone : l.remote.activeSiriSession = none) :
    (l.clear t).Kept where
  utterance := h.utterance.of_frame hnone.symm rfl rfl fun _ u hu hopen ↦
    ⟨u, hu, hopen, fun _ hc ↦ hc⟩
  attended := by
    refine ⟨rfl, fun sid ↦ ?_⟩
    have hsame : (l.clear t).remote.activeSiriSession = l.remote.activeSiriSession := hnone.symm
    rw [hsame]
    exact h.attended.watched sid
  uncancelled := h.uncancelled

/-- `stop` behind `driver.async_stop()` waits for the watcher of the active session, or clears
when there is none. -/
theorem Kept.driverStopped_cases (h : l.Kept) (t : Nat) :
    (∃ sid, l.driverStopped t = gotoStop { l with started := false } t (.watching sid)) ∨
      l.remote.activeSiriSession = none ∧
        l.driverStopped t = Lifecycle.clear { l with started := false } t := by
  cases hactive : l.remote.activeSiriSession with
  | none =>
      refine .inr ⟨rfl, ?_⟩
      simp only [driverStopped, h.attended.task, hactive]
  | some sid =>
      have hwatched := (h.attended.watched sid).mp hactive
      refine .inl ⟨sid, ?_⟩
      simp only [driverStopped, h.attended.task, hactive, hwatched, if_true]

theorem Kept.driverStopped (h : l.Kept) (t : Nat) : (l.driverStopped t).Kept := by
  have hflag : Kept { l with started := false } := ⟨h.1, h.2, h.3⟩
  rcases h.driverStopped_cases t with ⟨sid, heq⟩ | ⟨hnone, heq⟩
  · rw [heq]
    exact ⟨h.1, h.2, h.3⟩
  · rw [heq]
    exact hflag.clear t hnone

theorem Kept.serverStopped {x : Option ServerPhase × Lifecycle ε T} (h : x.2.Kept) (t : Nat) :
    (Lifecycle.serverStopped t x).Kept := by
  obtain ⟨_ | phase, l⟩ := x
  · simp only [Lifecycle.serverStopped]
    split
    · exact ⟨h.1, h.2, h.3⟩
    · exact h.driverStopped t
  · exact ⟨h.1, h.2, h.3⟩

theorem Kept.cancelled (h : l.Kept) (opus : OpusEncoder ε) (t sid task : Nat) :
    (l.cancelled t sid task).Kept := by
  rw [Lifecycle.cancelled]
  split
  · exact (h.stopServer opus).serverStopped t
  · exact ⟨h.1, h.2, h.3⟩

theorem Kept.beginCancel (h : l.Kept) (opus : OpusEncoder ε) {sid : Nat} {u : Utterance ε}
    (hu : l.remote.sessions[sid]? = some u) : (l.beginCancel opus sid u).Kept := by
  have hprogress : ∀ u', l.remote.sessions[sid]? = some u' → Session.Progress opus u'.session
      ((u'.session.spawn (.cancel .cancelled)).begin opus (l.remote.isClosed u.connection)
        u.session.tasks.length (.cancel .cancelled)) := by
    intro u' hu'
    rw [hu] at hu'
    cases hu'
    exact progress_spawn u.session _ nofun
  refine h.sheds (.keeps (l.remote.sessionsOnly_onSession sid fun u' hu' hclosed ↦ ?_).keeps)
    (.session l.remote sid hprogress)
  exact (hprogress u' hu').closed hclosed

/-- `stop` returns at once, goes on to `hds.stop()`, or cancels the active session first. -/
theorem enterStop_cases (l : Lifecycle ε T) (opus : OpusEncoder ε) (t : Nat) :
    (l.started = false ∧ l.listening = false ∧ l.enterStop opus t = l.gotoStop t .returned) ∨
      ¬(l.started = false ∧ l.listening = false) ∧
        (l.enterStop opus t = serverStopped t l.stopServer ∨
          ∃ sid u, l.remote.sessions[sid]? = some u ∧ l.enterStop opus t =
            (l.beginCancel opus sid u).cancelled t sid u.session.tasks.length) := by
  rw [enterStop]
  split
  · next hidle =>
    simp only [Bool.and_eq_true, Bool.not_eq_true'] at hidle
    exact .inl ⟨hidle.1, hidle.2, rfl⟩
  · next hbusy =>
    simp only [Bool.and_eq_true, Bool.not_eq_true'] at hbusy
    refine .inr ⟨hbusy, ?_⟩
    split
    · next sid u heq =>
      obtain ⟨sid', -, hu⟩ := Option.bind_eq_some_iff.mp heq
      obtain ⟨u', hu, hpair⟩ := Option.map_eq_some_iff.mp hu
      cases hpair
      split
      · exact .inl rfl
      · exact .inr ⟨sid, u, hu, rfl⟩
    · exact .inl rfl

theorem Kept.enterStop (h : l.Kept) (opus : OpusEncoder ε) (t : Nat) :
    (l.enterStop opus t).Kept := by
  rcases l.enterStop_cases opus t with ⟨-, -, heq⟩ | ⟨-, heq | ⟨sid, u, hu, heq⟩⟩
  · rw [heq]
    exact ⟨h.1, h.2, h.3⟩
  · rw [heq]
    exact (h.stopServer opus).serverStopped t
  · rw [heq]
    exact (h.beginCancel opus hu).cancelled opus t sid _

end

end Lifecycle

end AtvRemote.Remote
