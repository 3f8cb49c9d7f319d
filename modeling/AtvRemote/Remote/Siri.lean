import AtvRemote.Lib.Table
import AtvRemote.Remote.Steps

/-!
# One utterance at a time

The lock of `start_siri` is taken by the call and given back by the watcher of its
session, or by the call itself when it raises.  `SingleUtterance` is what holds between
any two steps: a session that is not closed is the active one and its connection is open,
an active session has the lock, and the lock is held by an active session or by the one
call that has acquired it.
-/

namespace AtvRemote.Remote

open Lib Audio

variable {ε T : Type}

namespace AppleTVHomeKitRemote

/-- At most one Siri session is live, and the lock belongs to it or to the call that is about
to start it. -/
structure SingleUtterance (r : AppleTVHomeKitRemote ε T) : Prop where
  /-- A session that is not closed is the active one, on an open connection. -/
  live : ∀ (sid : Nat) (u : Utterance ε), r.sessions[sid]? = some u → u.session.closed = false →
    r.activeSiriSession = some sid ∧ r.isClosed u.connection = false
  /-- An active session has the lock. -/
  locked : r.activeSiriSession.isSome → r.siriLocked = true
  /-- Somebody has the lock when it is held. -/
  held : r.siriLocked = true → r.activeSiriSession.isSome ∨
    ∃ (t : Nat) (k : SiriCall), r.siriCalls[t]? = some k ∧ k.pc = .acquired
  /-- A call that has the lock is the only one, and no session is active. -/
  acquired : ∀ (t : Nat) (k : SiriCall), r.siriCalls[t]? = some k → k.pc = .acquired →
    r.siriLocked = true ∧ r.activeSiriSession = none ∧
      ∀ (t' : Nat) (k' : SiriCall), r.siriCalls[t']? = some k' → k'.pc = .acquired → t' = t

namespace SingleUtterance

variable {r r' : AppleTVHomeKitRemote ε T}

/-- A change that touches neither the lock nor the calls, starts no session and closes no
connection under a live one. -/
theorem of_frame (hr : r.SingleUtterance) (hactive : r'.activeSiriSession = r.activeSiriSession)
    (hlocked : r'.siriLocked = r.siriLocked) (hcalls : r'.siriCalls = r.siriCalls)
    (hlive : ∀ (sid : Nat) (u' : Utterance ε), r'.sessions[sid]? = some u' →
      u'.session.closed = false → ∃ u, r.sessions[sid]? = some u ∧ u.session.closed = false ∧
        (r.activeSiriSession = some sid → r.isClosed u.connection = false →
          r'.isClosed u'.connection = false)) : r'.SingleUtterance where
  live sid u' hu' hopen := by
    obtain ⟨u, hu, huopen, hconn⟩ := hlive sid u' hu' hopen
    obtain ⟨hsid, hc⟩ := hr.live sid u hu huopen
    rw [hactive]
    exact ⟨hsid, hconn hsid hc⟩
  locked := by
    rw [hactive, hlocked]
    exact hr.locked
  held := by
    rw [hactive, hlocked, hcalls]
    exact hr.held
  acquired := by
    rw [hactive, hlocked, hcalls]
    exact hr.acquired

theorem keeps (hr : r.SingleUtterance) (h : Keeps r r') : r'.SingleUtterance := by
  refine hr.of_frame h.activeSiriSession h.siriLocked h.siriCalls fun sid u' hu' hopen ↦ ?_
  obtain ⟨u, hu, hlater⟩ := h.sessions sid u' hu'
  refine ⟨u, hu, ?_, fun _ hc ↦ ?_⟩
  · by_contra hclosed
    rw [hlater.closed (eq_true_of_ne_false hclosed)] at hopen
    cases hopen
  · rw [isClosed, h.connections, hlater.connection]
    exact hc

/-- A connection is closed, and the session on it fails. -/
theorem closes (hr : r.SingleUtterance) {c : Nat} (h : Closes c r r') : r'.SingleUtterance := by
  refine hr.of_frame (congrArg (·.activeSiriSession) h.rest) (congrArg (·.siriLocked) h.rest)
    (congrArg (·.siriCalls) h.rest) fun sid u' hu' hopen ↦ ?_
  obtain ⟨u, hu, hlater⟩ := h.sessions sid u' hu'
  refine ⟨u, hu, ?_, fun hsid hc ↦ ?_⟩
  · by_contra hclosed
    rw [hlater.closed (eq_true_of_ne_false hclosed)] at hopen
    cases hopen
  · by_cases heq : u'.connection = c
    · have hcopen : r.isClosed c = false := by
        rw [← heq, hlater.connection]
        exact hc
      rw [h.activeFails sid u' hcopen hsid hu' heq] at hopen
      cases hopen
    · rw [isClosed, h.connections, List.getElem?_modify_ne _ _ (Ne.symm heq), hlater.connection]
      exact hc

theorem sheds (hr : r.SingleUtterance) (h : Sheds r r') : r'.SingleUtterance := by
  induction h with
  | keeps h => exact hr.keeps h
  | closes c h => exact hr.closes h
  | drops => exact hr.of_frame rfl rfl rfl fun _ u hu hopen ↦ ⟨u, hu, hopen, fun _ hc ↦ hc⟩
  | trans _ _ ih ih' => exact ih' (ih hr)

end SingleUtterance

section

variable {json : JsonText} {opus : OpusEncoder ε} {r : AppleTVHomeKitRemote ε json.Text}

/-- The calls after one of them moved. -/
theorem siriCalls_gotoSiri {calls : List SiriCall} (t : Nat) (pc : SiriPc) {t' : Nat}
    {k' : SiriCall} (h : (calls.modify t fun k ↦ { k with pc })[t']? = some k') :
    (t' = t ∧ k'.pc = pc) ∨ (t' ≠ t ∧ calls[t']? = some k') := by
  rw [List.getElem?_modify] at h
  obtain ⟨k, hk, heq⟩ := Option.map_eq_some_iff.mp h
  split at heq
  · next hsame =>
    subst heq
    exact .inl ⟨hsame.symm, rfl⟩
  · next hne =>
    subst heq
    exact .inr ⟨Ne.symm hne, hk⟩

theorem siriCalls_gotoSiri_of_ne {t t' : Nat} (pc : SiriPc) (hne : t' ≠ t) :
    (r.gotoSiri json t pc).siriCalls[t']? = r.siriCalls[t']? := by
  rw [gotoSiri]
  exact List.getElem?_modify_ne _ _ (Ne.symm hne)

/-- A connection that is told its identifier is as open as before. -/
theorem isClosed_identify (r : AppleTVHomeKitRemote ε T) (c : Nat) (identifier : Int) (c' : Nat) :
    (r.identify c identifier).isClosed c' = r.isClosed c' := by
  simp only [identify, isClosed, List.getElem?_modify]
  cases r.connections[c']? with
  | none => rfl
  | some conn => split <;> rfl

theorem SingleUtterance.whoami (hr : r.SingleUtterance) (c : Nat) (identifier : Int) :
    ((r.identify c identifier).hdsWhoami json identifier c).SingleUtterance := by
  have hidentify : (r.identify c identifier).SingleUtterance :=
    hr.of_frame rfl rfl rfl fun _ u hu hopen ↦
      ⟨u, hu, hopen, fun _ hc ↦ (r.isClosed_identify c identifier _).trans hc⟩
  unfold hdsWhoami
  split
  · exact hidentify.sheds (sheds_closeConnection _ c)
  · have hreplaced := hidentify.sheds (sheds_closeReplaced (r.identify c identifier) identifier c)
    exact hreplaced.of_frame rfl rfl rfl fun _ u hu hopen ↦ ⟨u, hu, hopen, fun _ hc ↦ hc⟩

/-- An accepted connection leaves the others as they are. -/
theorem SingleUtterance.accept (hr : r.SingleUtterance) (conn : Connection)
    (serverConnections : List Nat) :
    ({ r with connections := r.connections ++ [conn], serverConnections } :
      AppleTVHomeKitRemote ε json.Text).SingleUtterance := by
  refine hr.of_frame rfl rfl rfl fun sid u hu hopen ↦ ⟨u, hu, hopen, fun _ hc ↦ ?_⟩
  have hlt : u.connection < r.connections.length := by
    by_contra hge
    rw [isClosed, List.getElem?_eq_none (Nat.le_of_not_lt hge)] at hc
    cases hc
  simpa [isClosed, List.getElem?_append_left hlt] using hc

/-- `siriCalls` after a shedding. -/
theorem Sheds.siriCalls {r r' : AppleTVHomeKitRemote ε T} (h : Sheds r r') :
    r'.siriCalls = r.siriCalls := by
  induction h with
  | keeps h => exact h.siriCalls
  | closes c h => exact congrArg (·.siriCalls) h.rest
  | drops => rfl
  | trans _ _ ih ih' => exact ih'.trans ih

/-- No call has the lock once the one that had it moved on. -/
theorem SingleUtterance.no_acquired (hr : r.SingleUtterance) {t : Nat} {k : SiriCall}
    (hk : r.siriCalls[t]? = some k) (hpc : k.pc = .acquired) (pc : SiriPc) (hto : pc ≠ .acquired)
    {t' : Nat} {k' : SiriCall}
    (h : (r.siriCalls.modify t fun k ↦ { k with pc })[t']? = some k') : k'.pc ≠ .acquired := by
  intro hacquired
  rcases siriCalls_gotoSiri t pc h with ⟨-, hpc'⟩ | ⟨hne, hk'⟩
  · exact hto (hpc'.symm.trans hacquired)
  · exact hne ((hr.acquired t k hk hpc).2.2 t' k' hk' hacquired)

/-- A call that does not have the lock moves, and does not take it. -/
theorem SingleUtterance.moved (hr : r.SingleUtterance) {t : Nat} {k : SiriCall} {pc : SiriPc}
    (hk : r.siriCalls[t]? = some k) (hfrom : k.pc ≠ .acquired) (hto : pc ≠ .acquired) :
    (r.gotoSiri json t pc).SingleUtterance where
  live := hr.live
  locked := hr.locked
  held hlocked := by
    refine (hr.held hlocked).imp_right ?_
    rintro ⟨t', k', hk', hpc'⟩
    have hne : t' ≠ t := by
      rintro rfl
      rw [hk] at hk'
      cases hk'
      exact hfrom hpc'
    exact ⟨t', k', (siriCalls_gotoSiri_of_ne pc hne).trans hk', hpc'⟩
  acquired t' k' hk' hpc' := by
    rcases siriCalls_gotoSiri t pc hk' with ⟨-, h⟩ | ⟨-, hk'⟩
    · exact (hto (h.symm.trans hpc')).elim
    · obtain ⟨hlocked, hnone, honly⟩ := hr.acquired t' k' hk' hpc'
      refine ⟨hlocked, hnone, fun t'' k'' hk'' hpc'' ↦ ?_⟩
      rcases siriCalls_gotoSiri t pc hk'' with ⟨-, h⟩ | ⟨-, hk''⟩
      · exact (hto (h.symm.trans hpc'')).elim
      · exact honly t'' k'' hk'' hpc''

/-- A call takes the lock that nobody has. -/
theorem SingleUtterance.acquire (hr : r.SingleUtterance) {t : Nat} {k : SiriCall}
    (hk : r.siriCalls[t]? = some k) (hfree : r.siriLocked = false) :
    (gotoSiri json { r with siriLocked := true } t .acquired).SingleUtterance := by
  have hnone : r.activeSiriSession = none := by
    cases hactive : r.activeSiriSession with
    | none => rfl
    | some sid =>
        have hlocked := hr.locked (by rw [hactive]; rfl)
        rw [hfree] at hlocked
        cases hlocked
  have honly : ∀ (t' : Nat) (k' : SiriCall),
      (gotoSiri json { r with siriLocked := true } t .acquired).siriCalls[t']? = some k' →
        k'.pc = .acquired → t' = t := by
    intro t' k' hk' hpc'
    rcases siriCalls_gotoSiri t .acquired hk' with ⟨h, -⟩ | ⟨-, hk'⟩
    · exact h
    · have hlocked := (hr.acquired t' k' hk' hpc').1
      rw [hfree] at hlocked
      cases hlocked
  constructor
  · exact hr.live
  · exact fun _ ↦ rfl
  · refine fun _ ↦ .inr ⟨t, { k with pc := .acquired }, ?_, rfl⟩
    simp only [gotoSiri, List.getElem?_modify_eq, hk]
    rfl
  · intro t' k' hk' hpc'
    refine ⟨rfl, hnone, fun t'' k'' hk'' hpc'' ↦ ?_⟩
    rw [honly t' k' hk' hpc', honly t'' k'' hk'' hpc'']

/-- The call that has the lock raises, and releases it. -/
theorem SingleUtterance.fail (hr : r.SingleUtterance) {t : Nat} {k : SiriCall}
    (hk : r.siriCalls[t]? = some k) (hpc : k.pc = .acquired) (e : PyErr) :
    (gotoSiri json { r with siriLocked := false } t (.raised e)).SingleUtterance where
  live := hr.live
  locked hactive := by
    have hnone := (hr.acquired t k hk hpc).2.1
    rw [show (gotoSiri json { r with siriLocked := false } t (.raised e)).activeSiriSession =
      r.activeSiriSession from rfl, hnone] at hactive
    cases hactive
  held hlocked := by cases hlocked
  acquired t' k' hk' hpc' := (hr.no_acquired hk hpc (.raised e) nofun hk' hpc').elim

/-- The call that has the lock makes a session, which has it from then on. -/
theorem SingleUtterance.startSession (hr : r.SingleUtterance) {t : Nat} {k : SiriCall}
    (hk : r.siriCalls[t]? = some k) (hpc : k.pc = .acquired) {u : Utterance ε}
    (hopen : r.isClosed u.connection = false) :
    (gotoSiri json { r with
      sessions := r.sessions ++ [u]
      activeSiriSession := some r.sessions.length
      siriWatchTask := some r.sessions.length }
      t (.returned r.sessions.length)).SingleUtterance := by
  obtain ⟨hlocked, hnone, -⟩ := hr.acquired t k hk hpc
  constructor
  · intro sid u' hu' hlive
    rcases getElem?_concat_eq_some.mp hu' with hold | ⟨rfl, rfl⟩
    · -- no session was live before
      have hsid := (hr.live sid u' hold hlive).1
      rw [hnone] at hsid
      cases hsid
    · exact ⟨rfl, hopen⟩
  · exact fun _ ↦ hlocked
  · exact fun _ ↦ .inl rfl
  · intro t' k' hk' hpc'
    exact (hr.no_acquired hk hpc (.returned r.sessions.length) nofun hk' hpc').elim

/-- The watcher of a closed session gives the lock back, if the session is still active. -/
theorem SingleUtterance.endSession (hr : r.SingleUtterance) {sid : Nat} {u : Utterance ε}
    (hu : r.sessions[sid]? = some u) (hclosed : u.session.closed = true) :
    (r.siriSessionEnded json sid u).SingleUtterance := by
  have hlive : ∀ (sid' : Nat) (u' : Utterance ε),
      (r.siriSessionEnded json sid u).sessions[sid']? = some u' → u'.session.closed = false →
        r.activeSiriSession = some sid' ∧ sid' ≠ sid ∧ r.isClosed u'.connection = false := by
    intro sid' u' hu' hopen
    simp only [siriSessionEnded, List.getElem?_modify] at hu'
    obtain ⟨u₀, hu₀, rfl⟩ := Option.map_eq_some_iff.mp hu'
    have hopen₀ : u₀.session.closed = false := by
      split at hopen <;> exact hopen
    obtain ⟨hactive, hconn⟩ := hr.live sid' u₀ hu₀ hopen₀
    refine ⟨hactive, ?_, by split <;> exact hconn⟩
    rintro rfl
    rw [hu] at hu₀
    cases hu₀
    rw [hclosed] at hopen₀
    cases hopen₀
  by_cases hactive : r.activeSiriSession = some sid
  · -- the session was the active one, and the lock is free again
    have hended : (r.siriSessionEnded json sid u).activeSiriSession = none := if_pos hactive
    have hfree : (r.siriSessionEnded json sid u).siriLocked = false := if_pos hactive
    constructor
    · intro sid' u' hu' hopen
      obtain ⟨hother, hne, -⟩ := hlive sid' u' hu' hopen
      rw [hactive] at hother
      exact (hne (Option.some.inj hother).symm).elim
    · intro h
      rw [hended] at h
      cases h
    · intro h
      rw [hfree] at h
      cases h
    · intro t k hk hpc
      have hnone := (hr.acquired t k hk hpc).2.1
      rw [hactive] at hnone
      cases hnone
  · have hkept : (r.siriSessionEnded json sid u).activeSiriSession = r.activeSiriSession :=
      if_neg hactive
    have hlock : (r.siriSessionEnded json sid u).siriLocked = r.siriLocked := if_neg hactive
    constructor
    · intro sid' u' hu' hopen
      obtain ⟨hother, -, hconn⟩ := hlive sid' u' hu' hopen
      exact ⟨hkept.trans hother, hconn⟩
    · rw [hkept, hlock]
      exact hr.locked
    · rw [hkept, hlock]
      exact hr.held
    · rw [hkept, hlock]
      exact hr.acquired

/-- `start_siri` is called. -/
theorem SingleUtterance.call (hr : r.SingleUtterance) (target : Option Int) (positive : Bool) :
    ({ r with siriCalls := r.siriCalls ++ [⟨target, positive, .start⟩] } :
      AppleTVHomeKitRemote ε json.Text).SingleUtterance := by
  have hold : ∀ (t : Nat) (k : SiriCall),
      (r.siriCalls ++ [⟨target, positive, .start⟩])[t]? = some k → k.pc = .acquired →
        r.siriCalls[t]? = some k := by
    intro t k hk hpc
    rcases getElem?_concat_eq_some.mp hk with hold | ⟨-, rfl⟩
    · exact hold
    · cases hpc
  constructor
  · exact hr.live
  · exact hr.locked
  · intro hlocked
    refine (hr.held hlocked).imp_right ?_
    rintro ⟨t, k, hk, hpc⟩
    exact ⟨t, k, getElem?_concat_eq_some.mpr (.inl hk), hpc⟩
  · intro t k hk hpc
    obtain ⟨hlocked, hnone, honly⟩ := hr.acquired t k (hold t k hk hpc) hpc
    exact ⟨hlocked, hnone, fun t' k' hk' hpc' ↦ honly t' k' (hold t' k' hk' hpc') hpc'⟩

theorem SingleUtterance.siriStep {r' : AppleTVHomeKitRemote ε json.Text} (hr : r.SingleUtterance)
    (h : SiriStep r r') : r'.SingleUtterance := by
  cases h with
  | called target positive => exact hr.call target positive
  | moved t k pc hk hfrom hto => exact hr.moved hk hfrom hto
  | acquired t k hk hfree => exact hr.acquire hk hfree
  | failed t k e b hk hpc hb => exact (hr.sheds hb).fail (hb.siriCalls ▸ hk) hpc e
  | started t k b u hk hpc hb hopen =>
      exact (hr.sheds hb).startSession (hb.siriCalls ▸ hk) hpc hopen
  | ended sid u hu hclosed => exact hr.endSession hu hclosed

/-- A new controller has no session. -/
theorem singleUtterance_new (file : Option json.Text) :
    (new json file : AppleTVHomeKitRemote ε json.Text).SingleUtterance where
  live _ _ h := by cases h
  locked h := by cases h
  held h := by cases h
  acquired _ _ h := by cases h

end

end AppleTVHomeKitRemote

open AppleTVHomeKitRemote

/-! ## Runs -/

/-- Every step keeps to one live session. -/
theorem AppleTVHomeKitRemote.SingleUtterance.step {json : JsonText} {opus : OpusEncoder ε}
    {r r' : AppleTVHomeKitRemote ε json.Text} {a : Label} (hr : r.SingleUtterance)
    (h : r.step json opus a = some r') : r'.SingleUtterance := by
  rcases step_cases h with
    ⟨client, -, rfl⟩ | ⟨c, protocol, topic, message, identifier, -, -, -, rfl⟩ | ⟨-, hsheds | hsiri⟩
  · exact hr.accept _ _
  · exact hr.whoami c identifier
  · exact hr.sheds hsheds
  · exact hr.siriStep hsiri

/-- **Between any two steps at most one Siri session is live, and the lock is neither leaked
nor free under it.** -/
theorem singleUtterance (json : JsonText) (opus : OpusEncoder ε) (file : Option json.Text)
    (r : AppleTVHomeKitRemote ε json.Text) (h : (remotes json opus file).Reachable r) :
    r.SingleUtterance := by
  refine h.invariant ?_ ?_
  · rintro r rfl
    exact singleUtterance_new file
  · exact fun r r' a hr hstep ↦ hr.step hstep

/-- A session fails with its connection while a second call waits for the lock, which gets it
from the watcher. -/
def handedOver : List Label :=
  [.start, .targetListWrite (.ofString "AQECAgYBBAEAAAA=") (some ⟨"hub", 1⟩) true,
    .accept ⟨"hub", 1⟩, .whoami 0 1, .activeWrite (.int 1) (some ⟨"hub", 1⟩),
    .startSiri none true, .enterSiri 0, .runSiri 0 none, .startSiri none true, .enterSiri 1,
    .close 0, .watch 0, .acquireSiri 1]

/-- The lock that is handed over. -/
theorem singleUtterance_handedOver :
    ∃ r, (remotes .documents .verbatim none).exec (.new .documents none) handedOver = some r ∧
      r.siriCalls.map SiriCall.pc = [.returned 0, .acquired] ∧ r.SingleUtterance := by
  have hcalls : ((remotes .documents .verbatim none).exec (.new .documents none) handedOver).map
      (fun r ↦ r.siriCalls.map SiriCall.pc) = some [.returned 0, .acquired] := by decide
  obtain ⟨r, hr, hpcs⟩ := Option.map_eq_some_iff.mp hcalls
  have hinit : (remotes .documents .verbatim none).Reachable (.new .documents none) := .init rfl
  exact ⟨r, hr, hpcs, singleUtterance .documents .verbatim none r (hinit.exec hr)⟩

end AtvRemote.Remote
