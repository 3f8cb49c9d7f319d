import AtvRemote.Audio.Steps
import AtvRemote.Remote.Controller

/-!
# What the callbacks change

The operations of the controller on its sessions (`SessionsOnly`), and what closing a
connection does to the rest of the controller through `_connection_closed` and
`_hds_connection_closed` (`Closes`).  The invariants of the controller are derived from
these two relations, so that none of them unfolds the callbacks again.
-/

namespace AtvRemote.Remote

open Lib Audio

/-! ## Laws that are reflexive and transitive -/

section

variable {σ α β : Type} {R : σ → σ → Prop} [IsTrans σ R]

/-- A call goes on where one returned. -/
theorem rel_thenDo {s : σ} {x : Except PyErr α × σ} {f : α → σ → Except PyErr β × σ}
    (hx : R s x.2) (hf : ∀ a s, R s (f a s).2) : R s (thenDo x f).2 := by
  rw [thenDo.eq_def]
  split
  · exact trans_of R hx (hf _ _)
  · exact hx

variable [Std.Refl R]

/-- What one round of a loop keeps, the loop keeps. -/
theorem rel_foldl {f : σ → α → σ} (hf : ∀ s a, R s (f s a)) (as : List α) (s : σ) :
    R s (as.foldl f s) := by
  induction as generalizing s with
  | nil => exact refl_of R s
  | cons a as ih => exact trans_of R (hf s a) (ih (f s a))

end

variable {ε T : Type}

/-- The same Siri session later: it keeps its connection and its target, and a closed one
stays closed. -/
structure Utterance.Later (u u' : Utterance ε) : Prop where
  connection : u'.connection = u.connection
  targetIdentifier : u'.targetIdentifier = u.targetIdentifier
  closed : u.session.closed = true → u'.session.closed = true

namespace Utterance.Later

theorem refl (u : Utterance ε) : Later u u := ⟨rfl, rfl, id⟩

theorem trans {u v w : Utterance ε} (h : Later u v) (h' : Later v w) : Later u w :=
  ⟨h'.connection.trans h.connection, h'.targetIdentifier.trans h.targetIdentifier,
    fun hc ↦ h'.closed (h.closed hc)⟩

end Utterance.Later

namespace AppleTVHomeKitRemote

/-! ## Operations on sessions -/

/-- Only sessions and the table of their streams differ. -/
structure SessionsOnly (r r' : AppleTVHomeKitRemote ε T) : Prop where
  rest : r' = { r with sessions := r'.sessions, siriSessions := r'.siriSessions }
  sessions : ∀ (sid : Nat) (u' : Utterance ε), r'.sessions[sid]? = some u' →
    ∃ u, r.sessions[sid]? = some u ∧ u.Later u'

namespace SessionsOnly

variable {r r' r'' : AppleTVHomeKitRemote ε T}

theorem refl (r : AppleTVHomeKitRemote ε T) : SessionsOnly r r :=
  ⟨rfl, fun _ u h ↦ ⟨u, h, .refl u⟩⟩

theorem trans (h : SessionsOnly r r') (h' : SessionsOnly r' r'') : SessionsOnly r r'' := by
  constructor
  · rw [h'.rest, h.rest]
  · intro sid u'' hu''
    obtain ⟨u', hu', hlater'⟩ := h'.sessions sid u'' hu''
    obtain ⟨u, hu, hlater⟩ := h.sessions sid u' hu'
    exact ⟨u, hu, hlater.trans hlater'⟩

instance : Std.Refl (@SessionsOnly ε T) := ⟨refl⟩

instance : IsTrans _ (@SessionsOnly ε T) := ⟨fun _ _ _ ↦ trans⟩

theorem targets (h : SessionsOnly r r') : r'.targets = r.targets := congrArg (·.targets) h.rest

theorem hdsConnections (h : SessionsOnly r r') : r'.hdsConnections = r.hdsConnections :=
  congrArg (·.hdsConnections) h.rest

theorem connections (h : SessionsOnly r r') : r'.connections = r.connections :=
  congrArg (·.connections) h.rest

theorem activeSiriSession (h : SessionsOnly r r') : r'.activeSiriSession = r.activeSiriSession :=
  congrArg (·.activeSiriSession) h.rest

theorem isClosed (h : SessionsOnly r r') (c : Nat) : r'.isClosed c = r.isClosed c := by
  rw [AppleTVHomeKitRemote.isClosed, h.connections, AppleTVHomeKitRemote.isClosed]

end SessionsOnly

section

variable (r : AppleTVHomeKitRemote ε T)

theorem sessionsOnly_onSession (sid : Nat) {f : Session ε → Session ε}
    (hf : ∀ u, r.sessions[sid]? = some u → u.session.closed = true → (f u.session).closed = true) :
    SessionsOnly r (r.onSession sid f) := by
  constructor
  · rfl
  · intro sid' u' hu'
    simp only [onSession, List.getElem?_modify] at hu'
    obtain ⟨u, hu, heq⟩ := Option.map_eq_some_iff.mp hu'
    refine ⟨u, hu, ?_⟩
    split at heq
    · next hsid =>
      subst hsid heq
      exact ⟨rfl, rfl, hf u hu⟩
    · subst heq
      exact .refl u

theorem sessionsOnly_failSession (c sid : Nat) : SessionsOnly r (r.failSession c sid) := by
  unfold failSession
  split
  · split
    · exact r.sessionsOnly_onSession sid fun u _ _ ↦ u.session.closed_handleClose _
    · exact .refl r
  · exact .refl r

/-- `_hds_connection_closed` closes the session if it uses the connection. -/
theorem closed_failSession {c : Nat} (sid : Nat) {u' : Utterance ε}
    (hu' : (r.failSession c sid).sessions[sid]? = some u') (hc : u'.connection = c) :
    u'.session.closed = true := by
  unfold failSession at hu'
  split at hu'
  · next u hu =>
    split at hu'
    · simp only [onSession, List.getElem?_modify, hu] at hu'
      obtain rfl := Option.some.inj hu'
      exact u.session.closed_handleClose _
    · next hno =>
      rw [hu] at hu'
      obtain rfl := Option.some.inj hu'
      simpa [hc] using hno
  · next hu =>
    rw [hu] at hu'
    cases hu'

theorem sessionsOnly_dropSiriSession (c : Nat) (streamId : Int) (sid : Nat) :
    SessionsOnly r (r.dropSiriSession c streamId sid) := by
  unfold dropSiriSession
  split
  · have h := r.sessionsOnly_failSession c sid
    exact ⟨by rw [h.rest], h.sessions⟩
  · exact .refl r

theorem sessionsOnly_scheduleSessionCancel (session : Option Nat) :
    SessionsOnly r (r.scheduleSessionCancel session) := by
  unfold scheduleSessionCancel
  split
  · exact .refl r
  · split
    · exact r.sessionsOnly_onSession _ fun _ _ h ↦ h
    · exact .refl r

end

/-! ## The frame of the target operations -/

/-- The connections and the lock of the Siri sessions are left alone. -/
structure Keeps (r r' : AppleTVHomeKitRemote ε T) : Prop where
  hdsConnections : r'.hdsConnections = r.hdsConnections
  connections : r'.connections = r.connections
  activeSiriSession : r'.activeSiriSession = r.activeSiriSession
  siriLocked : r'.siriLocked = r.siriLocked
  siriCalls : r'.siriCalls = r.siriCalls
  sessions : ∀ (sid : Nat) (u' : Utterance ε), r'.sessions[sid]? = some u' →
    ∃ u, r.sessions[sid]? = some u ∧ u.Later u'

namespace Keeps

variable {r r' r'' : AppleTVHomeKitRemote ε T}

theorem refl (r : AppleTVHomeKitRemote ε T) : Keeps r r :=
  ⟨rfl, rfl, rfl, rfl, rfl, fun _ u h ↦ ⟨u, h, .refl u⟩⟩

theorem trans (h : Keeps r r') (h' : Keeps r' r'') : Keeps r r'' := by
  refine ⟨h'.hdsConnections.trans h.hdsConnections, h'.connections.trans h.connections,
    h'.activeSiriSession.trans h.activeSiriSession, h'.siriLocked.trans h.siriLocked,
    h'.siriCalls.trans h.siriCalls, fun sid u'' hu'' ↦ ?_⟩
  obtain ⟨u', hu', hlater'⟩ := h'.sessions sid u'' hu''
  obtain ⟨u, hu, hlater⟩ := h.sessions sid u' hu'
  exact ⟨u, hu, hlater.trans hlater'⟩

end Keeps

theorem SessionsOnly.keeps {r r' : AppleTVHomeKitRemote ε T} (h : SessionsOnly r r') :
    Keeps r r' where
  hdsConnections := h.hdsConnections
  connections := h.connections
  activeSiriSession := h.activeSiriSession
  siriLocked := congrArg (·.siriLocked) h.rest
  siriCalls := congrArg (·.siriCalls) h.rest
  sessions := h.sessions

/-! ## Closing a connection -/

/-- What `HDSConnection.close` changes, with the callbacks. -/
structure Closes (c : Nat) (r r' : AppleTVHomeKitRemote ε T) : Prop where
  rest : r' = { r with
    connections := r'.connections
    serverConnections := r'.serverConnections
    hdsConnections := r'.hdsConnections
    sessions := r'.sessions
    siriSessions := r'.siriSessions }
  connections : r'.connections = r.connections.modify c fun conn ↦ { conn with closed := true }
  /-- The connection loses its registration, if it is the one under its identifier. -/
  hdsConnections : ∀ identifier c', r'.hdsConnections.get identifier = some c' ↔
    r.hdsConnections.get identifier = some c' ∧ ¬(c' = c ∧ r.isClosed c = false ∧
      r.connections[c]?.bind Connection.targetIdentifier = some identifier)
  sessions : ∀ (sid : Nat) (u' : Utterance ε), r'.sessions[sid]? = some u' →
    ∃ u, r.sessions[sid]? = some u ∧ u.Later u'
  /-- The active session fails if it uses the connection. -/
  activeFails : ∀ (sid : Nat) (u' : Utterance ε), r.isClosed c = false →
    r.activeSiriSession = some sid → r'.sessions[sid]? = some u' → u'.connection = c →
    u'.session.closed = true

/-- `_hds_connection_closed` drops the registration of the connection under its identifier. -/
theorem get_dropRegistration (r : AppleTVHomeKitRemote ε T) (c : Nat) (identifier : Int)
    (c' : Nat) :
    (r.dropRegistration c).hdsConnections.get identifier = some c' ↔
      r.hdsConnections.get identifier = some c' ∧ ¬(c' = c ∧
        r.connections[c]?.bind Connection.targetIdentifier = some identifier) := by
  unfold dropRegistration
  cases r.connections[c]?.bind Connection.targetIdentifier with
  | none => simp
  | some own =>
      simp only [Option.some.injEq]
      split
      · next hown =>
        simp only [Dict.get_erase]
        split
        · next heq =>
          subst heq
          simp [hown, eq_comm]
        · next hne => simp [Ne.symm hne]
      · next hown =>
        constructor
        · intro h
          refine ⟨h, ?_⟩
          rintro ⟨rfl, rfl⟩
          exact hown h
        · exact And.left

theorem dropRegistration_rest (r : AppleTVHomeKitRemote ε T) (c : Nat) :
    r.dropRegistration c =
      { r with hdsConnections := (r.dropRegistration c).hdsConnections } := by
  unfold dropRegistration
  split
  · split <;> rfl
  · rfl

theorem sessionsOnly_failActiveSession (r : AppleTVHomeKitRemote ε T) (c : Nat) :
    SessionsOnly r (r.failActiveSession c) := by
  unfold failActiveSession
  split
  · exact r.sessionsOnly_failSession c _
  · exact .refl r

/-- Closing a connection that is closed does nothing. -/
theorem closeConnection_of_closed {r : AppleTVHomeKitRemote ε T} {c : Nat}
    (h : r.isClosed c = true) : r.closeConnection c = r := if_pos h

/-- A connection that is marked closed once more stays as it is. -/
theorem modify_connections_of_closed {r : AppleTVHomeKitRemote ε T} {c : Nat}
    (h : r.isClosed c = true) :
    r.connections.modify c (fun conn ↦ { conn with closed := true }) = r.connections := by
  apply List.ext_getElem?
  intro c'
  rw [List.getElem?_modify]
  split
  · next heq =>
    subst heq
    simp only [isClosed] at h
    cases hconn : r.connections[c]? with
    | none => rfl
    | some conn =>
        rw [hconn] at h
        have hclosed : conn.closed = true := h
        simp [← hclosed]
  · simp

theorem closes_closeConnection (r : AppleTVHomeKitRemote ε T) (c : Nat) :
    Closes c r (r.closeConnection c) := by
  cases hclosed : r.isClosed c with
  | true =>
      rw [closeConnection_of_closed hclosed]
      exact ⟨rfl, (modify_connections_of_closed hclosed).symm, fun _ _ ↦ by simp [hclosed],
        fun _ u hu ↦ ⟨u, hu, .refl u⟩, fun _ _ hopen ↦ by rw [hclosed] at hopen; cases hopen⟩
  | false =>
      have hfold : ∀ (r : AppleTVHomeKitRemote ε T) (items : List (Int × Nat)), SessionsOnly r
          (items.foldl (fun r p ↦ r.dropSiriSession c p.1 p.2) r) := fun r items ↦
        rel_foldl (fun r p ↦ r.sessionsOnly_dropSiriSession c p.1 p.2) items r
      rw [closeConnection, if_neg (by simp [hclosed]), hdsConnectionClosed]
      generalize hmarked : ({ r with
        connections := r.connections.modify c fun conn ↦ { conn with closed := true }
        serverConnections := r.serverConnections.filter (· ≠ c) } :
          AppleTVHomeKitRemote ε T) = marked
      have hdropped := marked.dropRegistration_rest c
      have hactive := (marked.dropRegistration c).sessionsOnly_failActiveSession c
      have hlast := hfold ((marked.dropRegistration c).failActiveSession c)
        ((marked.dropRegistration c).failActiveSession c).siriSessions.items
      have hown : marked.connections[c]?.bind Connection.targetIdentifier =
          r.connections[c]?.bind Connection.targetIdentifier := by
        rw [← hmarked]
        simp only [List.getElem?_modify]
        cases r.connections[c]? <;> rfl
      have hall := hactive.trans hlast
      constructor
      · rw [hall.rest, hdropped, ← hmarked]
      · rw [hall.connections, hdropped, ← hmarked]
      · intro identifier c'
        rw [hall.hdsConnections, get_dropRegistration, hown, ← hmarked]
        simp [hclosed]
      · intro sid u' hu'
        obtain ⟨u, hu, hlater⟩ := hall.sessions sid u' hu'
        rw [hdropped, ← hmarked] at hu
        exact ⟨u, hu, hlater⟩
      · intro sid u' _ hsid hu' hc
        obtain ⟨u, hu, hlater⟩ := hlast.sessions sid u' hu'
        refine hlater.closed ((marked.dropRegistration c).closed_failSession sid ?_
          (hlater.connection.symm.trans hc))
        have hsid' : (marked.dropRegistration c).activeSiriSession = some sid := by
          rw [hdropped, ← hmarked]
          exact hsid
        rw [failActiveSession, hsid'] at hu
        exact hu

/-! ## Starting a session -/

/-- `start_siri` raises without a change, or makes a session on an open connection of the
selected target. -/
theorem createSiri_cases {json : JsonText} (opus : OpusEncoder ε)
    (r : AppleTVHomeKitRemote ε json.Text) (created : Option PyErr) :
    (∃ e, r.createSiri json opus created = (.error e, r)) ∨
      ∃ c, r.hdsConnections.get r.activeIdentifier = some c ∧ r.isClosed c = false ∧
        r.createSiri json opus created = (.ok r.sessions.length, { r with
          sessions := r.sessions ++
            [⟨(Session.new opus.init).start, c, r.activeIdentifier, true⟩]
          activeSiriSession := some r.sessions.length
          siriWatchTask := some r.sessions.length }) := by
  unfold createSiri
  simp only
  split
  · exact .inl ⟨_, rfl⟩
  · split
    · exact .inl ⟨_, rfl⟩
    · split
      · exact .inl ⟨_, rfl⟩
      · next c hc =>
        split
        · exact .inl ⟨_, rfl⟩
        · next hopen =>
          split
          · exact .inl ⟨_, rfl⟩
          · split
            · exact .inl ⟨_, rfl⟩
            · exact .inr ⟨c, hc, by simpa using hopen, rfl⟩

end AppleTVHomeKitRemote

end AtvRemote.Remote
