import AtvRemote.Lib.System
import AtvRemote.Remote.Moves

/-!
# What one step of the controller can do

Most of what happens to the controller only sheds: it closes connections, drops
registrations and ends sessions, and adds none (`Sheds`).  The other steps are listed one
by one: a connection is accepted, a connection identifies itself, and the places of
`start_siri` and of its watcher where the lock changes hands.  `step_cases` is that list;
the laws about connections and about the lock are derived from it.
-/

namespace AtvRemote.Remote.AppleTVHomeKitRemote

open Lib Audio

variable {ε T : Type}

/-! ## Shedding -/

/-- Connections are closed, registrations dropped and sessions ended, and none is added. -/
inductive Sheds : AppleTVHomeKitRemote ε T → AppleTVHomeKitRemote ε T → Prop
  | keeps {r r'} (h : Keeps r r') : Sheds r r'
  | closes {r r'} (c : Nat) (h : Closes c r r') : Sheds r r'
  | drops (r) (hdsConnections : Dict Int Nat)
      (h : ∀ k c, hdsConnections.get k = some c → r.hdsConnections.get k = some c) :
      Sheds r { r with hdsConnections }
  | trans {r r' r''} (h : Sheds r r') (h' : Sheds r' r'') : Sheds r r''

namespace Sheds

theorem refl (r : AppleTVHomeKitRemote ε T) : Sheds r r := .keeps (.refl r)

instance : Std.Refl (@Sheds ε T) := ⟨refl⟩

instance : IsTrans _ (@Sheds ε T) := ⟨fun _ _ _ ↦ trans⟩

end Sheds

section

variable (r : AppleTVHomeKitRemote ε T)

theorem sheds_closeConnection (c : Nat) : Sheds r (r.closeConnection c) :=
  .closes c (closes_closeConnection r c)

theorem sheds_closeAll : Sheds r r.closeAll := rel_foldl sheds_closeConnection _ r

theorem keeps_deactivate : Keeps r r.deactivate := by
  have hclear : Keeps r { r with activeClient := none } :=
    ⟨rfl, rfl, rfl, rfl, rfl, (Keeps.refl r).sessions⟩
  exact hclear.trans (sessionsOnly_scheduleSessionCancel _ _).keeps

end

/-- No move adds a connection, a registration or a session. -/
theorem Move.sheds {r r' : AppleTVHomeKitRemote ε T} (h : Move r r') : Sheds r r' := by
  have hkeeps := (Keeps.refl r).sessions
  cases h with
  | close c => exact r.sheds_closeConnection c
  | cancel session => exact .keeps (r.sessionsOnly_scheduleSessionCancel session).keeps
  | drop hdsConnections h => exact .drops r hdsConnections h
  | save | targets | select | selectFirst | lose =>
      exact .keeps ⟨rfl, rfl, rfl, rfl, rfl, hkeeps⟩

theorem Moves.sheds {r r' : AppleTVHomeKitRemote ε T} (h : Moves r r') : Sheds r r' :=
  h.law fun _ _ ↦ Move.sheds

section

variable {json : JsonText} {opus : OpusEncoder ε} (r : AppleTVHomeKitRemote ε json.Text)

theorem sheds_hapActiveWrite (value : Obj) (client : Option ClientAddr) :
    Sheds r (r.hapActiveWrite json value client).2 := by
  unfold hapActiveWrite
  split
  · exact .refl r
  · split
    · exact .refl r
    · split
      · exact .keeps ⟨rfl, rfl, rfl, rfl, rfl, (Keeps.refl r).sessions⟩
      · split
        · exact .refl r
        · exact .keeps r.keeps_deactivate

theorem sheds_closeReplaced (identifier : Int) (c : Nat) :
    Sheds r (r.closeReplaced json identifier c) := by
  rcases r.closeReplaced_cases identifier c with heq | ⟨old, heq⟩
  · rw [heq]
    exact .refl r
  · rw [heq]
    exact r.sheds_closeConnection old

/-! ## Steps -/

/-- A message that does not identify its connection only sheds. -/
theorem sheds_dispatch {c : Nat} {protocol topic : PyStr} {message : List (Obj × Obj)}
    {b : AppleTVHomeKitRemote ε json.Text}
    (hb : b = r ∨ b = (r.hdsEvent json opus c protocol topic message).2)
    (heq : r.dispatch json opus c protocol topic message = b ∨
      r.dispatch json opus c protocol topic message = b.closeConnection c) :
    Sheds r (r.dispatch json opus c protocol topic message) := by
  have hsheds : Sheds r b := by
    rcases hb with rfl | rfl
    · exact .refl b
    · exact .keeps (r.sessionsOnly_hdsEvent opus c protocol topic message).keeps
  rcases heq with heq | heq
  · rw [heq]
    exact hsheds
  · rw [heq]
    exact hsheds.trans (b.sheds_closeConnection c)

variable {r}

/-- The steps in which the lock of the Siri sessions changes hands. -/
inductive SiriStep (r : AppleTVHomeKitRemote ε json.Text) : AppleTVHomeKitRemote ε json.Text → Prop
  /-- `start_siri` is called. -/
  | called (target : Option Int) (positive : Bool) :
      SiriStep r { r with siriCalls := r.siriCalls ++ [⟨target, positive, .start⟩] }
  /-- A call that has not acquired the lock waits, or raises. -/
  | moved (t : Nat) (k : SiriCall) (pc : SiriPc) (hk : r.siriCalls[t]? = some k)
      (hfrom : k.pc ≠ .acquired) (hto : pc ≠ .acquired) : SiriStep r (r.gotoSiri json t pc)
  /-- A call acquires the lock. -/
  | acquired (t : Nat) (k : SiriCall) (hk : r.siriCalls[t]? = some k)
      (hfree : r.siriLocked = false) :
      SiriStep r (gotoSiri json { r with siriLocked := true } t .acquired)
  /-- A call that has acquired the lock raises, and releases it. -/
  | failed (t : Nat) (k : SiriCall) (e : PyErr) (b : AppleTVHomeKitRemote ε json.Text)
      (hk : r.siriCalls[t]? = some k) (hpc : k.pc = .acquired) (hb : Sheds r b) :
      SiriStep r (gotoSiri json { b with siriLocked := false } t (.raised e))
  /-- A call that has acquired the lock makes a session. -/
  | started (t : Nat) (k : SiriCall) (b : AppleTVHomeKitRemote ε json.Text) (u : Utterance ε)
      (hk : r.siriCalls[t]? = some k) (hpc : k.pc = .acquired) (hb : Sheds r b)
      (hopen : b.isClosed u.connection = false) :
      SiriStep r (gotoSiri json { b with
        sessions := b.sessions ++ [u]
        activeSiriSession := some b.sessions.length
        siriWatchTask := some b.sessions.length } t (.returned b.sessions.length))
  /-- The watcher of a closed session runs. -/
  | ended (sid : Nat) (u : Utterance ε) (hu : r.sessions[sid]? = some u)
      (hclosed : u.session.closed = true) : SiriStep r (r.siriSessionEnded json sid u)

theorem siriStep_enterSiri {r' : AppleTVHomeKitRemote ε json.Text} {t : Nat}
    (h : r.stepSiri json t = some r') : SiriStep r r' := by
  unfold stepSiri at h
  split at h
  · next target positive hk =>
    split at h
    · cases h
      exact .moved t _ _ hk nofun nofun
    · split at h
      · cases h
        exact .moved t _ _ hk nofun nofun
      · next hfree =>
        cases h
        simp only [Bool.or_eq_true, not_or, Bool.not_eq_true] at hfree
        exact .acquired t _ hk hfree.1
  · cases h

/-- `start_siri` behind the lock raises, or makes a session. -/
theorem siriStep_runSiri (opus : OpusEncoder ε) {t : Nat} {k : SiriCall}
    (hk : r.siriCalls[t]? = some k)
    (hpc : k.pc = .acquired) (created : Option PyErr) :
    SiriStep r (match r.startSiriLocked json opus k.target created with
      | (.ok sid, r) => r.gotoSiri json t (.returned sid)
      | (.error e, r) => r.gotoSiri json t (.raised e)) := by
  have hselect := (r.moves_selectSiri k.target).sheds
  unfold startSiriLocked
  generalize r.selectSiri json k.target = x at hselect ⊢
  obtain ⟨result, b⟩ := x
  cases result with
  | error e => exact .failed t k e b hk hpc hselect
  | ok =>
      simp only [Remote.thenDo]
      rcases b.createSiri_cases opus created with ⟨e, heq⟩ | ⟨c, -, hopen, heq⟩
      · rw [heq]
        exact .failed t k e b hk hpc hselect
      · rw [heq]
        exact .started t k b ⟨(Session.new opus.init).start, c, b.activeIdentifier, true⟩ hk hpc
          hselect hopen

/-- A step that neither accepts a connection nor handles a message. -/
theorem step_rest {r' : AppleTVHomeKitRemote ε json.Text} {a : Label}
    (h : r.step json opus a = some r') (haccept : ∀ client, a ≠ .accept client)
    (hmessage : ∀ c protocol topic message, a ≠ .message c protocol topic message) :
    Sheds r r' ∨ SiriStep r r' := by
  cases a with
  | accept client => exact absurd rfl (haccept client)
  | message c protocol topic content => exact absurd rfl (hmessage c protocol topic content)
  | start =>
      cases h
      exact .inl (.keeps ⟨rfl, rfl, rfl, rfl, rfl, (Keeps.refl r).sessions⟩)
  | saveFaults =>
      cases h
      exact .inl (.keeps ⟨rfl, rfl, rfl, rfl, rfl, (Keeps.refl r).sessions⟩)
  | close c =>
      cases h
      exact .inl (r.sheds_closeConnection c)
  | targetListWrite value client admin =>
      cases h
      exact .inl (r.moves_hapTargetListWrite value client admin).sheds
  | setActiveIdentifier identifier =>
      cases h
      exact .inl (r.moves_setActiveIdentifier identifier).sheds
  | activeIdentifierWrite value client =>
      cases h
      exact .inl (r.moves_hapActiveIdentifierWrite value client).sheds
  | activeWrite value client =>
      cases h
      exact .inl (r.sheds_hapActiveWrite value client)
  | hapConnectionLost client =>
      cases h
      exact .inl (r.moves_hapConnectionLost client).sheds
  | session sid a =>
      refine .inl (.keeps ?_)
      cases a with
      | response => cases h
      | _ => exact (sessionsOnly_stepSession h).keeps
  | response sid t status message =>
      have hregister := r.sessionsOnly_registerStream sid status message
      exact .inl (.keeps (hregister.trans (sessionsOnly_stepSession h)).keeps)
  | startSiri target positive =>
      cases h
      exact .inr (.called target positive)
  | enterSiri t => exact .inr (siriStep_enterSiri h)
  | acquireSiri t =>
      simp only [step] at h
      split at h
      · next hwait =>
        cases h
        obtain ⟨k, hk, -⟩ := Option.map_eq_some_iff.mp hwait.1
        exact .inr (.acquired t k hk hwait.2)
      · cases h
  | giveUpSiri t e =>
      simp only [step] at h
      split at h
      · next hwait =>
        cases h
        obtain ⟨k, hk, hpc⟩ := Option.map_eq_some_iff.mp hwait
        have hfrom : k.pc ≠ .acquired := by
          rw [hpc]
          rintro ⟨⟩
        exact .inr (.moved t k _ hk hfrom (by rintro ⟨⟩))
      · cases h
  | runSiri t created =>
      refine .inr ?_
      simp only [step] at h
      split at h
      · next target _ hk =>
        have hrun := siriStep_runSiri opus hk rfl created
        split at h
        · next heq =>
          cases h
          rw [heq] at hrun
          exact hrun
        · next heq =>
          cases h
          rw [heq] at hrun
          exact hrun
      · cases h
  | watch sid =>
      simp only [step] at h
      split at h
      · next u hu =>
        split at h
        · next hwatch =>
          cases h
          simp only [Bool.and_eq_true] at hwatch
          exact .inr (.ended sid u hu hwatch.2)
        · cases h
      · cases h

/-- **The steps of the controller.** -/
theorem step_cases {r' : AppleTVHomeKitRemote ε json.Text} {a : Label}
    (h : r.step json opus a = some r') :
    (∃ client, a = .accept client ∧ r' = { r with
        connections := r.connections ++ [⟨client, none, false⟩]
        serverConnections := r.serverConnections ++ [r.connections.length] }) ∨
      (∃ c protocol topic message identifier, a = .message c protocol topic message ∧
        c < r.connections.length ∧ whoamiIdentifier protocol topic message = some identifier ∧
        r' = (r.identify c identifier).hdsWhoami json identifier c) ∨
      ((∀ c protocol topic message, a = .message c protocol topic message →
        whoamiIdentifier protocol topic message = none) ∧ (Sheds r r' ∨ SiriStep r r')) := by
  cases a with
  | accept client =>
      cases h
      exact .inl ⟨client, rfl, rfl⟩
  | message c protocol topic content =>
      simp only [step] at h
      split at h
      · next hlt =>
        cases h
        rcases r.dispatch_cases opus c protocol topic content with
          ⟨identifier, hid, heq⟩ | ⟨hid, b, hb, heq⟩
        · exact .inr (.inl ⟨c, protocol, topic, content, identifier, rfl, hlt, hid, heq⟩)
        · refine .inr (.inr ⟨?_, .inl (r.sheds_dispatch hb heq)⟩)
          rintro _ _ _ _ ⟨⟩
          exact hid
      · cases h
  | _ =>
      exact .inr (.inr ⟨by rintro _ _ _ _ ⟨⟩,
        step_rest h (by rintro _ ⟨⟩) (by rintro _ _ _ _ ⟨⟩)⟩)

end

end AtvRemote.Remote.AppleTVHomeKitRemote
