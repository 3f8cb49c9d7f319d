import AtvRemote.Remote.Sessions

/-!
# What the controller calls on its sessions

The client of a session calls `write` and `finish`; the controller does not.  What it calls is
`handle_close` and `handle_ack`, for its connections, and `cancel` (`Served`).
`served_step` says so of every step: a session either takes the step that its label names, or
is served by the controller, and a session that is new has just been started.
-/

namespace AtvRemote.Remote.AppleTVHomeKitRemote

open Lib Audio Relation

variable {ε T : Type}

/-- A call that the controller makes on a session. -/
inductive Served (opus : OpusEncoder ε) : Session ε → Session ε → Prop
  | handleClose (s) (reason : Int) : Served opus s (s.handleClose reason)
  /-- A task is created for `cancel`. -/
  | cancel (s) : Served opus s (s.spawn (.cancel .cancelled))
  /-- `handle_ack` runs up to its first wait. -/
  | handleAck (s) (connectionClosed endOfStream : Bool) : Served opus s
      ((s.spawn (.handleAck endOfStream)).begin opus connectionClosed s.tasks.length
        (.handleAck endOfStream))

/-- Every session is served, and none is dropped. -/
def Serves (opus : OpusEncoder ε) (r r' : AppleTVHomeKitRemote ε T) : Prop :=
  ∀ (sid : Nat) (u : Utterance ε), r.sessions[sid]? = some u →
    ∃ u' : Utterance ε, r'.sessions[sid]? = some u' ∧ u'.connection = u.connection ∧
      ReflTransGen (Served opus) u.session u'.session

namespace Serves

variable {opus : OpusEncoder ε} {r r' r'' : AppleTVHomeKitRemote ε T}

theorem of_sessions (h : r'.sessions = r.sessions) : Serves opus r r' := by
  intro sid u hu
  exact ⟨u, h ▸ hu, rfl, .refl⟩

theorem refl (r : AppleTVHomeKitRemote ε T) : Serves opus r r := .of_sessions rfl

theorem trans (h : Serves opus r r') (h' : Serves opus r' r'') : Serves opus r r'' := by
  intro sid u hu
  obtain ⟨u', hu', hc, hgo⟩ := h sid u hu
  obtain ⟨u'', hu'', hc', hgo'⟩ := h' sid u' hu'
  exact ⟨u'', hu'', hc'.trans hc, hgo.trans hgo'⟩

/-- What is served from a state with the same sessions. -/
theorem after {b : AppleTVHomeKitRemote ε T} (h : Serves opus b r')
    (hsame : b.sessions = r.sessions) : Serves opus r r' := .trans (.of_sessions hsame) h

instance : Std.Refl (@Serves ε T opus) := ⟨refl⟩

instance : IsTrans _ (@Serves ε T opus) := ⟨fun _ _ _ ↦ trans⟩

/-- A call on one session. -/
theorem onSession (r : AppleTVHomeKitRemote ε T) (sid : Nat) {f : Session ε → Session ε}
    (hf : ∀ s, Served opus s (f s)) : Serves opus r (r.onSession sid f) := by
  intro sid' u hu
  by_cases heq : sid = sid'
  · subst heq
    refine ⟨{ u with session := f u.session }, ?_, rfl, .single (hf u.session)⟩
    rw [AppleTVHomeKitRemote.onSession, List.getElem?_modify_eq, hu]
    rfl
  · refine ⟨u, ?_, rfl, .refl⟩
    rw [AppleTVHomeKitRemote.onSession, List.getElem?_modify_ne _ _ heq]
    exact hu

end Serves

section

variable {opus : OpusEncoder ε} (r : AppleTVHomeKitRemote ε T)

theorem serves_failSession (c sid : Nat) : Serves opus r (r.failSession c sid) := by
  rw [failSession]
  split
  · split
    · exact .onSession r sid fun s ↦ .handleClose s _
    · exact .refl r
  · exact .refl r

theorem serves_dropSiriSession (c : Nat) (streamId : Int) (sid : Nat) :
    Serves opus r (r.dropSiriSession c streamId sid) := by
  rw [dropSiriSession]
  split
  · exact (r.serves_failSession c sid).trans (.of_sessions rfl)
  · exact .refl r

theorem serves_hdsConnectionClosed (c : Nat) : Serves opus r (r.hdsConnectionClosed c) := by
  have hregistration : Serves opus r (r.dropRegistration c) := by
    rw [dropRegistration_rest]
    exact .of_sessions rfl
  have hactive : Serves opus (r.dropRegistration c)
      ((r.dropRegistration c).failActiveSession c) := by
    rw [failActiveSession]
    split
    · exact serves_failSession _ c _
    · exact .refl _
  have hdrop : ∀ (r : AppleTVHomeKitRemote ε T) (items : List (Int × Nat)), Serves opus r
      (items.foldl (fun r p ↦ r.dropSiriSession c p.1 p.2) r) := fun r items ↦
    rel_foldl (fun r p ↦ r.serves_dropSiriSession c p.1 p.2) items r
  exact (hregistration.trans hactive).trans (hdrop _ _)

theorem serves_closeConnection (c : Nat) : Serves opus r (r.closeConnection c) := by
  rw [closeConnection]
  split
  · exact .refl r
  · exact (serves_hdsConnectionClosed _ c).after rfl

theorem serves_scheduleSessionCancel (session : Option Nat) :
    Serves opus r (r.scheduleSessionCancel session) := by
  rw [scheduleSessionCancel.eq_def]
  split
  · exact .refl r
  · split
    · exact .onSession r _ .cancel
    · exact .refl r

theorem serves_deactivate : Serves opus r r.deactivate :=
  (serves_scheduleSessionCancel _ _).after rfl

end

theorem Move.serves {opus : OpusEncoder ε} {r r' : AppleTVHomeKitRemote ε T} (h : Move r r') :
    Serves opus r r' := by
  cases h with
  | close c => exact r.serves_closeConnection c
  | cancel session => exact r.serves_scheduleSessionCancel session
  | save | targets | drop | select | selectFirst | lose => exact .of_sessions rfl

theorem Moves.serves {opus : OpusEncoder ε} {r r' : AppleTVHomeKitRemote ε T} (h : Moves r r') :
    Serves opus r r' := h.law fun _ _ ↦ Move.serves

section

variable {json : JsonText} {opus : OpusEncoder ε} (r : AppleTVHomeKitRemote ε json.Text)

theorem serves_hapActiveWrite (value : Obj) (client : Option ClientAddr) :
    Serves opus r (r.hapActiveWrite json value client).2 := by
  simp only [hapActiveWrite]
  split
  · exact .refl r
  · split
    · exact .refl r
    · split
      · exact .of_sessions rfl
      · split
        · exact .refl r
        · exact r.serves_deactivate

theorem serves_hdsWhoami (identifier : Int) (c : Nat) :
    Serves opus r (r.hdsWhoami json identifier c) := by
  have hreplaced : Serves opus r (r.closeReplaced json identifier c) := by
    rcases r.closeReplaced_cases identifier c with heq | ⟨old, heq⟩
    · rw [heq]
      exact .refl r
    · rw [heq]
      exact r.serves_closeConnection old
  rw [hdsWhoami]
  split
  · exact r.serves_closeConnection c
  · exact hreplaced.trans (.of_sessions rfl)

theorem serves_hdsDataSend (c : Nat) (ack : Bool) (message : List (Obj × Obj)) :
    Serves opus r (r.hdsDataSend json opus c ack message).2 := by
  rw [hdsDataSend]
  split
  · split
    · split
      · split
        · exact .refl r
        · split
          · exact .onSession r _ fun s ↦ .handleAck s _ _
          · split
            · exact .onSession r _ fun s ↦ .handleClose s _
            · exact .refl r
      · exact .refl r
    · exact .refl r
  · split <;> exact .refl r
  · exact .refl r

theorem serves_dispatch (c : Nat) (protocol topic : PyStr) (message : List (Obj × Obj)) :
    Serves opus r (r.dispatch json opus c protocol topic message) := by
  have hevent : Serves opus r (r.hdsEvent json opus c protocol topic message).2 := by
    rw [hdsEvent]
    split
    · exact .refl r
    · split
      · exact r.serves_hdsDataSend c true message
      · split
        · exact r.serves_hdsDataSend c false message
        · exact .refl r
  rcases r.dispatch_cases opus c protocol topic message with
    ⟨identifier, -, heq⟩ | ⟨-, b, hb, heq⟩
  · rw [heq]
    exact (serves_hdsWhoami _ _ _).after rfl
  · have hgo : Serves opus r b := by
      rcases hb with rfl | rfl
      · exact .refl b
      · exact hevent
    rcases heq with heq | heq
    · rw [heq]
      exact hgo
    · rw [heq]
      exact hgo.trans (b.serves_closeConnection c)

/-- `start_siri` behind the lock raises, or adds a session. -/
theorem startSiriLocked_cases (opus : OpusEncoder ε)
    (target : Option Int) (created : Option PyErr) :
    (∃ (e : PyErr) (b : AppleTVHomeKitRemote ε json.Text), Moves r b ∧
        r.startSiriLocked json opus target created = (.error e, { b with siriLocked := false })) ∨
      ∃ (c : Nat) (b : AppleTVHomeKitRemote ε json.Text), Moves r b ∧
        r.startSiriLocked json opus target created = (.ok b.sessions.length, { b with
          sessions := b.sessions ++ [⟨(Session.new opus.init).start, c, b.activeIdentifier, true⟩]
          activeSiriSession := some b.sessions.length
          siriWatchTask := some b.sessions.length }) := by
  have hselect := r.moves_selectSiri target
  rw [startSiriLocked]
  generalize r.selectSiri json target = x at hselect ⊢
  obtain ⟨e | _, b⟩ := x
  · exact .inl ⟨e, b, hselect, rfl⟩
  · simp only [Remote.thenDo]
    rcases b.createSiri_cases opus created with ⟨e, heq⟩ | ⟨c, -, -, heq⟩
    · rw [heq]
      exact .inl ⟨e, b, hselect, rfl⟩
    · rw [heq]
      exact .inr ⟨c, b, hselect, rfl⟩

/-! ## Steps -/

/-- The step of a session that a label names. -/
inductive Label.Names (sid : Nat) : Label → Session.Label → Prop
  | session (b : Session.Label) : Names sid (.session sid b) b
  | response (t : Nat) (status : Int) (message : List (Obj × Obj)) (onOpen : Option PyErr) :
      Names sid (.response sid t status message) (.response t status message onOpen)

variable {r}

/-- A step of one session leaves the others as they are. -/
theorem stepSession_cases {r' : AppleTVHomeKitRemote ε json.Text} {sid sid' : Nat}
    {b : Session.Label} {u : Utterance ε} (h : r.stepSession json opus sid' b = some r')
    (hu : r.sessions[sid]? = some u) :
    ∃ u' : Utterance ε, r'.sessions[sid]? = some u' ∧ u'.connection = u.connection ∧
      (u'.session = u.session ∨
        sid' = sid ∧ u.session.step opus (r.isClosed u.connection) b = some u'.session) := by
  obtain ⟨u₀, hu₀, hstep⟩ := Option.bind_eq_some_iff.mp h
  obtain ⟨s, hs, rfl⟩ := Option.map_eq_some_iff.mp hstep
  by_cases heq : sid' = sid
  · subst heq
    rw [hu] at hu₀
    cases hu₀
    refine ⟨{ u with session := s }, ?_, rfl, .inr ⟨rfl, hs⟩⟩
    rw [onSession, List.getElem?_modify_eq, hu]
    rfl
  · refine ⟨u, ?_, rfl, .inl rfl⟩
    rw [onSession, List.getElem?_modify_ne _ _ heq]
    exact hu

/-- **The steps of the controller, seen from one of its sessions.** -/
theorem served_step {r' : AppleTVHomeKitRemote ε json.Text} {a : Label}
    (h : r.step json opus a = some r') {sid : Nat} {u : Utterance ε}
    (hu : r.sessions[sid]? = some u) :
    ∃ u' : Utterance ε, r'.sessions[sid]? = some u' ∧ u'.connection = u.connection ∧
      (ReflTransGen (Served opus) u.session u'.session ∨
        ∃ b, a.Names sid b ∧
          u.session.step opus (r.isClosed u.connection) b = some u'.session) := by
  have hserves : Serves opus r r' → ∃ u' : Utterance ε, r'.sessions[sid]? = some u' ∧
      u'.connection = u.connection ∧ (ReflTransGen (Served opus) u.session u'.session ∨
        ∃ b, a.Names sid b ∧
          u.session.step opus (r.isClosed u.connection) b = some u'.session) := by
    intro hserves
    obtain ⟨u', hu', hc, hgo⟩ := hserves sid u hu
    exact ⟨u', hu', hc, .inl hgo⟩
  cases a with
  | start | saveFaults | accept | startSiri =>
      cases h
      exact hserves (.of_sessions rfl)
  | close c =>
      cases h
      exact hserves (r.serves_closeConnection c)
  | message c protocol topic content =>
      simp only [step] at h
      split at h
      · cases h
        exact hserves (r.serves_dispatch c protocol topic content)
      · cases h
  | targetListWrite value client admin =>
      cases h
      exact hserves (r.moves_hapTargetListWrite value client admin).serves
  | setActiveIdentifier identifier =>
      cases h
      exact hserves (r.moves_setActiveIdentifier identifier).serves
  | activeIdentifierWrite value client =>
      cases h
      exact hserves (r.moves_hapActiveIdentifierWrite value client).serves
  | activeWrite value client =>
      cases h
      exact hserves (r.serves_hapActiveWrite value client)
  | hapConnectionLost client =>
      cases h
      exact hserves (r.moves_hapConnectionLost client).serves
  | enterSiri t =>
      simp only [step, stepSiri] at h
      split at h
      · split at h
        · cases h
          exact hserves (.of_sessions rfl)
        · split at h
          · cases h
            exact hserves (.of_sessions rfl)
          · cases h
            exact hserves (.of_sessions rfl)
      · cases h
  | acquireSiri t | giveUpSiri t e =>
      simp only [step] at h
      split at h
      · cases h
        exact hserves (.of_sessions rfl)
      · cases h
  | runSiri t created =>
      simp only [step] at h
      split at h
      · next target _ _ =>
        rcases r.startSiriLocked_cases opus target created with
          ⟨e, b, hb, heq⟩ | ⟨c, b, hb, heq⟩
        · rw [heq] at h
          cases h
          exact hserves (hb.serves.trans (.of_sessions rfl))
        · rw [heq] at h
          cases h
          refine hserves (hb.serves.trans fun sid u hu ↦ ⟨u, ?_, rfl, .refl⟩)
          exact getElem?_concat_eq_some.mpr (.inl hu)
      · cases h
  | session sid' b =>
      have hstep : r.stepSession json opus sid' b = some r' := by
        cases b with
        | response => cases h
        | _ => exact h
      obtain ⟨u', hu', hc, hsame | ⟨rfl, hstep⟩⟩ := stepSession_cases hstep hu
      · exact ⟨u', hu', hc, .inl (hsame ▸ .refl)⟩
      · exact ⟨u', hu', hc, .inr ⟨b, .session b, hstep⟩⟩
  | response sid' t status message =>
      have hsame : (r.registerStream json sid' status message).2.sessions = r.sessions ∧
          (r.registerStream json sid' status message).2.connections = r.connections := by
        rw [registerStream.eq_def]
        split
        · rw [siriSessionOpened]
          split <;> exact ⟨rfl, rfl⟩
        · exact ⟨rfl, rfl⟩
      obtain ⟨u', hu', hc, hkept | ⟨rfl, hstep⟩⟩ := stepSession_cases h (hsame.1 ▸ hu)
      · exact ⟨u', hu', hc, .inl (hkept ▸ .refl)⟩
      · rw [isClosed, hsame.2] at hstep
        exact ⟨u', hu', hc, .inr ⟨_, .response t status message _, hstep⟩⟩
  | watch sid' =>
      simp only [step] at h
      split at h
      · split at h
        · cases h
          refine hserves fun sid u hu ↦ ?_
          by_cases heq : sid' = sid
          · subst heq
            refine ⟨{ u with watched := false }, ?_, rfl, .refl⟩
            rw [siriSessionEnded, List.getElem?_modify_eq, hu]
            rfl
          · refine ⟨u, ?_, rfl, .refl⟩
            rw [siriSessionEnded, List.getElem?_modify_ne _ _ heq]
            exact hu
        · cases h
      · cases h

/-- A session that is new has just been started by a call of `start_siri`, which returns it. -/
theorem started_step {r' : AppleTVHomeKitRemote ε json.Text} {a : Label}
    (h : r.step json opus a = some r') {sid : Nat} {u : Utterance ε}
    (hu : r'.sessions[sid]? = some u) (hnew : r.sessions.length ≤ sid) :
    sid = r.sessions.length ∧ u.session = (Session.new opus.init).start ∧ u.watched = true := by
  have hold : r'.sessions.length ≤ r.sessions.length → False := by
    intro hle
    have hlt := (List.getElem?_eq_some_iff.mp hu).1
    omega
  cases siriTurn_step h with
  | goesOn _ h => exact (hold h.length_sessions.le).elim
  | registers _ sid' t status message streamId _ _ _ h =>
      exact (hold (goesOn_stepSession h).length_sessions.le).elim
  | calls _ hsessions => exact (hold (hsessions ▸ le_refl _)).elim
  | fails t k e b _ _ hb => exact (hold hb.length_sessions.le).elim
  | starts t k b c _ _ hb =>
      rcases getElem?_concat_eq_some.mp hu with hbefore | ⟨rfl, rfl⟩
      · have hlt := (List.getElem?_eq_some_iff.mp hbefore).1
        rw [hb.length_sessions] at hlt
        omega
      · exact ⟨hb.length_sessions, rfl, rfl⟩
  | ends sid' u' =>
      refine (hold ?_).elim
      rw [siriSessionEnded, List.length_modify]

/-! ## The calls of `start_siri` -/

/-- What a step does to the calls of `start_siri`. -/
inductive CallsTurn (r r' : AppleTVHomeKitRemote ε json.Text) : Prop
  | same (h : r'.siriCalls = r.siriCalls)
  | calls (k : SiriCall) (hk : k.pc = .start) (h : r'.siriCalls = r.siriCalls ++ [k])
  /-- A call that is not done moves; it returns the session that it has just added. -/
  | moves (t : Nat) (k : SiriCall) (pc : SiriPc) (hk : r.siriCalls[t]? = some k)
      (hreturned : ∀ sid, k.pc ≠ .returned sid) (hraised : ∀ e, k.pc ≠ .raised e)
      (hsession : ∀ sid, pc = .returned sid →
        sid = r.sessions.length ∧ r'.sessions.length = r.sessions.length + 1)
      (h : r'.siriCalls = r.siriCalls.set t { k with pc })

/-- A call that waits moves, and returns nothing. -/
theorem callsTurn_gotoSiri {t : Nat} {k : SiriCall} {pc : SiriPc} (hk : r.siriCalls[t]? = some k)
    (hfrom : k.pc = .start ∨ k.pc = .waiting) (hto : ∀ sid, pc ≠ .returned sid)
    {b : AppleTVHomeKitRemote ε json.Text} (hb : b.siriCalls = r.siriCalls) :
    CallsTurn r (b.gotoSiri json t pc) := by
  refine .moves t k pc hk ?_ ?_ (fun sid heq ↦ absurd heq (hto sid)) ?_
  · rintro sid heq
    rcases hfrom with hpc | hpc
    · cases hpc.symm.trans heq
    · cases hpc.symm.trans heq
  · rintro e heq
    rcases hfrom with hpc | hpc
    · cases hpc.symm.trans heq
    · cases hpc.symm.trans heq
  · rw [gotoSiri, hb]
    exact modify_of_getElem? hk

/-- **The calls of `start_siri` in a step.** -/
theorem callsTurn_step {r' : AppleTVHomeKitRemote ε json.Text} {a : Label}
    (h : r.step json opus a = some r') : CallsTurn r r' := by
  have hsheds : Sheds r r' → CallsTurn r r' := fun h ↦ .same h.siriCalls
  cases a with
  | start | saveFaults | accept =>
      cases h
      exact .same rfl
  | close c =>
      cases h
      exact hsheds (r.sheds_closeConnection c)
  | message c protocol topic content =>
      simp only [step] at h
      split at h
      · cases h
        rcases r.dispatch_cases opus c protocol topic content with
          ⟨identifier, -, heq⟩ | ⟨-, b, hb, heq⟩
        · rw [heq, hdsWhoami]
          split
          · exact .same (sheds_closeConnection _ c).siriCalls
          · exact .same (sheds_closeReplaced (r.identify c identifier) identifier c).siriCalls
        · exact hsheds (r.sheds_dispatch hb heq)
      · cases h
  | targetListWrite value client admin =>
      cases h
      exact hsheds (r.moves_hapTargetListWrite value client admin).sheds
  | setActiveIdentifier identifier =>
      cases h
      exact hsheds (r.moves_setActiveIdentifier identifier).sheds
  | activeIdentifierWrite value client =>
      cases h
      exact hsheds (r.moves_hapActiveIdentifierWrite value client).sheds
  | activeWrite value client =>
      cases h
      exact hsheds (r.sheds_hapActiveWrite value client)
  | hapConnectionLost client =>
      cases h
      exact hsheds (r.moves_hapConnectionLost client).sheds
  | startSiri target positive =>
      cases h
      exact .calls _ rfl rfl
  | enterSiri t =>
      simp only [step, stepSiri] at h
      split at h
      · next hk =>
        split at h
        · cases h
          exact callsTurn_gotoSiri hk (.inl rfl) (by rintro sid ⟨⟩) rfl
        · split at h
          · cases h
            exact callsTurn_gotoSiri hk (.inl rfl) (by rintro sid ⟨⟩) rfl
          · cases h
            exact callsTurn_gotoSiri hk (.inl rfl) (by rintro sid ⟨⟩) rfl
      · cases h
  | acquireSiri t =>
      simp only [step] at h
      split at h
      · next hwait =>
        cases h
        obtain ⟨k, hk, hpc⟩ := Option.map_eq_some_iff.mp hwait.1
        exact callsTurn_gotoSiri hk (.inr hpc) (by rintro sid ⟨⟩) rfl
      · cases h
  | giveUpSiri t e =>
      simp only [step] at h
      split at h
      · next hwait =>
        cases h
        obtain ⟨k, hk, hpc⟩ := Option.map_eq_some_iff.mp hwait
        exact callsTurn_gotoSiri hk (.inr hpc) (by rintro sid ⟨⟩) rfl
      · cases h
  | runSiri t created =>
      simp only [step] at h
      split at h
      · next hk =>
        rcases r.startSiriLocked_cases opus _ created with
          ⟨e, b, hb, heq⟩ | ⟨c, b, hb, heq⟩
        · rw [heq] at h
          cases h
          refine .moves t ⟨_, _, .acquired⟩ (.raised e) hk (by rintro sid ⟨⟩) (by rintro e ⟨⟩)
            (by rintro sid ⟨⟩) ?_
          rw [gotoSiri, show ({ b with siriLocked := false } :
            AppleTVHomeKitRemote ε json.Text).siriCalls = r.siriCalls from hb.sheds.siriCalls]
          exact modify_of_getElem? hk
        · rw [heq] at h
          cases h
          have hgo : GoesOn opus r b := hb.goesOn
          have hlength := hgo.length_sessions
          refine .moves t ⟨_, _, .acquired⟩ (.returned b.sessions.length) hk (by rintro sid ⟨⟩)
            (by rintro e ⟨⟩) ?_ ?_
          · rintro sid ⟨⟩
            refine ⟨hlength, ?_⟩
            rw [← hlength]
            exact List.length_append
          · have hcalls := hb.sheds.siriCalls
            simp only [gotoSiri, hcalls]
            exact modify_of_getElem? hk
      · cases h
  | session sid b =>
      cases b with
      | response => cases h
      | _ => exact hsheds (.keeps (sessionsOnly_stepSession h).keeps)
  | response sid t status message =>
      have hregister := r.sessionsOnly_registerStream sid status message
      exact hsheds (.keeps (hregister.trans (sessionsOnly_stepSession h)).keeps)
  | watch sid =>
      simp only [step] at h
      split at h
      · split at h
        · cases h
          exact .same rfl
        · cases h
      · cases h

end

end AtvRemote.Remote.AppleTVHomeKitRemote
