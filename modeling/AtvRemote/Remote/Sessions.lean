import AtvRemote.Audio.Standing
import AtvRemote.Remote.Siri

/-!
# What the controller leaves to its Siri sessions

Next to `start_siri`, its watcher and the response that registers a stream, nothing that
happens to the controller does more to Siri than to let a session take steps of its own and to
drop entries of `siri_sessions` (`GoesOn`).  `siriTurn_step` lists the steps so; the laws about
`siri_sessions` are derived from it.
-/

namespace AtvRemote.Remote.AppleTVHomeKitRemote

open Lib Audio

variable {ε T : Type}

/-! ## Going on -/

/-- Nothing of Siri differs. -/
structure SameSiri (r r' : AppleTVHomeKitRemote ε T) : Prop where
  siriSessions : r'.siriSessions = r.siriSessions
  activeSiriSession : r'.activeSiriSession = r.activeSiriSession
  siriWatchTask : r'.siriWatchTask = r.siriWatchTask
  siriLocked : r'.siriLocked = r.siriLocked
  siriCalls : r'.siriCalls = r.siriCalls
  sessions : r'.sessions = r.sessions

/-- The sessions take steps of their own, and entries of `siri_sessions` are dropped. -/
inductive GoesOn (opus : OpusEncoder ε) :
    AppleTVHomeKitRemote ε T → AppleTVHomeKitRemote ε T → Prop
  | rest {r r'} (h : SameSiri r r') : GoesOn opus r r'
  | session (r) (sid : Nat) {f : Session ε → Session ε}
      (hf : ∀ u, r.sessions[sid]? = some u → Session.Progress opus u.session (f u.session)) :
      GoesOn opus r (r.onSession sid f)
  | drop (r) (streamId : Int) :
      GoesOn opus r { r with siriSessions := r.siriSessions.erase streamId }
  | trans {r r' r''} (h : GoesOn opus r r') (h' : GoesOn opus r' r'') : GoesOn opus r r''

namespace GoesOn

variable {opus : OpusEncoder ε} {r r' : AppleTVHomeKitRemote ε T}

theorem refl (r : AppleTVHomeKitRemote ε T) : GoesOn opus r r :=
  .rest ⟨rfl, rfl, rfl, rfl, rfl, rfl⟩

/-- What goes on from a state with the same of Siri. -/
theorem after {b : AppleTVHomeKitRemote ε T} (h : GoesOn opus b r') (hsame : SameSiri r b) :
    GoesOn opus r r' := .trans (.rest hsame) h

instance : Std.Refl (@GoesOn ε T opus) := ⟨refl⟩

instance : IsTrans _ (@GoesOn ε T opus) := ⟨fun _ _ _ ↦ trans⟩

theorem activeSiriSession (h : GoesOn opus r r') : r'.activeSiriSession = r.activeSiriSession := by
  induction h with
  | rest h => exact h.activeSiriSession
  | session => rfl
  | drop => rfl
  | trans _ _ ih ih' => exact ih'.trans ih

theorem siriWatchTask (h : GoesOn opus r r') : r'.siriWatchTask = r.siriWatchTask := by
  induction h with
  | rest h => exact h.siriWatchTask
  | session => rfl
  | drop => rfl
  | trans _ _ ih ih' => exact ih'.trans ih

/-- Entries of `siri_sessions` only go. -/
theorem siriSessions (h : GoesOn opus r r') {streamId : Int} {sid : Nat}
    (hget : r'.siriSessions.get streamId = some sid) : r.siriSessions.get streamId = some sid := by
  induction h with
  | rest h => rwa [h.siriSessions] at hget
  | session => exact hget
  | drop r gone => exact (Dict.get_of_get_erase hget).2
  | trans _ _ ih ih' => exact ih (ih' hget)

/-- A session that is there stays, and goes on. -/
theorem sessions (h : GoesOn opus r r') {sid : Nat} {u : Utterance ε}
    (hu : r.sessions[sid]? = some u) : ∃ u', r'.sessions[sid]? = some u' ∧
      u'.connection = u.connection ∧ Session.Progress opus u.session u'.session := by
  induction h generalizing u with
  | rest h => exact ⟨u, h.sessions ▸ hu, rfl, .refl _⟩
  | @session r sid' f hf =>
      by_cases heq : sid' = sid
      · subst heq
        refine ⟨{ u with session := f u.session }, ?_, rfl, hf u hu⟩
        simp only [onSession, List.getElem?_modify_eq, hu]
        rfl
      · refine ⟨u, ?_, rfl, .refl _⟩
        rw [onSession, List.getElem?_modify_ne _ _ heq]
        exact hu
  | drop => exact ⟨u, hu, rfl, .refl _⟩
  | trans _ _ ih ih' =>
      obtain ⟨u', hu', hc, hgo⟩ := ih hu
      obtain ⟨u'', hu'', hc', hgo'⟩ := ih' hu'
      exact ⟨u'', hu'', hc'.trans hc, Relation.ReflTransGen.trans hgo hgo'⟩

/-- No session is added. -/
theorem length_sessions (h : GoesOn opus r r') : r'.sessions.length = r.sessions.length := by
  induction h with
  | rest h => rw [h.sessions]
  | session => exact List.length_modify ..
  | drop => rfl
  | trans _ _ ih ih' => exact ih'.trans ih

/-- A session that is there now was there before. -/
theorem sessions_before (h : GoesOn opus r r') {sid : Nat} {u' : Utterance ε}
    (hu' : r'.sessions[sid]? = some u') : ∃ u, r.sessions[sid]? = some u ∧
      u'.connection = u.connection ∧ Session.Progress opus u.session u'.session := by
  have hlt : sid < r.sessions.length := by
    rw [← h.length_sessions]
    exact (List.getElem?_eq_some_iff.mp hu').1
  obtain ⟨u'', hu'', hlater⟩ := h.sessions (List.getElem?_eq_getElem hlt)
  rw [hu'] at hu''
  cases hu''
  exact ⟨_, List.getElem?_eq_getElem hlt, hlater⟩

end GoesOn

section

variable {opus : OpusEncoder ε} (r : AppleTVHomeKitRemote ε T)

/-! ## Connections -/

theorem goesOn_failSession (c sid : Nat) : GoesOn opus r (r.failSession c sid) := by
  rw [failSession]
  split
  · split
    · exact .session r sid fun u _ ↦ .single false (.handleClose _) rfl
    · exact .refl r
  · exact .refl r

theorem goesOn_dropSiriSession (c : Nat) (streamId : Int) (sid : Nat) :
    GoesOn opus r (r.dropSiriSession c streamId sid) := by
  rw [dropSiriSession]
  split
  · exact (r.goesOn_failSession c sid).trans (.drop _ streamId)
  · exact .refl r

theorem goesOn_hdsConnectionClosed (c : Nat) : GoesOn opus r (r.hdsConnectionClosed c) := by
  have hregistration : GoesOn opus r (r.dropRegistration c) := by
    rw [dropRegistration_rest]
    exact .rest ⟨rfl, rfl, rfl, rfl, rfl, rfl⟩
  have hactive : GoesOn opus (r.dropRegistration c)
      ((r.dropRegistration c).failActiveSession c) := by
    rw [failActiveSession]
    split
    · exact goesOn_failSession _ c _
    · exact .refl _
  have hdrop : ∀ (r : AppleTVHomeKitRemote ε T) (items : List (Int × Nat)), GoesOn opus r
      (items.foldl (fun r p ↦ r.dropSiriSession c p.1 p.2) r) := fun r items ↦
    rel_foldl (fun r p ↦ r.goesOn_dropSiriSession c p.1 p.2) items r
  exact (hregistration.trans hactive).trans (hdrop _ _)

theorem goesOn_closeConnection (c : Nat) : GoesOn opus r (r.closeConnection c) := by
  rw [closeConnection]
  split
  · exact .refl r
  · exact (goesOn_hdsConnectionClosed _ c).after ⟨rfl, rfl, rfl, rfl, rfl, rfl⟩

theorem goesOn_scheduleSessionCancel (session : Option Nat) :
    GoesOn opus r (r.scheduleSessionCancel session) := by
  rw [scheduleSessionCancel.eq_def]
  split
  · exact .refl r
  · split
    · exact .session r _ fun u _ ↦ .single false (.call (.cancel .cancelled)) rfl
    · exact .refl r

theorem goesOn_deactivate : GoesOn opus r r.deactivate :=
  (goesOn_scheduleSessionCancel _ _).after ⟨rfl, rfl, rfl, rfl, rfl, rfl⟩

end

/-- The moves leave the sessions to themselves, or make them take steps. -/
theorem Move.goesOn {opus : OpusEncoder ε} {r r' : AppleTVHomeKitRemote ε T} (h : Move r r') :
    GoesOn opus r r' := by
  cases h with
  | close c => exact r.goesOn_closeConnection c
  | cancel session => exact r.goesOn_scheduleSessionCancel session
  | save | targets | drop | select | selectFirst | lose =>
      exact .rest ⟨rfl, rfl, rfl, rfl, rfl, rfl⟩

theorem Moves.goesOn {opus : OpusEncoder ε} {r r' : AppleTVHomeKitRemote ε T} (h : Moves r r') :
    GoesOn opus r r' := h.law fun _ _ ↦ Move.goesOn

section

variable {json : JsonText} {opus : OpusEncoder ε} (r : AppleTVHomeKitRemote ε json.Text)

theorem goesOn_hapActiveWrite (value : Obj) (client : Option ClientAddr) :
    GoesOn opus r (r.hapActiveWrite json value client).2 := by
  simp only [hapActiveWrite]
  split
  · exact .refl r
  · split
    · exact .refl r
    · split
      · exact .rest ⟨rfl, rfl, rfl, rfl, rfl, rfl⟩
      · split
        · exact .refl r
        · exact r.goesOn_deactivate

/-! ## Messages -/

theorem goesOn_hdsWhoami (identifier : Int) (c : Nat) :
    GoesOn opus r (r.hdsWhoami json identifier c) := by
  have hreplaced : GoesOn opus r (r.closeReplaced json identifier c) := by
    rcases r.closeReplaced_cases identifier c with heq | ⟨old, heq⟩
    · rw [heq]
      exact .refl r
    · rw [heq]
      exact r.goesOn_closeConnection old
  rw [hdsWhoami]
  split
  · exact r.goesOn_closeConnection c
  · exact hreplaced.trans (.rest ⟨rfl, rfl, rfl, rfl, rfl, rfl⟩)

/-- A call that runs its first step at once. -/
theorem progress_spawn (s : Session ε) (cc : Bool) {call : Call} (hne : call ≠ .open) :
    Session.Progress opus s ((s.spawn call).begin opus cc s.tasks.length call) := by
  have hcall : s.step opus cc (.call call) = some (s.spawn call) := by
    cases call with
    | «open» => exact (hne rfl).elim
    | _ => rfl
  have htask : (s.spawn call).tasks[s.tasks.length]? = some ⟨call, .start⟩ :=
    List.getElem?_concat_length
  have hrun : (s.spawn call).step opus cc (.run s.tasks.length) =
      some ((s.spawn call).begin opus cc s.tasks.length call) := by
    simp only [Session.step, htask, Option.bind_some, Session.runTask]
  exact Relation.ReflTransGen.tail (Session.Progress.single cc _ hcall) ⟨cc, _, hrun⟩

theorem goesOn_hdsDataSend (c : Nat) (ack : Bool) (message : List (Obj × Obj)) :
    GoesOn opus r (r.hdsDataSend json opus c ack message).2 := by
  rw [hdsDataSend]
  split
  · split
    · split
      · split
        · exact .refl r
        · split
          · generalize (getD message "endOfStream" (.bool false)).truthy = endOfStream
            dsimp only
            refine .session r _ fun u _ ↦ ?_
            exact progress_spawn u.session (r.isClosed c) nofun
          · split
            · next reason _ =>
              dsimp only
              refine .session r _ fun u _ ↦ ?_
              exact Session.Progress.single false (.handleClose reason) rfl
            · exact .refl r
      · exact .refl r
    · exact .refl r
  · split <;> exact .refl r
  · exact .refl r

theorem goesOn_dispatch (c : Nat) (protocol topic : PyStr) (message : List (Obj × Obj)) :
    GoesOn opus r (r.dispatch json opus c protocol topic message) := by
  have hevent : GoesOn opus r (r.hdsEvent json opus c protocol topic message).2 := by
    rw [hdsEvent]
    split
    · exact .refl r
    · split
      · exact r.goesOn_hdsDataSend c true message
      · split
        · exact r.goesOn_hdsDataSend c false message
        · exact .refl r
  rcases r.dispatch_cases opus c protocol topic message with
    ⟨identifier, -, heq⟩ | ⟨-, b, hb, heq⟩
  · rw [heq]
    exact (goesOn_hdsWhoami _ _ _).after ⟨rfl, rfl, rfl, rfl, rfl, rfl⟩
  · have hgo : GoesOn opus r b := by
      rcases hb with rfl | rfl
      · exact .refl b
      · exact hevent
    rcases heq with heq | heq
    · rw [heq]
      exact hgo
    · rw [heq]
      exact hgo.trans (b.goesOn_closeConnection c)

/-! ## Steps -/

/-- What a step does to Siri. -/
inductive SiriTurn (opus : OpusEncoder ε) (r : AppleTVHomeKitRemote ε json.Text) (a : Label) :
    AppleTVHomeKitRemote ε json.Text → Prop
  | goesOn (r') (h : GoesOn opus r r') : SiriTurn opus r a r'
  /-- A response opens a stream, and the session is registered under its id. -/
  | registers (r') (sid t : Nat) (status : Int) (message : List (Obj × Obj)) (streamId : Int)
      (ha : a = .response sid t status message)
      (hid : Session.openedStream status message = (some streamId, none))
      (hfree : r.siriSessions.get streamId = none ∨ r.siriSessions.get streamId = some sid)
      (h : stepSession json opus { r with siriSessions := r.siriSessions.set streamId sid } sid
        (.response t status message none) = some r') : SiriTurn opus r a r'
  /-- A call of `start_siri` moves, or takes the lock. -/
  | calls (r') (hsessions : r'.sessions = r.sessions)
      (hstreams : r'.siriSessions = r.siriSessions)
      (hactive : r'.activeSiriSession = r.activeSiriSession)
      (hwatch : r'.siriWatchTask = r.siriWatchTask) : SiriTurn opus r a r'
  /-- A call that has the lock raises. -/
  | fails (t : Nat) (k : SiriCall) (e : PyErr) (b : AppleTVHomeKitRemote ε json.Text)
      (hk : r.siriCalls[t]? = some k) (hpc : k.pc = .acquired) (hb : GoesOn opus r b) :
      SiriTurn opus r a (gotoSiri json { b with siriLocked := false } t (.raised e))
  /-- A call that has the lock starts a session. -/
  | starts (t : Nat) (k : SiriCall) (b : AppleTVHomeKitRemote ε json.Text) (c : Nat)
      (hk : r.siriCalls[t]? = some k) (hpc : k.pc = .acquired) (hb : GoesOn opus r b) :
      SiriTurn opus r a (gotoSiri json { b with
        sessions := b.sessions ++ [⟨(Session.new opus.init).start, c, b.activeIdentifier, true⟩]
        activeSiriSession := some b.sessions.length
        siriWatchTask := some b.sessions.length } t (.returned b.sessions.length))
  /-- The watcher of a closed session runs. -/
  | ends (sid : Nat) (u : Utterance ε) (ha : a = .watch sid) (hu : r.sessions[sid]? = some u)
      (hclosed : u.session.closed = true) : SiriTurn opus r a (r.siriSessionEnded json sid u)

variable {r}

theorem goesOn_stepSession {r' : AppleTVHomeKitRemote ε json.Text} {sid : Nat} {a : Session.Label}
    (h : r.stepSession json opus sid a = some r') : GoesOn opus r r' := by
  obtain ⟨u, hu, hstep⟩ := Option.bind_eq_some_iff.mp h
  obtain ⟨s, hs, rfl⟩ := Option.map_eq_some_iff.mp hstep
  refine .session r sid fun u' hu' ↦ ?_
  rw [hu] at hu'
  cases hu'
  exact .single _ a hs

/-- The response to the open request of a session opens a free stream, or registers nothing. -/
theorem siriResponse_cases {r' : AppleTVHomeKitRemote ε json.Text} {sid t : Nat} {status : Int}
    {message : List (Obj × Obj)} (h : r.siriResponse json opus sid t status message = some r') :
    (∃ streamId, Session.openedStream status message = (some streamId, none) ∧
        (r.siriSessions.get streamId = none ∨ r.siriSessions.get streamId = some sid) ∧
        stepSession json opus { r with siriSessions := r.siriSessions.set streamId sid } sid
          (.response t status message none) = some r') ∨
      GoesOn opus r r' ∧ ∀ streamId,
        Session.openedStream status message = (some streamId, none) →
        r.siriSessions.get streamId ≠ none := by
  rw [siriResponse] at h
  by_cases hopened : ∃ streamId, Session.openedStream status message = (some streamId, none)
  · obtain ⟨streamId, hid⟩ := hopened
    have hregister : r.registerStream json sid status message =
        r.siriSessionOpened json sid streamId := by
      rw [registerStream, hid]
    rw [hregister, siriSessionOpened] at h
    split at h
    · next hfree => exact .inl ⟨streamId, hid, hfree, h⟩
    · next htaken =>
      refine .inr ⟨goesOn_stepSession h, fun streamId' hid' hnone ↦ htaken (.inl ?_)⟩
      rw [hid] at hid'
      cases hid'
      exact hnone
  · have hother : r.registerStream json sid status message = (none, r) := by
      rw [registerStream]
      split
      · next streamId hid => exact (hopened ⟨streamId, hid⟩).elim
      · rfl
    rw [hother] at h
    exact .inr ⟨goesOn_stepSession h, fun streamId hid ↦ (hopened ⟨streamId, hid⟩).elim⟩

variable (opus)

/-- `start_siri` behind the lock raises, or starts a session. -/
theorem siriTurn_runSiri (a : Label) {t : Nat} {k : SiriCall} (hk : r.siriCalls[t]? = some k)
    (hpc : k.pc = .acquired) (created : Option PyErr) :
    SiriTurn opus r a (match r.startSiriLocked json opus k.target created with
      | (.ok sid, r) => r.gotoSiri json t (.returned sid)
      | (.error e, r) => r.gotoSiri json t (.raised e)) := by
  have hselect : GoesOn opus r (r.selectSiri json k.target).2 :=
    (r.moves_selectSiri k.target).goesOn
  rw [startSiriLocked]
  generalize r.selectSiri json k.target = x at hselect ⊢
  obtain ⟨result, b⟩ := x
  cases result with
  | error e => exact .fails t k e b hk hpc hselect
  | ok =>
      simp only [Remote.thenDo]
      rcases b.createSiri_cases opus created with ⟨e, heq⟩ | ⟨c, -, -, heq⟩
      · rw [heq]
        exact .fails t k e b hk hpc hselect
      · rw [heq]
        exact .starts t k b c hk hpc hselect

variable {opus}

/-- **The steps of the controller, seen from Siri.** -/
theorem siriTurn_step {r' : AppleTVHomeKitRemote ε json.Text} {a : Label}
    (h : r.step json opus a = some r') : SiriTurn opus r a r' := by
  cases a with
  | start | saveFaults | accept =>
      cases h
      exact .goesOn _ (.rest ⟨rfl, rfl, rfl, rfl, rfl, rfl⟩)
  | close c =>
      cases h
      exact .goesOn _ (r.goesOn_closeConnection c)
  | message c protocol topic content =>
      simp only [step] at h
      split at h
      · cases h
        exact .goesOn _ (r.goesOn_dispatch c protocol topic content)
      · cases h
  | targetListWrite value client admin =>
      cases h
      exact .goesOn _ (r.moves_hapTargetListWrite value client admin).goesOn
  | setActiveIdentifier identifier =>
      cases h
      exact .goesOn _ (r.moves_setActiveIdentifier identifier).goesOn
  | activeIdentifierWrite value client =>
      cases h
      exact .goesOn _ (r.moves_hapActiveIdentifierWrite value client).goesOn
  | activeWrite value client =>
      cases h
      exact .goesOn _ (r.goesOn_hapActiveWrite value client)
  | hapConnectionLost client =>
      cases h
      exact .goesOn _ (r.moves_hapConnectionLost client).goesOn
  | startSiri target positive =>
      cases h
      exact .calls _ rfl rfl rfl rfl
  | enterSiri t =>
      simp only [step, stepSiri] at h
      split at h
      · split at h
        · cases h
          exact .calls _ rfl rfl rfl rfl
        · split at h
          · cases h
            exact .calls _ rfl rfl rfl rfl
          · cases h
            exact .calls _ rfl rfl rfl rfl
      · cases h
  | acquireSiri t =>
      simp only [step] at h
      split at h
      · cases h
        exact .calls _ rfl rfl rfl rfl
      · cases h
  | giveUpSiri t e =>
      simp only [step] at h
      split at h
      · cases h
        exact .calls _ rfl rfl rfl rfl
      · cases h
  | runSiri t created =>
      simp only [step] at h
      split at h
      · next target _ hk =>
        have hrun := siriTurn_runSiri opus (.runSiri t created) hk rfl created
        split at h
        · next heq =>
          cases h
          rw [heq] at hrun
          exact hrun
        · next heq =>
          cases h
          rw [heq] at hrun
          exact hrun
      · cases h
  | session sid a =>
      cases a with
      | response => cases h
      | _ => exact .goesOn r' (goesOn_stepSession h)
  | response sid t status message =>
      rcases siriResponse_cases h with ⟨streamId, hid, hfree, h⟩ | ⟨h, -⟩
      · exact .registers r' sid t status message streamId rfl hid hfree h
      · exact .goesOn r' h
  | watch sid =>
      simp only [step] at h
      split at h
      · next u hu =>
        split at h
        · next hwatch =>
          cases h
          simp only [Bool.and_eq_true] at hwatch
          exact .ends sid u rfl hu hwatch.2
        · cases h
      · cases h

end

end AtvRemote.Remote.AppleTVHomeKitRemote
