import AtvRemote.Remote.Sessions

/-!
# The registered streams

`siri_sessions` leads from a stream id to the session that opened the stream.  A session is
registered by its open task, which does not look whether the session is still the active one,
and is removed by its watcher and by the close of its connection, under a stream id that may
not be assigned yet when these run.  So a session stays behind when its watcher has run before
its open task goes on.  `streamRegistry_iff` says that this is the only way for the registry to
go wrong.
-/

namespace AtvRemote.Remote

open Lib Audio

variable {ε T : Type}

namespace AppleTVHomeKitRemote

/-- Every entry is the stream of the active session. -/
def StreamsActive (r : AppleTVHomeKitRemote ε T) : Prop :=
  ∀ streamId sid, r.siriSessions.get streamId = some sid → r.activeSiriSession = some sid ∧
    ∃ u, r.sessions[sid]? = some u ∧ u.session.streamId = some streamId

/-- Every session is proper. -/
def SessionsProper (r : AppleTVHomeKitRemote ε T) : Prop :=
  ∀ (sid : Nat) (u : Utterance ε), r.sessions[sid]? = some u → u.session.Proper

/-- What the registry of the streams is good for. -/
structure StreamRegistry (json : JsonText) (opus : OpusEncoder ε)
    (r : AppleTVHomeKitRemote ε json.Text) : Prop where
  /-- An entry is the stream of the active session. -/
  entries : r.StreamsActive
  /-- There is at most one entry. -/
  single : ∀ streamId streamId' sid sid', r.siriSessions.get streamId = some sid →
    r.siriSessions.get streamId' = some sid' → streamId = streamId' ∧ sid = sid'
  /-- No session stays registered once the lock is free. -/
  free : r.siriLocked = false → ∀ streamId, r.siriSessions.get streamId = none
  /-- The active session is not refused a stream that it opens. -/
  opens : ∀ sid streamId, r.activeSiriSession = some sid →
    (r.siriSessionOpened json sid streamId).1 = none
  /-- A message reaches no session but the active one, on the connection of the session. -/
  delivers : ∀ (c : Nat) (protocol topic : PyStr) (message : List (Obj × Obj)) (sid : Nat)
    (u : Utterance ε), r.sessions[sid]? = some u →
    (r.hdsEvent json opus c protocol topic message).2.sessions[sid]? ≠ some u →
    r.activeSiriSession = some sid ∧ u.connection = c

/-- A response that opens a free stream comes to the active session. -/
def RegistersActive (r : AppleTVHomeKitRemote ε T) : Label → Prop
  | .response sid t status message => ∀ (u : Utterance ε) (streamId : Int),
      r.sessions[sid]? = some u → u.session.pc? t = some .awaitResponse →
      Session.openedStream status message = (some streamId, none) →
      r.siriSessions.get streamId = none → r.activeSiriSession = some sid
  | _ => True

section

variable {json : JsonText} {opus : OpusEncoder ε} {r r' : AppleTVHomeKitRemote ε json.Text}

/-! ## What follows for the registry -/

variable (opus)

/-- A message changes at most the session that its stream leads to. -/
theorem sessions_hdsEvent (c : Nat) (protocol topic : PyStr) (message : List (Obj × Obj)) :
    (r.hdsEvent json opus c protocol topic message).2 = r ∨
      ∃ (streamId : Int) (sid : Nat) (u : Utterance ε) (f : Session ε → Session ε),
        r.siriSessions.get streamId = some sid ∧ r.sessions[sid]? = some u ∧ u.connection = c ∧
        (r.hdsEvent json opus c protocol topic message).2 = r.onSession sid f := by
  have hdata : ∀ ack, (r.hdsDataSend json opus c ack message).2 = r ∨
      ∃ (streamId : Int) (sid : Nat) (u : Utterance ε) (f : Session ε → Session ε),
        r.siriSessions.get streamId = some sid ∧ r.sessions[sid]? = some u ∧ u.connection = c ∧
        (r.hdsDataSend json opus c ack message).2 = r.onSession sid f := by
    intro ack
    rw [hdsDataSend]
    split
    · next streamId _ =>
      split
      · next sid hget =>
        split
        · next u hu =>
          split
          · exact .inl rfl
          · next hc =>
            have hc : u.connection = c := not_not.mp hc
            split
            · dsimp only
              exact .inr ⟨streamId, sid, u, _, hget, hu, hc, rfl⟩
            · split
              · dsimp only
                exact .inr ⟨streamId, sid, u, _, hget, hu, hc, rfl⟩
              · exact .inl rfl
        · exact .inl rfl
      · exact .inl rfl
    · split <;> exact .inl rfl
    · exact .inl rfl
  rw [hdsEvent]
  split
  · exact .inl rfl
  · split
    · exact hdata true
    · split
      · exact hdata false
      · exact .inl rfl

variable {opus}

/-- **All of it follows from the entries and the lock.** -/
theorem StreamsActive.registry (hr : r.StreamsActive) (hlock : r.SingleUtterance) :
    r.StreamRegistry json opus where
  entries := hr
  single streamId streamId' sid sid' h h' := by
    obtain ⟨hactive, u, hu, hid⟩ := hr streamId sid h
    obtain ⟨hactive', u', hu', hid'⟩ := hr streamId' sid' h'
    rw [hactive] at hactive'
    cases hactive'
    rw [hu] at hu'
    cases hu'
    rw [hid] at hid'
    exact ⟨Option.some.inj hid', rfl⟩
  free hfree streamId := by
    cases hget : r.siriSessions.get streamId with
    | none => rfl
    | some sid =>
        have hlocked := hlock.locked (Option.isSome_of_eq_some (hr streamId sid hget).1)
        rw [hfree] at hlocked
        cases hlocked
  opens sid streamId hactive := by
    rw [siriSessionOpened]
    refine congrArg Prod.fst (if_pos ?_)
    cases hget : r.siriSessions.get streamId with
    | none => exact .inl rfl
    | some sid' =>
        have hactive' := (hr streamId sid' hget).1
        rw [hactive] at hactive'
        exact .inr hactive'.symm
  delivers c protocol topic message sid u hu hchanged := by
    rcases sessions_hdsEvent opus c protocol topic message with
      heq | ⟨streamId, sid', u', f, hget, hu', hc, heq⟩
    · rw [heq] at hchanged
      exact (hchanged hu).elim
    · have hsid : sid' = sid := by
        by_contra hne
        rw [heq, onSession, List.getElem?_modify_ne _ _ hne] at hchanged
        exact hchanged hu
      subst hsid
      rw [hu] at hu'
      cases hu'
      exact ⟨(hr streamId sid' hget).1, hc⟩

/-! ## Steps -/

theorem GoesOn.sessionsProper (h : GoesOn opus r r') (hr : r.SessionsProper) :
    r'.SessionsProper := by
  intro sid u' hu'
  obtain ⟨u, hu, -, hgo⟩ := h.sessions_before hu'
  exact hgo.proper (hr sid u hu)

theorem GoesOn.streamsActive (h : GoesOn opus r r') (hs : r.SessionsProper)
    (hr : r.StreamsActive) : r'.StreamsActive := by
  intro streamId sid hget
  obtain ⟨hactive, u, hu, hid⟩ := hr streamId sid (h.siriSessions hget)
  obtain ⟨u', hu', -, hgo⟩ := h.sessions hu
  exact ⟨h.activeSiriSession.trans hactive, u', hu', hgo.assigned (hs sid u hu) hid⟩

/-- A step of a session in which a response opens a stream. -/
theorem stepSession_response {sid t : Nat} {status : Int} {message : List (Obj × Obj)}
    (h : r.stepSession json opus sid (.response t status message none) = some r') :
    ∃ u s, r.sessions[sid]? = some u ∧ u.session.pc? t = some .awaitResponse ∧
      u.session.step opus (r.isClosed u.connection) (.response t status message none) = some s ∧
      r' = r.onSession sid fun _ ↦ s := by
  obtain ⟨u, hu, hstep⟩ := Option.bind_eq_some_iff.mp h
  obtain ⟨s, hs, rfl⟩ := Option.map_eq_some_iff.mp hstep
  refine ⟨u, s, hu, ?_, hs, rfl⟩
  rw [Session.step] at hs
  split at hs
  · next hawait => exact hawait
  · cases hs

/-- A response that opens a stream keeps to the active session exactly when it comes to it. -/
theorem streamsActive_registers (hs : r.SessionsProper) (hr : r.StreamsActive) {sid t : Nat}
    {status : Int} {message : List (Obj × Obj)} {streamId : Int}
    (hid : Session.openedStream status message = (some streamId, none))
    (hfree : r.siriSessions.get streamId = none ∨ r.siriSessions.get streamId = some sid)
    (h : stepSession json opus { r with siriSessions := r.siriSessions.set streamId sid } sid
      (.response t status message none) = some r') :
    r'.SessionsProper ∧
      (r'.StreamsActive ↔ r.RegistersActive (.response sid t status message)) := by
  obtain ⟨u, s, hu, hawait, hstep, rfl⟩ := stepSession_response h
  have hu : r.sessions[sid]? = some u := hu
  have hnone := ((hs sid u hu).awaiting hawait).2
  -- a session that awaits the response is not registered
  have hunregistered : ∀ streamId', r.siriSessions.get streamId' ≠ some sid := by
    intro streamId' hget
    obtain ⟨-, u', hu', hid'⟩ := hr streamId' sid hget
    rw [hu] at hu'
    cases hu'
    rw [hnone] at hid'
    cases hid'
  have hself : (r.sessions.modify sid fun u ↦ { u with session := s })[sid]? =
      some { u with session := s } := by
    rw [List.getElem?_modify_eq, hu]
    rfl
  refine ⟨fun sid' u' hu' ↦ ?_, fun hactive ↦ ?_, fun hok streamId' sid' hget ↦ ?_⟩
  · by_cases hsid : sid' = sid
    · subst hsid
      rw [show u' = { u with session := s } from Option.some.inj (hu'.symm.trans hself)]
      exact (hs sid' u hu).step hstep
    · rw [onSession, List.getElem?_modify_ne _ _ (Ne.symm hsid)] at hu'
      exact hs sid' u' hu'
  · intro _ _ _ _ _ _
    exact (hactive streamId sid (Dict.get_set_self ..)).1
  · have hactive := hok u streamId hu hawait hid (hfree.resolve_right (hunregistered streamId))
    have hset : (r.siriSessions.set streamId sid).get streamId' = some sid' := hget
    rw [Dict.get_set] at hset
    split at hset
    · next heq =>
      subst heq
      cases hset
      exact ⟨hactive, _, hself, (hs sid u hu).streamId_response hid hstep⟩
    · -- the other entries were the stream of the active session too
      have hother := (hr streamId' sid' hset).1
      rw [hactive] at hother
      cases hother
      exact (hunregistered streamId' hset).elim

/-- The watcher of a session takes its entry away. -/
theorem streamsActive_ended (hs : r.SessionsProper) (hr : r.StreamsActive) {sid : Nat}
    {u : Utterance ε} (hu : r.sessions[sid]? = some u) :
    (r.siriSessionEnded json sid u).SessionsProper ∧
      (r.siriSessionEnded json sid u).StreamsActive := by
  have hsessions : ∀ (sid' : Nat) (u' : Utterance ε), r.sessions[sid']? = some u' →
      ∃ u'', (r.siriSessionEnded json sid u).sessions[sid']? = some u'' ∧
        u''.session = u'.session := by
    intro sid' u' hu'
    simp only [siriSessionEnded, List.getElem?_modify, hu']
    split
    · exact ⟨_, rfl, rfl⟩
    · exact ⟨u', rfl, rfl⟩
  refine ⟨fun sid' u' hu' ↦ ?_, fun streamId sid' hget ↦ ?_⟩
  · simp only [siriSessionEnded, List.getElem?_modify] at hu'
    obtain ⟨u₀, hu₀, rfl⟩ := Option.map_eq_some_iff.mp hu'
    split <;> exact hs sid' u₀ hu₀
  · -- an entry that stays was there before, and is another one than that of the session
    obtain ⟨hget₀, hother⟩ : r.siriSessions.get streamId = some sid' ∧
        (u.session.streamId = some streamId → r.siriSessions.get streamId ≠ some sid) := by
      simp only [siriSessionEnded] at hget
      split at hget
      · next own hid =>
        split at hget
        · obtain ⟨hne, hget⟩ := Dict.get_of_get_erase hget
          refine ⟨hget, fun h ↦ (hne ?_).elim⟩
          rw [hid] at h
          exact (Option.some.inj h).symm
        · next hno =>
          refine ⟨hget, fun h ↦ ?_⟩
          rw [hid] at h
          cases h
          exact hno
      · next hid =>
        refine ⟨hget, fun h ↦ ?_⟩
        rw [hid] at h
        cases h
    obtain ⟨hactive, u', hu', hid⟩ := hr streamId sid' hget₀
    have hne : sid' ≠ sid := by
      rintro rfl
      rw [hu] at hu'
      cases hu'
      exact hother hid hget₀
    obtain ⟨u'', hu'', hsame⟩ := hsessions sid' u' hu'
    refine ⟨?_, u'', hu'', by rw [hsame]; exact hid⟩
    simp only [siriSessionEnded]
    rw [if_neg]
    · exact hactive
    · rw [hactive]
      exact fun h ↦ hne (Option.some.inj h)

theorem SiriTurn.streamsActive (hlock : r.SingleUtterance) (hs : r.SessionsProper)
    (hr : r.StreamsActive) {a : Label} (h : SiriTurn opus r a r')
    (hno : ∀ sid t status message, a ≠ .response sid t status message) :
    r'.SessionsProper ∧ r'.StreamsActive := by
  cases h with
  | goesOn r' h => exact ⟨h.sessionsProper hs, h.streamsActive hs hr⟩
  | registers r' sid t status message streamId ha => exact (hno sid t status message ha).elim
  | calls r' hsessions hstreams hactive =>
      refine ⟨fun sid u hu ↦ hs sid u (hsessions ▸ hu), fun streamId sid hget ↦ ?_⟩
      rw [hactive, hsessions]
      exact hr streamId sid (hstreams ▸ hget)
  | fails t k e b hk hpc hb => exact ⟨hb.sessionsProper hs, hb.streamsActive hs hr⟩
  | starts t k b c hk hpc hb =>
      have hnone : b.activeSiriSession = none :=
        hb.activeSiriSession.trans (hlock.acquired t k hk hpc).2.1
      refine ⟨fun sid u hu ↦ ?_, fun streamId sid hget ↦ ?_⟩
      · rcases getElem?_concat_eq_some.mp hu with hold | ⟨-, rfl⟩
        · exact hb.sessionsProper hs sid u hold
        · exact Session.proper_start opus
      · have hactive := (hb.streamsActive hs hr streamId sid hget).1
        rw [hnone] at hactive
        cases hactive
  | ends sid u _ hu => exact streamsActive_ended hs hr hu

/-- **A step keeps the entries right exactly when no response registers a session that is not
active.** -/
theorem streamsActive_step (hlock : r.SingleUtterance) (hs : r.SessionsProper)
    (hr : r.StreamsActive) {a : Label} (h : r.step json opus a = some r') :
    r'.SessionsProper ∧ (r'.StreamsActive ↔ r.RegistersActive a) := by
  cases a with
  | response sid t status message =>
      rcases siriResponse_cases h with ⟨streamId, hid, hfree, h⟩ | ⟨h, htaken⟩
      · exact streamsActive_registers hs hr hid hfree h
      · refine ⟨h.sessionsProper hs, fun _ u streamId _ _ hid hfree ↦ ?_, fun _ ↦
          h.streamsActive hs hr⟩
        exact (htaken streamId hid hfree).elim
  | _ =>
      obtain ⟨hs', hr'⟩ := (siriTurn_step h).streamsActive hlock hs hr nofun
      exact ⟨hs', fun _ ↦ trivial, fun _ ↦ hr'⟩

end

end AppleTVHomeKitRemote

open AppleTVHomeKitRemote

/-! ## Runs -/

/-- **The registry of the streams is right throughout a run exactly when every response that
opens a free stream comes to the active session.** -/
theorem streamRegistry_iff (json : JsonText) (opus : OpusEncoder ε) (file : Option json.Text)
    (h : List (AppleTVHomeKitRemote ε json.Text × Label)) (r : AppleTVHomeKitRemote ε json.Text)
    (hrun : (remotes json opus file).Run h r) :
    ((∀ p ∈ h, p.1.StreamRegistry json opus) ∧ r.StreamRegistry json opus) ↔
      ∀ p ∈ h, p.1.RegistersActive p.2 := by
  suffices hmain : (r.StreamsActive → r.StreamRegistry json opus) ∧
      ((∀ p ∈ h, p.1.RegistersActive p.2) → r.SessionsProper ∧ r.StreamsActive) ∧
      (((∀ p ∈ h, p.1.StreamRegistry json opus) ∧ r.StreamRegistry json opus) ↔
        ∀ p ∈ h, p.1.RegistersActive p.2) from hmain.2.2
  induction hrun with
  | @init r hinit =>
      have hinit : r = .new json file := hinit
      subst hinit
      have hactive : (new json file : AppleTVHomeKitRemote ε json.Text).StreamsActive := by
        intro streamId sid hget
        cases hget
      have hsessions : (new json file : AppleTVHomeKitRemote ε json.Text).SessionsProper := by
        intro sid u hu
        cases hu
      have hregistry :
          (new json file : AppleTVHomeKitRemote ε json.Text).StreamRegistry json opus :=
        hactive.registry (singleUtterance_new file)
      exact ⟨fun _ ↦ hregistry, fun _ ↦ ⟨hsessions, hactive⟩, fun _ ↦ List.forall_mem_nil _,
        fun _ ↦ ⟨List.forall_mem_nil _, hregistry⟩⟩
  | @step h r r' a hrun hstep ih =>
      obtain ⟨hregistry, hok, hiff⟩ := ih
      have hlock : r.SingleUtterance := singleUtterance json opus file r hrun.reachable
      have hregistry' : r'.StreamsActive → r'.StreamRegistry json opus := fun hactive ↦
        hactive.registry (hlock.step hstep)
      have hsplit : ∀ P : AppleTVHomeKitRemote ε json.Text × Label → Prop,
          (∀ p ∈ h ++ [(r, a)], P p) ↔ (∀ p ∈ h, P p) ∧ P (r, a) := by
        intro P
        simp [or_imp, forall_and]
      refine ⟨hregistry', fun hall ↦ ?_, fun ⟨hall, hlast⟩ ↦ ?_, fun hall ↦ ?_⟩
      · obtain ⟨hbefore, ha⟩ := (hsplit fun p ↦ p.1.RegistersActive p.2).mp hall
        obtain ⟨hs, hr⟩ := hok hbefore
        obtain ⟨hs', hactive⟩ := streamsActive_step hlock hs hr hstep
        exact ⟨hs', hactive.mpr ha⟩
      · have hbefore := hiff.mp ((hsplit fun p ↦ p.1.StreamRegistry json opus).mp hall)
        obtain ⟨hs, hr⟩ := hok hbefore
        obtain ⟨-, hactive⟩ := streamsActive_step hlock hs hr hstep
        exact (hsplit fun p ↦ p.1.RegistersActive p.2).mpr ⟨hbefore, hactive.mp hlast.entries⟩
      · obtain ⟨hbefore, ha⟩ := (hsplit fun p ↦ p.1.RegistersActive p.2).mp hall
        obtain ⟨hs, hr⟩ := hok hbefore
        obtain ⟨-, hactive⟩ := streamsActive_step hlock hs hr hstep
        exact ⟨(hsplit fun p ↦ p.1.StreamRegistry json opus).mpr (hiff.mpr hbefore),
          hregistry' (hactive.mpr ha)⟩

/-- An utterance is started, and its open request is sent. -/
def requested : List Label :=
  [.start, .targetListWrite (.ofString "AQECAgYBBAEAAAA=") (some ⟨"hub", 1⟩) true,
    .accept ⟨"hub", 1⟩, .whoami 0 1, .activeWrite (.int 1) (some ⟨"hub", 1⟩),
    .startSiri none true, .enterSiri 0, .runSiri 0 none, .session 0 (.run 0), .session 0 (.sent 0),
    .session 0 (.resume 0)]

/-- The response that opens stream 7. -/
def opened : Label := .response 0 0 0 [(.text "streamId", .int 7)]

/-- The stream of an utterance that is opened while it is active. -/
theorem streamRegistry_iff_opened :
    ∃ r, (remotes .documents .verbatim none).exec (.new .documents none)
        (requested ++ [opened]) = some r ∧ r.siriSessions.items = [(7, 0)] ∧
      (((∀ p ∈ (remotes .documents .verbatim none).trace (.new .documents none)
            (requested ++ [opened]), p.1.StreamRegistry .documents .verbatim) ∧
          r.StreamRegistry .documents .verbatim) ↔
        ∀ p ∈ (remotes .documents .verbatim none).trace (.new .documents none)
          (requested ++ [opened]), p.1.RegistersActive p.2) := by
  have hitems : ((remotes .documents .verbatim none).exec (.new .documents none)
      (requested ++ [opened])).map (fun r ↦ r.siriSessions.items) = some [(7, 0)] := by
    decide +kernel
  obtain ⟨r, hr, hstream⟩ := Option.map_eq_some_iff.mp hitems
  have hinit : (remotes .documents .verbatim none).Run [] (.new .documents none) := .init rfl
  exact ⟨r, hr, hstream, streamRegistry_iff .documents .verbatim none _ r (hinit.exec hr)⟩

/-- The connection closes behind the response, and the watcher runs before the open task goes
on: the session is registered for good. -/
theorem not_streamRegistry_of_watched :
    ∃ r, (remotes .documents .verbatim none).Reachable r ∧ r.siriLocked = false ∧
      r.siriSessions.get 7 = some 0 ∧ ¬ r.StreamRegistry .documents .verbatim := by
  have hstays : ((remotes .documents .verbatim none).exec (.new .documents none)
      (requested ++ [.close 0, .watch 0, opened])).map
        (fun r ↦ (r.siriLocked, r.siriSessions.get 7)) = some (false, some 0) := by
    decide +kernel
  obtain ⟨r, hr, hfound⟩ := Option.map_eq_some_iff.mp hstays
  obtain ⟨hfree, hget⟩ := Prod.mk.inj hfound
  have hinit : (remotes .documents .verbatim none).Reachable (.new .documents none) := .init rfl
  refine ⟨r, hinit.exec hr, hfree, hget, fun h ↦ ?_⟩
  rw [h.free hfree 7] at hget
  cases hget

end AtvRemote.Remote
