import AtvRemote.Remote.Network

/-!
# A client that is lost

`Linked` is what holds between the controller and its server: the same connections, and none
that is closed on the server's side and open on the controller's.  With the law of the server
(`HDSServer.Revoked`) it gives the law of both: once `_hap_connection_lost` has run for a
client, nothing that was derived for it can be used until it sets up a data stream again, and
it is not the active client until it writes `Active` again.
-/

namespace AtvRemote.Remote

open Lib Audio Hds Relation

variable {ε T : Type}

namespace Network

/-! ## The two sides -/

/-- The controller and its server have the same connections. -/
structure Linked (n : Network ε T) : Prop where
  table : n.server.Table
  opened : n.server.Opened
  listed : n.server.Listed
  length : n.remote.connections.length = n.server.opened.length
  /-- What the server has closed, the controller sees closed. -/
  closed : ∀ (i : Nat) (c : HDSConnection), n.server.opened[i]? = some c → c.closed = true →
    n.remote.isClosed i = true
  single : n.remote.SingleUtterance

/-- Closing connections does not change their number. -/
theorem length_sheds {r r' : AppleTVHomeKitRemote ε T} (h : AppleTVHomeKitRemote.Sheds r r') :
    r'.connections.length = r.connections.length := by
  induction h with
  | keeps h => rw [h.connections]
  | closes c h => rw [h.connections, List.length_modify]
  | drops => rfl
  | trans _ _ ih ih' => rw [ih', ih]

/-- A connection that is closed stays closed, and the one that is closed is. -/
theorem isClosed_closeConnection (r : AppleTVHomeKitRemote ε T) (c i : Nat) :
    (r.closeConnection c).isClosed i = (r.isClosed i || i == c) := by
  rw [AppleTVHomeKitRemote.isClosed, (AppleTVHomeKitRemote.closes_closeConnection r c).connections,
    AppleTVHomeKitRemote.isClosed]
  rcases eq_or_ne i c with rfl | hne
  · rw [List.getElem?_modify_eq]
    cases r.connections[i]? <;> simp
  · rw [List.getElem?_modify_ne _ _ hne.symm]
    simp [hne]

theorem isClosed_closings (r : AppleTVHomeKitRemote ε T) (cs : List Nat) (i : Nat) :
    (cs.foldl AppleTVHomeKitRemote.closeConnection r).isClosed i =
      (r.isClosed i || decide (i ∈ cs)) := by
  induction cs generalizing r with
  | nil => simp
  | cons c cs ih =>
      rw [List.foldl_cons, ih, isClosed_closeConnection]
      simp [Bool.or_assoc, Bool.beq_eq_decide_eq]

/-- The places stay when connections are closed. -/
theorem length_closings (s : HDSServer) (is : List Nat) :
    (is.foldl HDSServer.closeConnection s).opened.length = s.opened.length := by
  induction is generalizing s with
  | nil => rfl
  | cons i is ih =>
      rw [List.foldl_cons, ih, HDSServer.closeConnection]
      split
      · rw [HDSServer.setConnection, List.length_set]
      · rfl

/-- The server closes connections, and does nothing else, when it settles. -/
theorem steps_settle (C : Crypto) (reprOf : Obj → String) (ok : HDSServer.Label → Prop)
    (n : Network ε T) :
    ReflTransGen (HDSServer.ServerStep C reprOf ok) n.server n.settle.server :=
  HDSServer.ServerStep.closings n.server _

/-- The controller only sheds when it settles. -/
theorem sheds_settle (n : Network ε T) :
    AppleTVHomeKitRemote.Sheds n.remote n.settle.remote :=
  (n.remote.moves_closings _).sheds

/-- **What settles is linked.** -/
theorem linked_settle {n : Network ε T} (htable : n.settle.server.Table)
    (hopened : n.settle.server.Opened) (hlisted : n.settle.server.Listed)
    (hlength : n.remote.connections.length = n.server.opened.length)
    (hsingle : n.remote.SingleUtterance) : n.settle.Linked := by
  refine ⟨htable, hopened, hlisted, ?_, fun i c' hc' hclosed ↦ ?_, hsingle.sheds n.sheds_settle⟩
  · rw [length_sheds n.sheds_settle, hlength]
    exact (length_closings n.server _).symm
  · obtain ⟨c, hc, rfl⟩ := HDSServer.getElem?_closings.mp hc'
    split at hclosed
    · next hmem => exact (List.mem_filter.mp hmem).2
    · refine (isClosed_closings n.remote _ i).trans ?_
      rw [Bool.or_eq_true, decide_eq_true_eq]
      refine .inr (List.mem_filter.mpr ⟨List.mem_range.mpr (lt_length_of_getElem? hc), ?_⟩)
      rw [hc, Option.map_some, hclosed]
      rfl

/-! ## One step of either side -/

section

variable {json : JsonText} {opus : OpusEncoder ε} {C : Crypto} {reprOf : Obj → String}
  {n n' : Network ε json.Text} {r r' : AppleTVHomeKitRemote ε json.Text}

/-- The label adds a connection to the controller's. -/
def accepts : AppleTVHomeKitRemote.Label → Bool
  | .accept _ => true
  | _ => false

/-- The steps of the lock keep the connections. -/
theorem length_siriStep (h : AppleTVHomeKitRemote.SiriStep r r') :
    r'.connections.length = r.connections.length := by
  cases h with
  | failed _ _ _ _ _ _ hb | started _ _ _ _ _ _ hb =>
      have hlength := length_sheds hb
      exact hlength
  | _ => rfl

/-- A step that accepts no connection keeps their number. -/
theorem length_step_of_ne {a : AppleTVHomeKitRemote.Label} (hne : accepts a = false)
    (h : r.step json opus a = some r') : r'.connections.length = r.connections.length := by
  rcases AppleTVHomeKitRemote.step_cases h with
    ⟨client, rfl, -⟩ | ⟨c, protocol, topic, message, identifier, -, -, -, rfl⟩ |
      ⟨-, hsheds | hsiri⟩
  · cases hne
  · have hidentify : (r.identify c identifier).connections.length = r.connections.length :=
      List.length_modify _ _ _
    simp only [AppleTVHomeKitRemote.hdsWhoami]
    split
    · exact (length_sheds (AppleTVHomeKitRemote.sheds_closeConnection _ c)).trans hidentify
    · exact (length_sheds (AppleTVHomeKitRemote.sheds_closeReplaced _ identifier c)).trans hidentify
  · exact length_sheds hsheds
  · exact length_siriStep hsiri

/-- Each accepted connection is one more. -/
theorem length_exec {as : List AppleTVHomeKitRemote.Label}
    (h : (remotes json opus none).exec r as = some r') :
    r'.connections.length = r.connections.length + as.countP accepts := by
  induction as generalizing r with
  | nil => rw [Option.some.inj h, List.countP_nil, Nat.add_zero]
  | cons a as ih =>
      obtain ⟨r₁, hr₁, h⟩ := Option.bind_eq_some_iff.mp h
      rw [ih h, List.countP_cons]
      cases hne : accepts a with
      | false => rw [length_step_of_ne hne hr₁, if_neg Bool.false_ne_true, Nat.add_zero]
      | true =>
          cases a with
          | accept client =>
              obtain rfl := Option.some.inj hr₁
              rw [List.length_append, List.length_singleton, if_pos rfl]
              omega
          | _ => cases hne

theorem single_exec {as : List AppleTVHomeKitRemote.Label} (hr : r.SingleUtterance)
    (h : (remotes json opus none).exec r as = some r') : r'.SingleUtterance := by
  induction as generalizing r with
  | nil => exact Option.some.inj h ▸ hr
  | cons a as ih =>
      obtain ⟨r₁, hr₁, h⟩ := Option.bind_eq_some_iff.mp h
      exact ih (hr.step hr₁) h

/-- The controller accepts every connection that the server opens. -/
theorem countP_remoteLabels {server server' : HDSServer} (hopened : server'.Opened)
    (a : HDSServer.Label) : (remoteLabels server server' a).countP accepts =
      server'.opened.length - server.opened.length := by
  have hall : ∀ cs : List HDSConnection, (∀ c ∈ cs, c ∈ server'.opened) →
      (cs.filterMap fun c ↦ (server'.clientAddr? c.session).map
        AppleTVHomeKitRemote.Label.accept).countP accepts = cs.length := by
    intro cs hcs
    induction cs with
    | nil => rfl
    | cons c cs ih =>
        obtain ⟨hc, hcs⟩ := List.forall_mem_cons.mp hcs
        obtain ⟨session, hsession, -⟩ := hopened.keys c hc
        have haddr : server'.clientAddr? c.session = some session.clientAddr := by
          rw [HDSServer.clientAddr?, hsession, Option.map_some]
        simp only [List.filterMap_cons, haddr, Option.map_some, List.countP_cons, ih hcs]
        rfl
  have hmessage : ((newMessage server' a).map fun p ↦ AppleTVHomeKitRemote.Label.message p.1
      p.2.protocol p.2.topic p.2.message).toList.countP accepts = 0 := by
    cases newMessage server' a <;> rfl
  rw [remoteLabels, List.countP_append, hall _ fun c hc ↦ List.mem_of_mem_drop hc, hmessage,
    List.length_drop, Nat.add_zero]

/-! ## One step of both -/

/-- The targets are reset, and `close_all` runs. -/
theorem steps_serverAfter (hn : n.Linked) (ok : HDSServer.Label → Prop) (hok : ok .closeAll)
    (a : AppleTVHomeKitRemote.Label) :
    ReflTransGen (HDSServer.ServerStep C reprOf ok) n.server (n.serverAfter json a) := by
  have hclose : ReflTransGen (HDSServer.ServerStep C reprOf ok) n.server n.server.closeAll :=
    HDSServer.step_server hn.table hok
      (show n.server.step C reprOf .closeAll = some n.server.closeAll from rfl)
  rw [serverAfter.eq_def]
  split
  · split
    · exact hclose
    · exact .refl
  · exact .refl

theorem length_serverAfter (a : AppleTVHomeKitRemote.Label) :
    (n.serverAfter json a).opened.length = n.server.opened.length := by
  rw [serverAfter.eq_def]
  split
  · split
    · rw [HDSServer.closeAll, HDSServer.closeConnections, length_closings, HDSServer.removeAll,
        (HDSServer.removals_opened _).1]
    · rfl
  · rfl

/-- `hap_setup_hds_write` prepares a session for the client, or changes nothing. -/
theorem hapSetupHdsWrite_cases (value : PyStr) (client : Option ClientAddr)
    (sharedSecret : Option Bytes) (accessorySalt : Bytes) :
    (n.hapSetupHdsWrite json C value client sharedSecret accessorySalt).2 = n ∨
      ∃ client' secret controllerSalt, client = some client' ∧
        (n.hapSetupHdsWrite json C value client sharedSecret accessorySalt).2 =
          (n.finishSetup json accessorySalt
            (n.server.prepareSession C.hkdf client' secret controllerSalt accessorySalt)).2 := by
  cases client with
  | none => exact .inl rfl
  | some client =>
      simp only [hapSetupHdsWrite]
      split
      · exact .inl rfl
      · next controllerSalt _ =>
        split
        · exact .inl rfl
        · split
          · exact .inl rfl
          · exact .inr ⟨client, _, controllerSalt, rfl, rfl⟩

/-- `hap_setup_hds_write` opens and closes nothing. -/
theorem prepareSession_opened (s : HDSServer) (hkdf : Bytes → Bytes → Bytes → Bytes)
    (client : ClientAddr) (sharedSecret controllerSalt accessorySalt : Bytes) :
    (s.prepareSession hkdf client sharedSecret controllerSalt accessorySalt).2.opened =
      s.opened := by
  have hremoved := (HDSServer.removals_opened (s := s)
    (s.prepared.filter fun p ↦ s.clientAddr? p = some client)).1
  rw [HDSServer.prepareSession]
  split
  · rfl
  · split
    · rfl
    · split
      · rfl
      · rw [HDSServer.prepareFresh]
        split <;> exact hremoved

/-- The places of the connections stay. -/
theorem opened_serverStep {ok : HDSServer.Label → Prop} {s s' : HDSServer} (k : Nat)
    (h : HDSServer.ServerStep C reprOf ok s s') (hs : k ≤ s.opened.length) :
    k ≤ s'.opened.length := by
  cases h with
  | control | remove | add => exact hs
  | connection i c c' a _ _ =>
      rw [HDSServer.setConnection, List.length_set]
      exact hs
  | accept t a p session payload header encrypted _ _ =>
      rw [HDSServer.openConnection, List.length_append]
      exact Nat.le_add_right_of_le hs

/-- What a step of both may do to the server: it prepares a session for the client that sets
up a data stream only, and does not stop. -/
def Allows : Label → HDSServer.Label → Prop
  | .setupHds _ client _ _, .prepareSession client' .. => client = some client'
  | _, .prepareSession .. | _, .resumeStop _ => False
  | _, _ => True

/-- **What a step of both does to the server.** -/
theorem steps_step {a : Label} (h : n.step json opus C reprOf a = some n') (hn : n.Linked) :
    ReflTransGen (HDSServer.ServerStep C reprOf (Allows a)) n.server n'.server := by
  cases a with
  | remote a =>
      simp only [step] at h
      split at h
      · obtain ⟨r', -, rfl⟩ := Option.map_eq_some_iff.mp h
        refine ReflTransGen.trans ?_ (steps_settle C reprOf _ _)
        exact steps_serverAfter hn _ trivial a
      · cases h
  | server a =>
      simp only [step] at h
      split at h
      · next hof =>
        obtain ⟨s', hs', h⟩ := Option.bind_eq_some_iff.mp h
        obtain ⟨r', -, rfl⟩ := Option.map_eq_some_iff.mp h
        have hallows : Allows (.server a) a := by
          cases a with
          | prepareSession | resumeStop => cases hof
          | _ => trivial
        refine ReflTransGen.trans ?_ (steps_settle C reprOf _ _)
        exact HDSServer.step_server hn.table hallows hs'
      · cases h
  | setupHds value client sharedSecret accessorySalt =>
      simp only [step] at h
      split at h
      · obtain rfl := Option.some.inj h
        rcases n.hapSetupHdsWrite_cases value client sharedSecret accessorySalt with
          heq | ⟨client', secret, controllerSalt, hclient, heq⟩
        · rw [heq]
        · rw [heq]
          exact HDSServer.ServerStep.prepareSession hn.table client' secret controllerSalt
            accessorySalt hclient
      · cases h
  | hapConnectionLost client =>
      obtain rfl := Option.some.inj h
      refine ReflTransGen.trans ?_ (steps_settle C reprOf _ _)
      exact HDSServer.step_server (a := .closeForClient client) hn.table trivial rfl

/-- **Every step keeps both sides linked.** -/
theorem linked_step {a : Label} (h : n.step json opus C reprOf a = some n') (hn : n.Linked) :
    n'.Linked := by
  have hnostop : ∀ stop, ¬Allows a (.resumeStop stop) := by
    intro stop
    cases a <;> exact id
  obtain ⟨htable, hopened, hlisted⟩ := HDSServer.steps_invariant
    (I := fun s ↦ s.Opened ∧ s.Listed)
    (fun _ _ htable h hs ↦ ⟨hs.1.serverStep htable h, hs.2.serverStep hnostop h⟩)
    (steps_step h hn) hn.table ⟨hn.opened, hn.listed⟩
  cases a with
  | remote a =>
      simp only [step] at h
      split at h
      · next hof =>
        obtain ⟨r', hr', rfl⟩ := Option.map_eq_some_iff.mp h
        have haccepts : accepts a = false := by
          cases a with
          | accept => cases hof
          | _ => rfl
        refine linked_settle htable hopened hlisted ?_ (hn.single.step hr')
        rw [length_step_of_ne haccepts hr', hn.length, length_serverAfter]
      · cases h
  | server a =>
      simp only [step] at h
      split at h
      · obtain ⟨s', hs', h⟩ := Option.bind_eq_some_iff.mp h
        obtain ⟨r', hr', rfl⟩ := Option.map_eq_some_iff.mp h
        obtain ⟨-, hopened', hlength⟩ := HDSServer.step_invariant
          (I := fun s ↦ s.Opened ∧ n.server.opened.length ≤ s.opened.length)
          (fun _ _ htable (h : HDSServer.ServerStep C reprOf (fun _ ↦ True) _ _) hs ↦
            ⟨hs.1.serverStep htable h, opened_serverStep _ h hs.2⟩)
          trivial hs' hn.table ⟨hn.opened, Nat.le_refl _⟩
        refine linked_settle htable hopened hlisted ?_ (single_exec hn.single hr')
        rw [length_exec hr', countP_remoteLabels hopened', hn.length, Nat.add_sub_cancel' hlength]
      · cases h
  | setupHds value client sharedSecret accessorySalt =>
      simp only [step] at h
      split at h
      · obtain rfl := Option.some.inj h
        rcases n.hapSetupHdsWrite_cases value client sharedSecret accessorySalt with
          heq | ⟨client', secret, controllerSalt, -, heq⟩
        · rwa [heq]
        · have hsame := prepareSession_opened n.server C.hkdf client' secret controllerSalt
            accessorySalt
          rw [heq] at htable hopened hlisted ⊢
          refine ⟨htable, hopened, hlisted, ?_, fun i c hc hclosed ↦ ?_, hn.single⟩
          · exact hn.length.trans (congrArg List.length hsame.symm)
          · exact hn.closed i c (hsame ▸ hc) hclosed
      · cases h
  | hapConnectionLost client =>
      obtain rfl := Option.some.inj h
      have hsheds : AppleTVHomeKitRemote.Sheds n.remote (n.remote.hapConnectionLost json client) :=
        (n.remote.moves_hapConnectionLost client).sheds
      refine linked_settle htable hopened hlisted ?_ (hn.single.sheds hsheds)
      rw [length_sheds hsheds, hn.length, HDSServer.closeForClient, HDSServer.closeConnectionsFor,
        length_closings, HDSServer.removeForClient, (HDSServer.removals_opened _).1]

theorem linked_new (file : Option json.Text) : (new json file : Network ε json.Text).Linked where
  table := .new
  opened := .new
  listed _ _ h := by cases h
  length := rfl
  closed _ _ h := by cases h
  single := AppleTVHomeKitRemote.singleUtterance_new file

/-- In every reachable state both sides are linked. -/
theorem linked {file : Option json.Text} (h : (networks json opus C reprOf file).Reachable n) :
    n.Linked := by
  refine h.invariant ?_ ?_
  · rintro n rfl
    exact linked_new file
  · exact fun n n' a hn (hstep : n.step json opus C reprOf a = some n') ↦ linked_step hstep hn

/-! ## Revocation -/

/-- The client writes to `SetupDataStreamTransport`. -/
def setsUp (client : ClientAddr) : Label → Bool
  | .setupHds _ client' _ _ => client' = some client
  | _ => false

/-- The client writes to `Active`. -/
def activates (client : ClientAddr) : Label → Bool
  | .remote (.activeWrite _ client') => client' = some client
  | _ => false

/-- A step keeps a client revoked, unless it sets up a data stream. -/
theorem revoked_step {client : ClientAddr} {a : Label} (ha : setsUp client a = false)
    (h : n.step json opus C reprOf a = some n') (hn : n.Linked)
    (hrevoked : n.server.Revoked client) : n'.server.Revoked client := by
  have hnone : ∀ sharedSecret controllerSalt accessorySalt,
      ¬Allows a (.prepareSession client sharedSecret controllerSalt accessorySalt) := by
    intro sharedSecret controllerSalt accessorySalt
    cases a with
    | setupHds value client' => exact fun h ↦ (of_decide_eq_false ha : client' ≠ some client) h
    | _ => exact id
  exact (HDSServer.steps_invariant (I := fun s ↦ s.Opened ∧ s.Revoked client)
    (fun _ _ htable h hs ↦ ⟨hs.1.serverStep htable h, hs.2.serverStep hnone htable hs.1 h⟩)
    (steps_step h hn) hn.table ⟨hn.opened, hrevoked⟩).2.2

/-- `_hap_connection_lost` revokes the client. -/
theorem revoked_hapConnectionLost {client : ClientAddr} (hn : n.Linked)
    (h : n.step json opus C reprOf (.hapConnectionLost client) = some n') :
    n'.server.Revoked client := by
  obtain rfl := Option.some.inj h
  have hclose : ReflTransGen (HDSServer.ServerStep C reprOf fun a ↦ a = .closeForClient client)
      n.server (n.server.closeForClient client) :=
    HDSServer.step_server (a := .closeForClient client) hn.table rfl rfl
  obtain ⟨htable, hopened⟩ := HDSServer.steps_invariant (I := HDSServer.Opened)
    (fun _ _ htable h hs ↦ hs.serverStep htable h) hclose hn.table hn.opened
  exact (HDSServer.steps_invariant (I := fun s ↦ s.Opened ∧ s.Revoked client)
    (fun _ _ htable h hs ↦ ⟨hs.1.serverStep htable h,
      hs.2.serverStep (fun _ _ _ hok ↦ hok) htable hs.1 h⟩)
    (steps_settle C reprOf (fun _ ↦ False) _) htable
    ⟨hopened, HDSServer.revoked_closeForClient hn.table hn.listed client⟩).2.2

/-- The active client stays or is cleared when both sides settle. -/
theorem deactivates_settle (n : Network ε json.Text) :
    AppleTVHomeKitRemote.Deactivates n.remote n.settle.remote :=
  (n.remote.moves_closings _).deactivates

/-- A Siri session that is not closed is on a connection that is open on both sides. -/
theorem Linked.session (hn : n.Linked) {sid : Nat} {u : Utterance ε}
    (hu : n.remote.sessions[sid]? = some u) (hlive : u.session.closed = false) :
    ∃ c, n.server.opened[u.connection]? = some c ∧ c.closed = false := by
  have hopen := (hn.single.live sid u hu hlive).2
  have hplace : u.connection < n.server.opened.length := by
    rw [← hn.length]
    refine Nat.lt_of_not_le fun hle ↦ ?_
    rw [AppleTVHomeKitRemote.isClosed, List.getElem?_eq_none_iff.mpr hle] at hopen
    cases hopen
  have hc := List.getElem?_eq_getElem hplace
  refine ⟨_, hc, Bool.eq_false_iff.mpr fun hclosed ↦ ?_⟩
  rw [hn.closed _ _ hc hclosed] at hopen
  cases hopen

/-- Steps that write no `Active` leave the active client or clear it. -/
theorem deactivates_exec {as : List AppleTVHomeKitRemote.Label}
    (has : ∀ a ∈ as, ∀ value client, a ≠ .activeWrite value client)
    (h : (remotes json opus none).exec r as = some r') :
    AppleTVHomeKitRemote.Deactivates r r' := by
  induction as generalizing r with
  | nil => exact Option.some.inj h ▸ .refl r
  | cons a as ih =>
      obtain ⟨ha, has⟩ := List.forall_mem_cons.mp has
      obtain ⟨r₁, hr₁, h⟩ := Option.bind_eq_some_iff.mp h
      rcases AppleTVHomeKitRemote.activeClient_step hr₁ with hfirst | ⟨value, client, rfl, -⟩
      · exact hfirst.trans (ih has h)
      · exact absurd rfl (ha value _)

/-- What the server brings about in the controller is no write. -/
theorem ne_activeWrite_of_mem {server server' : HDSServer} {a : HDSServer.Label}
    {b : AppleTVHomeKitRemote.Label} (hb : b ∈ remoteLabels server server' a) (value : Obj)
    (client : Option ClientAddr) : b ≠ .activeWrite value client := by
  rcases List.mem_append.mp hb with hb | hb
  · obtain ⟨c, -, hc⟩ := List.mem_filterMap.mp hb
    obtain ⟨other, -, rfl⟩ := Option.map_eq_some_iff.mp hc
    exact nofun
  · obtain ⟨p, -, rfl⟩ := Option.map_eq_some_iff.mp (Option.mem_toList.mp hb)
    exact nofun

/-- A step makes a client the active one only if it is its write to `Active`. -/
theorem activeClient_step {client : ClientAddr} {a : Label} (ha : activates client a = false)
    (h : n.step json opus C reprOf a = some n') (hn : n.remote.activeClient ≠ some client) :
    n'.remote.activeClient ≠ some client := by
  cases a with
  | remote a =>
      simp only [step] at h
      split at h
      · obtain ⟨r', hr', rfl⟩ := Option.map_eq_some_iff.mp h
        refine (deactivates_settle _).ne ?_
        rcases AppleTVHomeKitRemote.activeClient_step hr' with
          hdeactivates | ⟨value, other, rfl, -, -, heq, -⟩
        · exact hdeactivates.ne hn
        · exact fun hsame ↦ of_decide_eq_false ha (heq.symm.trans hsame)
      · cases h
  | server a =>
      simp only [step] at h
      split at h
      · obtain ⟨s', -, h⟩ := Option.bind_eq_some_iff.mp h
        obtain ⟨r', hr', rfl⟩ := Option.map_eq_some_iff.mp h
        have hexec := deactivates_exec (fun _ hb ↦ ne_activeWrite_of_mem hb) hr'
        exact (deactivates_settle _).ne (hexec.ne hn)
      · cases h
  | setupHds value client' sharedSecret accessorySalt =>
      simp only [step] at h
      split at h
      · obtain rfl := Option.some.inj h
        rcases n.hapSetupHdsWrite_cases value client' sharedSecret accessorySalt with
          heq | ⟨_, _, _, -, heq⟩
        · rwa [heq]
        · rw [heq]
          exact hn
      · cases h
  | hapConnectionLost client' =>
      obtain rfl := Option.some.inj h
      refine (deactivates_settle _).ne ?_
      have hlost : n.remote.step json opus (.hapConnectionLost client') =
        some (n.remote.hapConnectionLost json client') := rfl
      rcases AppleTVHomeKitRemote.activeClient_step hlost with hdeactivates | ⟨_, _, heq, -⟩
      · exact hdeactivates.ne hn
      · cases heq

end

end Network

/-- **A client that is lost is revoked until it sets up a data stream again.** -/
theorem revoked_of_lost {ε : Type} (json : JsonText) (opus : OpusEncoder ε) (C : Crypto)
    (reprOf : Obj → String) (file : Option json.Text) (client : ClientAddr)
    (as : List Network.Label) (n n' : Network ε json.Text)
    (hn : (networks json opus C reprOf file).Reachable n)
    (hrun : (networks json opus C reprOf file).exec n (.hapConnectionLost client :: as) = some n')
    (hsetup : ∀ a ∈ as, Network.setsUp client a = false) :
    (∀ p ∈ n'.server.prepared, n'.server.clientAddr? p ≠ some client) ∧
      (∀ header encrypted p payload,
        n'.server.identify C.aead header encrypted = some (p, payload) →
          n'.server.clientAddr? p ≠ some client) ∧
      (∀ (i : Nat) (c : HDSConnection), n'.server.opened[i]? = some c → c.closed = false →
        n'.server.clientAddr? c.session ≠ some client) ∧
      (∀ (sid : Nat) (u : Utterance ε), n'.remote.sessions[sid]? = some u →
        u.session.closed = false → n'.server.connectionAddr? u.connection ≠ some client) ∧
      ((∀ a ∈ as, Network.activates client a = false) →
        n'.remote.activeClient ≠ some client) := by
  obtain ⟨n₁, hlost, hrun⟩ : ∃ n₁,
      n.step json opus C reprOf (.hapConnectionLost client) = some n₁ ∧
        (networks json opus C reprOf file).exec n₁ as = some n' := Option.bind_eq_some_iff.mp hrun
  have hlinked := Network.linked hn
  have hlinked₁ := Network.linked_step hlost hlinked
  obtain ⟨hlinked', hrevoked⟩ := System.exec_invariant
    (I := fun n : Network ε json.Text ↦ n.Linked ∧ n.server.Revoked client)
    (fun n n' a h ha (hstep : n.step json opus C reprOf a = some n') ↦
      ⟨Network.linked_step hstep h.1, Network.revoked_step ha hstep h.1 h.2⟩) hsetup hrun
    ⟨hlinked₁, Network.revoked_hapConnectionLost hlinked hlost⟩
  refine ⟨hrevoked.prepared, fun header encrypted p payload hfound ↦ hrevoked.identify hfound,
    hrevoked.opened, fun sid u hu hlive ↦ ?_, fun hactive ↦ ?_⟩
  · obtain ⟨c, hc, hopen⟩ := hlinked'.session hu hlive
    rw [HDSServer.connectionAddr?, hc, Option.bind_some]
    exact hrevoked.opened _ c hc hopen
  · refine System.exec_invariant
      (I := fun n : Network ε json.Text ↦ n.remote.activeClient ≠ some client)
      (fun n n' a h ha (hstep : n.step json opus C reprOf a = some n') ↦
        Network.activeClient_step ha hstep h) hactive hrun ?_
    obtain rfl := Option.some.inj hlost
    have hne : (n.remote.hapConnectionLost json client).activeClient ≠ some client :=
      n.remote.activeClient_hapConnectionLost client
    exact (Network.deactivates_settle _).ne hne

/-- A setup write, with a salt of zeros. -/
def setupWrite : PyStr :=
  .ofString "AQEAAgEAAyAAAAAAAAAAAAAAAAAAAAAAAAAAAAAAAAAAAAAAAAAAAA=="

/-- A hub activates the remote, opens a connection and a Siri session on it, and prepares a
second session. -/
def speaking (hub : ClientAddr) : List Network.Label :=
  let frame (o : Hds.Outgoing) : Bytes :=
    (hdsFraming.sealAll plain [] [o.payload.toOption.getD []]).getD []
  [.remote .start, .remote (.targetListWrite (.ofString "AQECAgYBBAEAAAA=") (some hub) true),
    .remote (.activeWrite (.int 1) (some hub)), .server (.start (some 50000)),
    .setupHds setupWrite (some hub) (some (.replicate 32 0)) (.replicate 32 2), .server .connect,
    .server (.feedAccept 0 (frame greeting ++ frame ⟨.event, .ofString "targetControl",
      .ofString "whoami", some [(.text "identifier", .int 1)]⟩)),
    .server (.resumeAccept 0), .server (.resumeAccept 0), .server (.connection 0 .resume),
    .server (.connection 0 (.acquire 0)), .server (.connection 0 (.drained 0)),
    .server (.connection 0 .resume), .server (.connection 0 .resume),
    .server (.connection 0 .resume), .remote (.startSiri none true), .remote (.enterSiri 0),
    .remote (.runSiri 0 none),
    .setupHds setupWrite (some hub) (some (.replicate 32 0)) (.replicate 32 3)]

/-- The hub is lost while it speaks, and another client sets up a data stream. -/
theorem revoked_of_lost_speaking :
    let hub : ClientAddr := ⟨"hub", 1⟩
    let C : Crypto := ⟨plain, fun _ salt info ↦ salt ++ info⟩
    let after := [Network.Label.setupHds setupWrite (some ⟨"phone", 2⟩) (some (.replicate 32 0))
      (.replicate 32 4)]
    ∃ n n', (networks .documents .verbatim C (fun _ ↦ "") none).exec (.new .documents none)
        (speaking hub) = some n ∧
      (networks .documents .verbatim C (fun _ ↦ "") none).exec n
        (.hapConnectionLost hub :: after) = some n' ∧
      (n.server.opened.map HDSConnection.closed, n.server.prepared, n.remote.activeClient,
        n.remote.sessions.map fun u ↦ u.session.closed) = ([false], [1], some hub, [false]) ∧
      (∀ p ∈ n'.server.prepared, n'.server.clientAddr? p ≠ some hub) ∧
      (∀ header encrypted p payload,
        n'.server.identify C.aead header encrypted = some (p, payload) →
          n'.server.clientAddr? p ≠ some hub) ∧
      (∀ (i : Nat) (c : HDSConnection), n'.server.opened[i]? = some c → c.closed = false →
        n'.server.clientAddr? c.session ≠ some hub) ∧
      (∀ (sid : Nat) (u : Utterance Unit), n'.remote.sessions[sid]? = some u →
        u.session.closed = false → n'.server.connectionAddr? u.connection ≠ some hub) ∧
      ((∀ a ∈ after, Network.activates hub a = false) → n'.remote.activeClient ≠ some hub) := by
  intro hub C after
  generalize hrun : (networks .documents .verbatim C (fun _ ↦ "") none).exec (.new .documents none)
    (speaking hub) = r
  have hr : r.map (fun n ↦ ((n.server.opened.map HDSConnection.closed, n.server.prepared,
      n.remote.activeClient, n.remote.sessions.map fun u ↦ u.session.closed),
      ((networks .documents .verbatim C (fun _ ↦ "") none).exec n
        (.hapConnectionLost hub :: after)).isSome)) =
      some (([false], [1], some hub, [false]), true) := by
    rw [← hrun]
    decide +kernel
  obtain ⟨n, rfl, hn⟩ := Option.map_eq_some_iff.mp hr
  obtain ⟨hbefore, hafter⟩ := Prod.mk.inj hn
  obtain ⟨n', hn'⟩ := Option.isSome_iff_exists.mp hafter
  have hreachable : (networks .documents .verbatim C (fun _ ↦ "") none).Reachable n :=
    .exec (.init rfl) hrun
  exact ⟨n, n', rfl, hn', hbefore,
    revoked_of_lost _ _ C _ none hub after n n' hreachable hn' (by decide)⟩

end AtvRemote.Remote
