import AtvRemote.Hds.Steps
import AtvRemote.Lib.Table

/-!
# The table of prepared sessions

`Table` is the invariant of the table of prepared sessions and its timers: a session is
listed as long as its timer runs, and its `timeout` field says the same.  That
`_remove_prepared` compares sessions by their fields makes no difference then: a removed
session has no timer, and every listed one has its own (`Table.removePrepared_eq`).

Under this invariant a step of the server is a sequence of `ServerStep`s: a session is added,
removed or becomes a connection, a connection steps, or none of these (`step_server`).
`Opened` is the invariant of the connections: each is made of a session of its own, which
has left the table for good.
-/

namespace AtvRemote.Hds

open Lib Relation Remote

namespace HDSServer

variable {C : Crypto} {reprOf : Obj → String} {ok : Label → Prop} {s s' : HDSServer}

/-! ## The table -/

/-- The table of prepared sessions and their timers. -/
structure Table (s : HDSServer) : Prop where
  /-- No session is listed twice. -/
  nodup : s.prepared.Nodup
  /-- The timers are those of the listed sessions. -/
  timers : s.timers = s.prepared
  /-- A listed session has its own timer, and no other session has one. -/
  timeout : ∀ (p : Nat) (session : PreparedSession), s.sessions[p]? = some session →
    session.timeout = if p ∈ s.prepared then some p else none
  lt : ∀ p ∈ s.prepared, p < s.sessions.length
  /-- No two sessions are listed for one client. -/
  addr : s.prepared.Pairwise fun p q ↦ s.clientAddr? p ≠ s.clientAddr? q
  size : s.prepared.length ≤ maxPreparedSessions

/-- `_remove_prepared`, as it should be: the session leaves the table, and its timer goes. -/
def withoutSession (s : HDSServer) (p : Nat) : HDSServer :=
  { s with
    prepared := s.prepared.erase p
    timers := s.timers.erase p
    sessions := s.sessions.modify p fun session ↦ { session with timeout := none } }

theorem getElem?_modify_timeout (sessions : List PreparedSession) (p q : Nat) :
    (sessions.modify p fun session ↦ { session with timeout := none })[q]? =
      if q = p then sessions[q]?.map fun session ↦ { session with timeout := none }
      else sessions[q]? := by
  rcases eq_or_ne q p with rfl | hne
  · rw [if_pos rfl, List.getElem?_modify_eq]
    rfl
  · rw [if_neg hne, List.getElem?_modify_ne _ _ hne.symm]

/-- No field of a session but its `timeout` changes when it is removed. -/
@[simp] theorem clientAddr?_withoutSession (p q : Nat) :
    (s.withoutSession p).clientAddr? q = s.clientAddr? q := by
  rw [clientAddr?, clientAddr?, withoutSession, getElem?_modify_timeout]
  split
  · rw [Option.map_map]
    rfl
  · rfl

namespace Table

/-- Cancelling the timer of a session. -/
theorem cancelTimer_eq (hs : s.Table) (p : Nat) :
    s.cancelTimer p = { s with
      timers := s.timers.erase p
      sessions := s.sessions.modify p fun session ↦ { session with timeout := none } } := by
  rw [cancelTimer]
  cases hsession : s.sessions[p]? with
  | none =>
      have hlen : s.sessions.length ≤ p := List.getElem?_eq_none_iff.mp hsession
      have hnot : p ∉ s.timers := fun hmem ↦
        Nat.not_lt.mpr hlen (hs.lt p (hs.timers ▸ hmem))
      have hmodify : s.sessions.modify p (fun session ↦ { session with timeout := none }) =
          s.sessions := List.modify_eq_self hlen
      rw [Option.bind_none, List.erase_of_not_mem hnot, hmodify]
  | some session =>
      have htimeout := hs.timeout p session hsession
      rw [Option.bind_some]
      split at htimeout
      · rw [htimeout]
      · next hnot =>
        have hmodify : s.sessions.modify p (fun session ↦ { session with timeout := none }) =
            s.sessions := by
          apply List.ext_getElem?
          intro q
          rw [getElem?_modify_timeout]
          split
          · next heq =>
            rw [heq, hsession, Option.map_some, ← htimeout]
          · rfl
        rw [htimeout, List.erase_of_not_mem (hs.timers ▸ hnot), hmodify]

/-- **A removal takes out exactly the session that it is given.** -/
theorem removePrepared_eq (hs : s.Table) (p : Nat) : s.removePrepared p = s.withoutSession p := by
  have hsame : ∀ q ∈ s.prepared, (s.cancelTimer p).sameSession p q = true ↔ q = p := by
    intro q hq
    rw [hs.cancelTimer_eq, sameSession, getElem?_modify_timeout, getElem?_modify_timeout,
      if_pos rfl, Bool.or_eq_true, beq_iff_eq, beq_iff_eq]
    constructor
    · rintro (rfl | heq)
      · rfl
      · by_contra hne
        rw [if_neg hne] at heq
        have hsession := List.getElem?_eq_getElem (hs.lt q hq)
        have htimeout := hs.timeout q _ hsession
        obtain ⟨old, -, hold⟩ := Option.map_eq_some_iff.mp (heq.trans hsession)
        rw [if_pos hq, ← hold] at htimeout
        cases htimeout
    · rintro rfl
      exact .inl rfl
  rw [removePrepared, eraseP_eq_erase hsame, hs.cancelTimer_eq]
  rfl

/-- **A timer that runs out removes its own session.** -/
theorem expirePrepared_eq (hs : s.Table) {p : Nat} (hp : p ∈ s.timers) :
    s.expirePrepared p = s.withoutSession p := by
  have hprepared : p ∈ s.prepared := hs.timers ▸ hp
  have hnot : p ∉ s.timers.erase p := (hs.timers ▸ hs.nodup : s.timers.Nodup).not_mem_erase
  have hsession := List.getElem?_eq_getElem (hs.lt p hprepared)
  have hany : s.prepared.any (sameSession { s with timers := s.timers.erase p } p) = true :=
    List.any_eq_true.mpr ⟨p, hprepared, by rw [sameSession, beq_self_eq_true, Bool.true_or]⟩
  have hcancel : cancelTimer { s with timers := s.timers.erase p } p = s.cancelTimer p := by
    have htimeout := hs.timeout p _ hsession
    rw [if_pos hprepared] at htimeout
    simp only [cancelTimer, hsession, Option.bind_some, htimeout, List.erase_of_not_mem hnot]
  simp only [expirePrepared]
  rw [if_pos hany, removePrepared, hcancel]
  exact hs.removePrepared_eq p

/-- A removal keeps the table in order. -/
theorem withoutSession (hs : s.Table) (p : Nat) : (s.withoutSession p).Table where
  nodup := hs.nodup.erase p
  timers := congrArg (List.erase · p) hs.timers
  timeout q session hsession := by
    rw [HDSServer.withoutSession, getElem?_modify_timeout] at hsession
    simp only [HDSServer.withoutSession, hs.nodup.mem_erase_iff]
    split at hsession
    · next heq =>
      obtain ⟨old, -, rfl⟩ := Option.map_eq_some_iff.mp hsession
      rw [if_neg fun h ↦ h.1 heq]
    · next hne =>
      rw [hs.timeout q session hsession]
      simp only [ne_eq, hne, not_false_eq_true, true_and]
  lt q hq := by
    rw [HDSServer.withoutSession, List.length_modify]
    exact hs.lt q (List.mem_of_mem_erase hq)
  addr := by
    simp only [clientAddr?_withoutSession]
    exact hs.addr.sublist List.erase_sublist
  size := Nat.le_trans List.length_erase_le hs.size

/-- Removals one after the other. -/
theorem removals (hs : s.Table) (ps : List Nat) :
    (ps.foldl removePrepared s).Table ∧
      (∀ q, q ∈ (ps.foldl removePrepared s).prepared ↔ q ∈ s.prepared ∧ q ∉ ps) ∧
      ∀ q, (ps.foldl removePrepared s).clientAddr? q = s.clientAddr? q := by
  induction ps generalizing s with
  | nil => exact ⟨hs, fun q ↦ by simp, fun q ↦ rfl⟩
  | cons p ps ih =>
      rw [List.foldl_cons, hs.removePrepared_eq]
      obtain ⟨htable, hmem, haddr⟩ := ih (hs.withoutSession p)
      refine ⟨htable, fun q ↦ ?_, fun q ↦ by rw [haddr, clientAddr?_withoutSession]⟩
      rw [hmem, HDSServer.withoutSession, hs.nodup.mem_erase_iff, List.mem_cons, not_or]
      exact ⟨fun ⟨⟨hne, hq⟩, hnot⟩ ↦ ⟨hq, hne, hnot⟩, fun ⟨hq, hne, hnot⟩ ↦ ⟨⟨hne, hq⟩, hnot⟩⟩

/-- The sessions of a client leave the table together. -/
theorem removeForClient (hs : s.Table) (client : ClientAddr) :
    (s.removeForClient client).Table ∧
      ∀ p, p ∈ (s.removeForClient client).prepared ↔
        p ∈ s.prepared ∧ s.clientAddr? p ≠ some client := by
  obtain ⟨htable, hmem, -⟩ :=
    hs.removals (s.prepared.filter fun p ↦ s.clientAddr? p = some client)
  refine ⟨htable, fun p ↦ ?_⟩
  rw [HDSServer.removeForClient, hmem, List.mem_filter, decide_eq_true_eq, not_and]
  exact ⟨fun ⟨hp, hnot⟩ ↦ ⟨hp, hnot hp⟩, fun ⟨hp, hnot⟩ ↦ ⟨hp, fun _ ↦ hnot⟩⟩

/-- None of a client's sessions is left. -/
theorem clientAddr?_removeForClient (hs : s.Table) (client : ClientAddr) :
    ∀ p ∈ (s.removeForClient client).prepared,
      (s.removeForClient client).clientAddr? p ≠ some client := by
  intro p hp
  rw [HDSServer.removeForClient, (hs.removals _).2.2]
  exact ((hs.removeForClient client).2 p |>.mp hp).2

/-- Removing every session empties the table. -/
theorem prepared_removeAll (hs : s.Table) : s.removeAll.prepared = [] := by
  obtain ⟨-, hmem, -⟩ := hs.removals s.prepared
  rw [removeAll, List.eq_nil_iff_forall_not_mem]
  intro p hp
  exact ((hmem p).mp hp).2 ((hmem p).mp hp).1

end Table

/-! ## What one step can do -/

/-- What happens to the sessions and the connections of a server in steps that meet `ok`. -/
inductive ServerStep (C : Crypto) (reprOf : Obj → String) (ok : Label → Prop) (s : HDSServer) :
    HDSServer → Prop
  /-- Neither a session nor a connection changes. -/
  | control (server : Bool) (port : Option Nat) (accepts : List Accept) (stops : List StopPc)
      (connections : List Nat) :
      connections = s.connections ∨ connections = [] ∧ (∃ stop, ok (.resumeStop stop)) →
      ServerStep C reprOf ok s { s with server, port, accepts, stops, connections }
  | remove (p : Nat) : ServerStep C reprOf ok s (s.withoutSession p)
  | add (client : ClientAddr) (sharedSecret controllerSalt accessorySalt : Bytes) :
      ok (.prepareSession client sharedSecret controllerSalt accessorySalt) →
      (∀ p ∈ s.prepared, s.clientAddr? p ≠ some client) → s.prepared.length < maxPreparedSessions →
      controllerSalt.length = 32 →
      ServerStep C reprOf ok s
        (s.addSession C.hkdf client sharedSecret controllerSalt accessorySalt)
  | connection (i : Nat) (c c' : HDSConnection) (a : HDSConnection.Label) :
      s.opened[i]? = some c → c.step C.aead reprOf a = some c' →
      ServerStep C reprOf ok s (s.setConnection i c c')
  | accept (t : Nat) (a : Accept) (p : Nat) (session : PreparedSession) (payload : Bytes)
      (header encrypted : Bytes) :
      s.identify C.aead header encrypted = some (p, payload) → s.sessions[p]? = some session →
      ServerStep C reprOf ok s (s.openConnection t a p session payload)

namespace ServerStep

/-- Nothing but the tasks that run `_accept` changes. -/
theorem setAccept (s : HDSServer) (t : Nat) (a : Accept) :
    ReflTransGen (ServerStep C reprOf ok) s (s.setAccept t a) :=
  .single (.control s.server s.port _ s.stops s.connections (.inl rfl))

theorem removals (hs : s.Table) (ps : List Nat) :
    ReflTransGen (ServerStep C reprOf ok) s (ps.foldl removePrepared s) := by
  induction ps generalizing s with
  | nil => exact .refl
  | cons p ps ih =>
      rw [List.foldl_cons, hs.removePrepared_eq]
      exact .head (.remove p) (ih (hs.withoutSession p))

theorem closeConnection (s : HDSServer) (i : Nat) :
    ReflTransGen (ServerStep C reprOf ok) s (s.closeConnection i) := by
  rw [HDSServer.closeConnection]
  split
  · next c hc => exact .single (.connection i c _ .close hc rfl)
  · exact .refl

theorem closings (s : HDSServer) (is : List Nat) :
    ReflTransGen (ServerStep C reprOf ok) s (is.foldl HDSServer.closeConnection s) := by
  induction is generalizing s with
  | nil => exact .refl
  | cons i is ih => exact (closeConnection s i).trans (ih _)

theorem prepareSession (hs : s.Table) (client : ClientAddr)
    (sharedSecret controllerSalt accessorySalt : Bytes)
    (hok : ok (.prepareSession client sharedSecret controllerSalt accessorySalt)) :
    ReflTransGen (ServerStep C reprOf ok) s
      (s.prepareSession C.hkdf client sharedSecret controllerSalt accessorySalt).2 := by
  rw [HDSServer.prepareSession]
  split
  · exact .refl
  · split
    · exact .refl
    · split
      · exact .refl
      · next hsalt =>
        refine ReflTransGen.trans (b := s.removeForClient client) (removals hs _) ?_
        rw [prepareFresh]
        split
        · exact .refl
        · next hroom =>
          exact .single (.add client sharedSecret controllerSalt accessorySalt hok
            (hs.clientAddr?_removeForClient client) (Nat.lt_of_not_le hroom) (not_not.mp hsalt))

theorem acceptRead {t n : Nat} {a : Accept} {k : Accept → Bytes → HDSServer}
    (hk : ∀ a b, ReflTransGen (ServerStep C reprOf ok) s (k a b))
    (h : s.acceptRead t a n k = some s') : ReflTransGen (ServerStep C reprOf ok) s s' := by
  rw [HDSServer.acceptRead] at h
  split at h
  · cases h
    exact hk _ _
  · split at h
    · cases h
      exact setAccept s t _
    · cases h

theorem resumeAccept {t : Nat} {a : Accept} (h : s.resumeAccept C.aead t a = some s') :
    ReflTransGen (ServerStep C reprOf ok) s s' := by
  rw [HDSServer.resumeAccept] at h
  split at h
  · refine acceptRead (fun a b ↦ ?_) h
    rw [acceptHeader]
    split
    · exact setAccept s t _
    · exact setAccept s t _
  · next header length _ =>
    refine acceptRead (fun a encrypted ↦ ?_) h
    rw [acceptFrame]
    split
    · next p payload hfound =>
      split
      · next session hsession =>
        exact .single (.accept t a p session payload header encrypted hfound hsession)
      · exact .refl
    · exact setAccept s t _
  · cases h

end ServerStep

/-- **Every step is a sequence of steps of the sessions and the connections.** -/
theorem step_server (hs : s.Table) {a : Label} (hok : ok a) (h : s.step C reprOf a = some s') :
    ReflTransGen (ServerStep C reprOf ok) s s' := by
  cases a with
  | start port =>
      cases h
      simp only [start]
      split
      · exact .refl
      · split
        · exact .single (.control _ _ s.accepts s.stops s.connections (.inl rfl))
        · exact .refl
  | prepareSession client sharedSecret controllerSalt accessorySalt =>
      simp only [step] at h
      split at h
      · cases h
        exact ServerStep.prepareSession hs client sharedSecret controllerSalt accessorySalt hok
      · cases h
  | expire p =>
      simp only [step] at h
      split at h
      · next hp =>
        cases h
        rw [hs.expirePrepared_eq hp]
        exact .single (.remove p)
      · cases h
  | closeForClient client =>
      cases h
      exact (ServerStep.removals hs _).trans (ServerStep.closings _ _)
  | closeAll =>
      cases h
      exact (ServerStep.removals hs _).trans (ServerStep.closings _ _)
  | stop =>
      cases h
      exact ((ServerStep.removals hs _).trans (ServerStep.closings _ _)).tail
        (.control _ _ _ _ _ (.inl rfl))
  | resumeStop i =>
      obtain ⟨pc, -, h⟩ := Option.bind_eq_some_iff.mp h
      cases pc with
      | closing =>
          cases h
          exact .single (.control _ s.port s.accepts _ s.connections (.inl rfl))
      | gathering =>
          cases h
          exact .single (.control s.server _ s.accepts _ _ (.inr ⟨rfl, i, hok⟩))
      | stopped => cases h
  | connect =>
      cases h
      exact .single (.control s.server s.port _ s.stops s.connections (.inl rfl))
  | feedAccept t data =>
      obtain ⟨a, -, h⟩ := Option.bind_eq_some_iff.mp h
      rw [feedAccept] at h
      split at h
      · split at h
        · cases h
        · cases h
          exact ServerStep.setAccept s t _
      · split at h
        · cases h
        · cases h
          exact ServerStep.setAccept s t _
      · cases h
  | endAccept t =>
      obtain ⟨a, -, h⟩ := Option.bind_eq_some_iff.mp h
      rw [endAccept] at h
      split at h <;> cases h <;> exact ServerStep.setAccept s t _
  | resumeAccept t =>
      obtain ⟨a, -, h⟩ := Option.bind_eq_some_iff.mp h
      exact ServerStep.resumeAccept h
  | failAccept t =>
      obtain ⟨a, -, h⟩ := Option.bind_eq_some_iff.mp h
      rw [failAccept] at h
      split at h <;> cases h <;> exact ServerStep.setAccept s t _
  | connection i a =>
      obtain ⟨c, hc, h⟩ := Option.bind_eq_some_iff.mp h
      obtain ⟨c', hc', rfl⟩ := Option.map_eq_some_iff.mp h
      exact .single (.connection i c c' a hc hc')

/-! ## The table in every state -/

/-- The client address of a session that is there stays. -/
theorem clientAddr?_addSession {client : ClientAddr}
    {sharedSecret controllerSalt accessorySalt : Bytes} {p : Nat} (hp : p < s.sessions.length) :
    (s.addSession C.hkdf client sharedSecret controllerSalt accessorySalt).clientAddr? p =
      s.clientAddr? p := by
  simp only [clientAddr?, addSession]
  rw [List.getElem?_append_left hp]

namespace Table

/-- A session that is added finds the table in order. -/
theorem addSession (hs : s.Table) {client : ClientAddr}
    {sharedSecret controllerSalt accessorySalt : Bytes}
    (haddr : ∀ p ∈ s.prepared, s.clientAddr? p ≠ some client)
    (hroom : s.prepared.length < maxPreparedSessions) :
    (s.addSession C.hkdf client sharedSecret controllerSalt accessorySalt).Table where
  nodup := by
    refine List.nodup_append.mpr ⟨hs.nodup, List.nodup_singleton _, ?_⟩
    rintro p hp q hq rfl
    exact Nat.lt_irrefl _ (List.mem_singleton.mp hq ▸ hs.lt p hp)
  timers := congrArg (· ++ [s.sessions.length]) hs.timers
  timeout p session hsession := by
    simp only [HDSServer.addSession, List.mem_append, List.mem_singleton]
    rcases getElem?_concat_eq_some.mp hsession with hold | ⟨rfl, rfl⟩
    · have hne : p ≠ s.sessions.length := Nat.ne_of_lt (lt_length_of_getElem? hold)
      rw [hs.timeout p session hold]
      simp only [hne, or_false]
    · rw [if_pos (.inr rfl)]
  lt p hp := by
    simp only [HDSServer.addSession, List.length_append, List.length_singleton]
    rcases List.mem_append.mp hp with hp | hp
    · exact Nat.lt_succ_of_lt (hs.lt p hp)
    · rw [List.mem_singleton.mp hp]
      exact Nat.lt_succ_self _
  addr := by
    have hnew : (s.addSession C.hkdf client sharedSecret controllerSalt accessorySalt).clientAddr?
        s.sessions.length = some client := by
      simp only [clientAddr?, HDSServer.addSession, getElem?_concat_length, Option.map_some]
    refine List.pairwise_append.mpr ⟨?_, List.pairwise_singleton _ _, ?_⟩
    · refine hs.addr.imp_of_mem fun hp hq hne ↦ ?_
      rwa [clientAddr?_addSession (hs.lt _ hp), clientAddr?_addSession (hs.lt _ hq)]
    · intro p hp q hq
      rw [List.mem_singleton.mp hq, hnew, clientAddr?_addSession (hs.lt p hp)]
      exact haddr p hp
  size := by
    simp only [HDSServer.addSession, List.length_append, List.length_singleton]
    exact hroom

/-- Every step keeps the table in order. -/
theorem serverStep (hs : s.Table) (h : ServerStep C reprOf ok s s') : s'.Table := by
  cases h with
  | control server port accepts stops connections _ =>
      exact ⟨hs.nodup, hs.timers, hs.timeout, hs.lt, hs.addr, hs.size⟩
  | remove p => exact hs.withoutSession p
  | add client sharedSecret controllerSalt accessorySalt _ haddr hroom _ =>
      exact hs.addSession haddr hroom
  | connection i c c' a _ _ => exact ⟨hs.nodup, hs.timers, hs.timeout, hs.lt, hs.addr, hs.size⟩
  | accept t a p session payload header encrypted _ _ =>
      have hs := hs.withoutSession p
      rw [openConnection, Table.removePrepared_eq ‹_›]
      exact ⟨hs.nodup, hs.timers, hs.timeout, hs.lt, hs.addr, hs.size⟩

theorem new : HDSServer.new.Table where
  nodup := List.nodup_nil
  timers := rfl
  timeout _ _ h := by cases h
  lt _ h := by cases h
  addr := .nil
  size := Nat.zero_le _

end Table

/-- An invariant of the server beside its table, from what one step of the sessions and the
connections preserves. -/
theorem steps_invariant {I : HDSServer → Prop}
    (hI : ∀ s s' : HDSServer, s.Table → ServerStep C reprOf ok s s' → I s → I s')
    (h : ReflTransGen (ServerStep C reprOf ok) s s') (hs : s.Table) (hi : I s) :
    s'.Table ∧ I s' := by
  induction h with
  | refl => exact ⟨hs, hi⟩
  | tail _ hstep ih => exact ⟨ih.1.serverStep hstep, hI _ _ ih.1 hstep ih.2⟩

/-- The same along a step of the server. -/
theorem step_invariant {I : HDSServer → Prop}
    (hI : ∀ s s' : HDSServer, s.Table → ServerStep C reprOf ok s s' → I s → I s') {a : Label}
    (hok : ok a) (h : s.step C reprOf a = some s') (hs : s.Table) (hi : I s) :
    s'.Table ∧ I s' :=
  steps_invariant hI (step_server hs hok h) hs hi

/-- The same in every reachable state. -/
theorem invariant {I : HDSServer → Prop} (hnew : I .new)
    (hI : ∀ s s' : HDSServer, s.Table → ServerStep C reprOf (fun _ ↦ True) s s' → I s → I s')
    (h : (servers C reprOf).Reachable s) : s.Table ∧ I s := by
  refine h.invariant (I := fun s ↦ s.Table ∧ I s) ?_ ?_
  · rintro s rfl
    exact ⟨.new, hnew⟩
  · intro s s' a hs hstep
    exact step_invariant hI trivial hstep hs.1 hs.2

/-! ## The connections -/

/-- Every connection is made of a session of its own, which is not listed any more. -/
structure Opened (s : HDSServer) : Prop where
  nodup : (s.opened.map HDSConnection.session).Nodup
  away : ∀ c ∈ s.opened, c.session ∉ s.prepared
  keys : ∀ c ∈ s.opened, ∃ session, s.sessions[c.session]? = some session ∧
    c.outKey = session.accessoryToControllerKey ∧ c.inKey = session.controllerToAccessoryKey

/-- What `_accept` finds is a listed session whose key opens the frame as the first one. -/
theorem identify_eq_some {header encrypted payload : Bytes} {p : Nat}
    (h : s.identify C.aead header encrypted = some (p, payload)) :
    p ∈ s.prepared ∧ ∃ session n, s.sessions[p]? = some session ∧ nonce 0 = .ok n ∧
      C.aead.decrypt session.controllerToAccessoryKey n encrypted header = some payload := by
  obtain ⟨q, hq, h⟩ := List.exists_of_findSome?_eq_some h
  obtain ⟨session, hsession, h⟩ := Option.bind_eq_some_iff.mp h
  obtain ⟨n, hn, h⟩ := Option.bind_eq_some_iff.mp h
  obtain ⟨payload', hopen, h⟩ := Option.map_eq_some_iff.mp h
  obtain ⟨rfl, rfl⟩ := Prod.mk.inj h
  exact ⟨hq, session, n, hsession, toOption_eq_some.mp hn, hopen⟩

namespace Opened

/-- A session keeps its keys when it is removed. -/
theorem keys_withoutSession (p : Nat) {q : Nat} {session : PreparedSession}
    (h : s.sessions[q]? = some session) :
    ∃ session', (s.withoutSession p).sessions[q]? = some session' ∧
      session'.accessoryToControllerKey = session.accessoryToControllerKey ∧
      session'.controllerToAccessoryKey = session.controllerToAccessoryKey := by
  rw [withoutSession, getElem?_modify_timeout]
  split
  · exact ⟨{ session with timeout := none }, by rw [h, Option.map_some], rfl, rfl⟩
  · exact ⟨session, h, rfl, rfl⟩

theorem withoutSession (hs : s.Opened) (p : Nat) : (s.withoutSession p).Opened where
  nodup := hs.nodup
  away c hc hmem := hs.away c hc (List.mem_of_mem_erase hmem)
  keys c hc := by
    obtain ⟨session, hsession, hout, hin⟩ := hs.keys c hc
    obtain ⟨session', hsession', hout', hin'⟩ := keys_withoutSession p hsession
    exact ⟨session', hsession', by rw [hout, hout'], by rw [hin, hin']⟩

/-- A step of a connection changes none of what it is made with. -/
theorem setConnection (hs : s.Opened) {i : Nat} {c c' : HDSConnection}
    (hc : s.opened[i]? = some c) (hfixed : c.Fixed c') : (s.setConnection i c c').Opened := by
  obtain ⟨hsession, hout, hin, -⟩ := hfixed
  have hmem : ∀ c₁ ∈ s.opened.set i c', ∃ c₀ ∈ s.opened,
      c₁.session = c₀.session ∧ c₁.outKey = c₀.outKey ∧ c₁.inKey = c₀.inKey := by
    intro c₁ hc₁
    rcases List.mem_or_eq_of_mem_set hc₁ with hc₁ | rfl
    · exact ⟨c₁, hc₁, rfl, rfl, rfl⟩
    · exact ⟨c, List.mem_of_getElem? hc, hsession, hout, hin⟩
  constructor
  · have hplace : (s.opened.map HDSConnection.session)[i]? = some c.session := by
      rw [List.getElem?_map, hc, Option.map_some]
    rw [HDSServer.setConnection, List.map_set, hsession, set_of_getElem? hplace]
    exact hs.nodup
  · intro c₁ hc₁
    obtain ⟨c₀, hc₀, heq, -, -⟩ := hmem c₁ hc₁
    rw [heq]
    exact hs.away c₀ hc₀
  · intro c₁ hc₁
    obtain ⟨c₀, hc₀, heq, hout, hin⟩ := hmem c₁ hc₁
    rw [heq, hout, hin]
    exact hs.keys c₀ hc₀

/-- A new connection takes its session off the table. -/
theorem openConnection (htable : s.Table) (hs : s.Opened) {t p : Nat} {a : Accept}
    {session : PreparedSession} {payload : Bytes} (hp : p ∈ s.prepared)
    (hsession : s.sessions[p]? = some session) :
    (s.openConnection t a p session payload).Opened := by
  have hout := hs.withoutSession p
  rw [HDSServer.openConnection, htable.removePrepared_eq]
  constructor
  · rw [List.map_append, List.nodup_append]
    refine ⟨hout.nodup, List.nodup_singleton _, ?_⟩
    rintro q hq q' hq' rfl
    obtain ⟨c, hc, rfl⟩ := List.mem_map.mp hq
    exact hs.away c hc (List.mem_singleton.mp hq' ▸ hp)
  · intro c hc
    rcases List.mem_append.mp hc with hc | hc
    · exact hout.away c hc
    · rw [List.mem_singleton.mp hc]
      exact htable.nodup.not_mem_erase
  · intro c hc
    rcases List.mem_append.mp hc with hc | hc
    · exact hout.keys c hc
    · obtain ⟨session', hsession', hout', hin'⟩ := keys_withoutSession p hsession
      rw [List.mem_singleton.mp hc]
      exact ⟨session', hsession', hout'.symm, hin'.symm⟩

theorem serverStep (htable : s.Table) (h : ServerStep C reprOf ok s s') (hs : s.Opened) :
    s'.Opened := by
  cases h with
  | control server port accepts stops connections _ => exact ⟨hs.nodup, hs.away, hs.keys⟩
  | remove p => exact hs.withoutSession p
  | add client sharedSecret controllerSalt accessorySalt _ _ _ _ =>
      refine ⟨hs.nodup, fun c hc hmem ↦ ?_, fun c hc ↦ ?_⟩
      · obtain ⟨session, hsession, -, -⟩ := hs.keys c hc
        rcases List.mem_append.mp hmem with hmem | hmem
        · exact hs.away c hc hmem
        · exact absurd (List.mem_singleton.mp hmem) (Nat.ne_of_lt (lt_length_of_getElem? hsession))
      · obtain ⟨session, hsession, hout, hin⟩ := hs.keys c hc
        exact ⟨session, getElem?_concat_of_eq_some hsession, hout, hin⟩
  | connection i c c' a hc hstep => exact hs.setConnection hc (HDSConnection.step_fixed hstep)
  | accept t a p session payload header encrypted hfound hsession =>
      exact hs.openConnection htable (identify_eq_some hfound).1 hsession

theorem new : HDSServer.new.Opened where
  nodup := List.nodup_nil
  away _ h := by cases h
  keys _ h := by cases h

/-- Every connection of a reachable server is made of a session of its own. -/
theorem reachable (h : (servers C reprOf).Reachable s) : s.Opened :=
  (invariant Opened.new (fun _ _ htable hstep ↦ serverStep htable hstep) h).2

end Opened

end HDSServer

end AtvRemote.Hds
