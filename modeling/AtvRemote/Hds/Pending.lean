import AtvRemote.Hds.Revocation

/-!
# The pending sessions in every state

`TableAfter` says what each step is to make of the list of prepared sessions: which sessions it
takes out, and that it leaves the others where they are.  Every step does that in a server whose
table is in order (`Table.after`), and the table is in order in every reachable state.

A call of `prepare_session` that raises changes nothing.  Before its capacity check it removes
the client's own session; with such a session gone there is room, so at the check either there
was none, or the call goes on.
-/

namespace AtvRemote.Hds

open Lib Remote

namespace HDSServer

variable {C : Crypto} {reprOf : Obj → String} {s s' : HDSServer} {client : ClientAddr}

/-- The listed sessions that were not prepared for a client. -/
def preparedForOthers (s : HDSServer) (client : ClientAddr) : List Nat :=
  s.prepared.filter fun p ↦ s.clientAddr? p ≠ some client

/-- What a step is to make of the list of prepared sessions. -/
def TableAfter (C : Crypto) (s s' : HDSServer) : Label → Prop
  | .prepareSession client sharedSecret controllerSalt accessorySalt =>
      match (s.prepareSession C.hkdf client sharedSecret controllerSalt accessorySalt).1 with
      | .ok p => p ∉ s.prepared ∧ s'.clientAddr? p = some client ∧
          s'.prepared = s.preparedForOthers client ++ [p]
      | .error _ => s' = s
  | .expire p => p ∈ s.prepared ∧ s'.prepared = s.prepared.erase p
  | .closeForClient client => s'.prepared = s.preparedForOthers client
  | .closeAll | .stop => s'.prepared = []
  -- A session leaves the list when a connection is made of it.
  | .resumeAccept _ => s'.opened = s.opened ∧ s'.prepared = s.prepared ∨
      ∃ c, c.session ∈ s.prepared ∧ s'.opened = s.opened ++ [c] ∧
        s'.prepared = s.prepared.erase c.session
  | _ => s'.prepared = s.prepared

/-- Closing connections leaves the list alone. -/
theorem prepared_closings (is : List Nat) :
    (is.foldl closeConnection s).prepared = s.prepared := by
  rw [closings_rest]

/-! ## Removals -/

namespace Table

/-- Removals one after the other take out the sessions that they are given. -/
theorem prepared_removals (hs : s.Table) (ps : List Nat) :
    (ps.foldl removePrepared s).prepared = s.prepared.filter (· ∉ ps) := by
  induction ps generalizing s with
  | nil =>
      symm
      apply List.filter_eq_self.mpr
      intro p _
      rfl
  | cons p ps ih =>
      rw [List.foldl_cons, hs.removePrepared_eq, ih (hs.withoutSession p),
        HDSServer.withoutSession, hs.nodup.erase_eq_filter, List.filter_filter]
      apply List.filter_congr
      intro q _
      simp only [List.mem_cons, not_or, Bool.decide_and, bne, decide_not, Bool.and_comm,
        beq_eq_decide]

/-- A removal keeps the session object. -/
theorem length_removals (hs : s.Table) (ps : List Nat) :
    (ps.foldl removePrepared s).sessions.length = s.sessions.length := by
  induction ps generalizing s with
  | nil => rfl
  | cons p ps ih =>
      rw [List.foldl_cons, hs.removePrepared_eq, ih (hs.withoutSession p),
        HDSServer.withoutSession, List.length_modify]

/-- The sessions of a client leave the list, and no others. -/
theorem prepared_removeForClient (hs : s.Table) (client : ClientAddr) :
    (s.removeForClient client).prepared = s.preparedForOthers client := by
  rw [HDSServer.removeForClient, hs.prepared_removals]
  apply List.filter_congr
  intro p hp
  rw [decide_eq_decide, List.mem_filter, decide_eq_true_eq, not_and]
  exact ⟨fun h ↦ h hp, fun h _ ↦ h⟩

/-- When the list is full behind the removal of the client's session, there was none to remove. -/
theorem removeForClient_of_full (hs : s.Table)
    (hfull : maxPreparedSessions ≤ (s.removeForClient client).prepared.length) :
    s.removeForClient client = s := by
  rw [hs.prepared_removeForClient] at hfull
  have hsize : (s.preparedForOthers client).length = s.prepared.length :=
    Nat.le_antisymm (List.length_filter_le _ _) (Nat.le_trans hs.size hfull)
  have hnone : (s.prepared.filter fun p ↦ s.clientAddr? p = some client) = [] := by
    apply List.filter_eq_nil_iff.mpr
    intro p hp
    have hother := of_decide_eq_true (List.length_filter_eq_length_iff.mp hsize p hp)
    rw [decide_eq_true_eq]
    exact hother
  rw [HDSServer.removeForClient, hnone, List.foldl_nil]

/-! ## `prepare_session` -/

/-- **A call of `prepare_session` that raises changes nothing; one that returns replaces the
client's own session.** -/
theorem prepareSession_cases (hs : s.Table) (hkdf : Bytes → Bytes → Bytes → Bytes)
    (client : ClientAddr) (sharedSecret controllerSalt accessorySalt : Bytes) :
    (∃ e, s.prepareSession hkdf client sharedSecret controllerSalt accessorySalt = (.error e, s)) ∨
      s.prepareSession hkdf client sharedSecret controllerSalt accessorySalt =
        (.ok s.sessions.length, (s.removeForClient client).addSession hkdf client sharedSecret
          controllerSalt accessorySalt) := by
  rw [HDSServer.prepareSession]
  split
  · exact .inl ⟨_, rfl⟩
  · split
    · exact .inl ⟨_, rfl⟩
    · split
      · exact .inl ⟨_, rfl⟩
      · rw [prepareFresh]
        split
        · next hfull =>
          rw [hs.removeForClient_of_full hfull]
          exact .inl ⟨_, rfl⟩
        · rw [show (s.removeForClient client).sessions.length = s.sessions.length from
            hs.length_removals _]
          exact .inr rfl

/-- A session that replaces the client's own. -/
theorem prepared_addSession (hs : s.Table) (hkdf : Bytes → Bytes → Bytes → Bytes)
    (client : ClientAddr) (sharedSecret controllerSalt accessorySalt : Bytes) :
    let s' := (s.removeForClient client).addSession hkdf client sharedSecret controllerSalt
      accessorySalt
    s.sessions.length ∉ s.prepared ∧ s'.clientAddr? s.sessions.length = some client ∧
      s'.prepared = s.preparedForOthers client ++ [s.sessions.length] := by
  have hlength : (s.removeForClient client).sessions.length = s.sessions.length :=
    hs.length_removals _
  refine ⟨fun hmem ↦ Nat.lt_irrefl _ (hs.lt _ hmem), ?_, ?_⟩
  · rw [clientAddr?, HDSServer.addSession, ← hlength, getElem?_concat_length]
    rfl
  · rw [HDSServer.addSession, hs.prepared_removeForClient, hlength]

/-! ## Steps -/

/-- What `_accept` makes of the list when it goes on. -/
theorem after_resumeAccept (hs : s.Table) {t : Nat} {a : Accept}
    (h : s.resumeAccept C.aead t a = some s') : s.TableAfter C s' (.resumeAccept t) := by
  have hset : ∀ a, s.TableAfter C (s.setAccept t a) (.resumeAccept t) := fun a ↦ .inl ⟨rfl, rfl⟩
  have hread : ∀ {n : Nat} {k : Accept → Bytes → HDSServer},
      (∀ a b, s.TableAfter C (k a b) (.resumeAccept t)) → s.acceptRead t a n k = some s' →
      s.TableAfter C s' (.resumeAccept t) := by
    intro n k hk h
    rw [acceptRead] at h
    split at h
    · cases h
      exact hk _ _
    · split at h
      · cases h
        exact hset _
      · cases h
  rw [resumeAccept] at h
  split at h
  · refine hread (fun a b ↦ ?_) h
    rw [acceptHeader]
    split <;> exact hset _
  · refine hread (fun a encrypted ↦ ?_) h
    rw [acceptFrame]
    split
    · next p payload hfound =>
      split
      · rw [openConnection, hs.removePrepared_eq]
        exact .inr ⟨_, (identify_eq_some hfound).1, rfl, rfl⟩
      · exact .inl ⟨rfl, rfl⟩
    · exact hset _
  · cases h

/-- **Every step makes of the list what it is to make of it.** -/
theorem after (hs : s.Table) {a : Label} (h : s.step C reprOf a = some s') :
    s.TableAfter C s' a := by
  cases a with
  | start port =>
      cases h
      simp only [TableAfter, HDSServer.start]
      split
      · rfl
      · split <;> rfl
  | prepareSession client sharedSecret controllerSalt accessorySalt =>
      simp only [step] at h
      split at h
      · cases h
        rw [TableAfter]
        rcases hs.prepareSession_cases C.hkdf client sharedSecret controllerSalt accessorySalt with
          ⟨e, heq⟩ | heq
        · rw [heq]
        · rw [heq]
          exact hs.prepared_addSession C.hkdf client sharedSecret controllerSalt accessorySalt
      · cases h
  | expire p =>
      simp only [step] at h
      split at h
      · next hp =>
        cases h
        rw [hs.expirePrepared_eq hp]
        exact ⟨hs.timers ▸ hp, rfl⟩
      · cases h
  | closeForClient client =>
      cases h
      rw [TableAfter, closeForClient, closeConnectionsFor, prepared_closings]
      exact hs.prepared_removeForClient client
  | closeAll =>
      cases h
      rw [TableAfter, closeAll, closeConnections, prepared_closings]
      exact hs.prepared_removeAll
  | stop =>
      cases h
      show s.removeAll.closeConnections.prepared = []
      rw [closeConnections, prepared_closings]
      exact hs.prepared_removeAll
  | resumeStop i =>
      obtain ⟨pc, -, h⟩ := Option.bind_eq_some_iff.mp h
      cases pc with
      | closing | gathering =>
          cases h
          rfl
      | stopped => cases h
  | connect =>
      cases h
      rfl
  | feedAccept t data =>
      obtain ⟨a, -, h⟩ := Option.bind_eq_some_iff.mp h
      rw [feedAccept] at h
      split at h
      · split at h
        · cases h
        · cases h
          rfl
      · split at h
        · cases h
        · cases h
          rfl
      · cases h
  | endAccept t =>
      obtain ⟨a, -, h⟩ := Option.bind_eq_some_iff.mp h
      rw [endAccept] at h
      split at h <;> cases h <;> rfl
  | resumeAccept t =>
      obtain ⟨a, -, h⟩ := Option.bind_eq_some_iff.mp h
      exact hs.after_resumeAccept h
  | failAccept t =>
      obtain ⟨a, -, h⟩ := Option.bind_eq_some_iff.mp h
      rw [failAccept] at h
      split at h <;> cases h <;> rfl
  | connection i a =>
      obtain ⟨c, -, h⟩ := Option.bind_eq_some_iff.mp h
      obtain ⟨c', -, rfl⟩ := Option.map_eq_some_iff.mp h
      rfl

end Table

/-- **The table of prepared sessions is in order in every reachable state, and every step takes
out of it exactly what it is to take out.** -/
theorem preparedTable (C : Crypto) (reprOf : Obj → String) (s : HDSServer)
    (h : (servers C reprOf).Reachable s) :
    s.prepared.length ≤ 16 ∧ s.prepared.Nodup ∧
      (∀ p ∈ s.prepared, ∀ q ∈ s.prepared, s.clientAddr? p = s.clientAddr? q → p = q) ∧
      s.timers.Nodup ∧ (∀ p, p ∈ s.timers ↔ p ∈ s.prepared) ∧
      (∀ (p : Nat) (session : PreparedSession), s.sessions[p]? = some session →
        session.timeout = if p ∈ s.prepared then some p else none) ∧
      ∀ (a : Label) (s' : HDSServer), s.step C reprOf a = some s' → s.TableAfter C s' a := by
  obtain ⟨hs, -⟩ := invariant (I := fun _ ↦ True) trivial (fun _ _ _ _ _ ↦ trivial) h
  refine ⟨hs.size, hs.nodup, ?_, hs.timers ▸ hs.nodup, fun p ↦ by rw [hs.timers], hs.timeout,
    fun a s' hstep ↦ hs.after hstep⟩
  have haddr := List.Pairwise.forall_of_forall_of_flip
    (R := fun p q ↦ s.clientAddr? p = s.clientAddr? q → p = q) (fun _ _ _ ↦ rfl)
    (hs.addr.imp fun hne heq ↦ absurd heq hne) (hs.addr.imp fun hne heq ↦ absurd heq.symm hne)
  exact fun p hp q hq ↦ haddr hp hq

/-- Two sessions are pending, and the first client prepares another one. -/
theorem preparedTable_replaced :
    let C : Crypto := ⟨⟨fun _ _ data _ ↦ data, fun _ _ _ _ ↦ none⟩, fun _ _ info ↦ info⟩
    let label := fun (port : Nat) (salt : UInt8) ↦ Label.prepareSession ⟨"127.0.0.1", port⟩
      (.replicate 32 0) (.replicate 32 1) (.replicate 32 salt)
    ∃ s, (servers C fun _ ↦ "").exec .new
        [.start (some 50000), label 1 2, label 2 3, label 1 4] = some s ∧
      s.prepared = [1, 2] ∧ s.prepared.length ≤ 16 ∧ s.prepared.Nodup ∧
      (∀ p ∈ s.prepared, ∀ q ∈ s.prepared, s.clientAddr? p = s.clientAddr? q → p = q) ∧
      s.timers.Nodup ∧ (∀ p, p ∈ s.timers ↔ p ∈ s.prepared) ∧
      (∀ (p : Nat) (session : PreparedSession), s.sessions[p]? = some session →
        session.timeout = if p ∈ s.prepared then some p else none) ∧
      ∀ (a : Label) (s' : HDSServer), s.step C (fun _ ↦ "") a = some s' → s.TableAfter C s' a := by
  intro C label
  generalize hrun : (servers C fun _ ↦ "").exec .new _ = r
  have hr : r.map HDSServer.prepared = some [1, 2] := by
    rw [← hrun]
    decide +kernel
  obtain ⟨s, rfl, hs⟩ := Option.map_eq_some_iff.mp hr
  exact ⟨s, rfl, hs, preparedTable C _ s (.exec (.init rfl) hrun)⟩

end HDSServer

end AtvRemote.Hds
