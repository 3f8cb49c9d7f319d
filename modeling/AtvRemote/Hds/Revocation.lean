import AtvRemote.Hds.Table

/-!
# Revoking the sessions of a client

`close_for_client` looks at two collections: the prepared sessions, and the connections that
are not closed.  Nothing that was derived for a client is anywhere else: a task that is still
reading its first frame has no session yet, and it finds one only in the table
(`Listed`).  So a client that is revoked stays revoked until a session is prepared for it
again (`Revoked.serverStep`).
-/

namespace AtvRemote.Hds

open Lib Relation Remote

namespace HDSServer

variable {C : Crypto} {reprOf : Obj → String} {ok : Label → Prop} {s s' : HDSServer}
  {client : ClientAddr}

/-- Every connection that is not closed is in `connections`. -/
def Listed (s : HDSServer) : Prop :=
  ∀ (i : Nat) (c : HDSConnection), s.opened[i]? = some c → c.closed = false → i ∈ s.connections

/-- Nothing that was derived for a client is left. -/
structure Revoked (client : ClientAddr) (s : HDSServer) : Prop where
  prepared : ∀ p ∈ s.prepared, s.clientAddr? p ≠ some client
  opened : ∀ (i : Nat) (c : HDSConnection), s.opened[i]? = some c → c.closed = false →
    s.clientAddr? c.session ≠ some client

/-- No connection can be made of a session of the client. -/
theorem Revoked.identify (h : s.Revoked client) {header encrypted payload : Bytes} {p : Nat}
    (hfound : s.identify C.aead header encrypted = some (p, payload)) :
    s.clientAddr? p ≠ some client :=
  h.prepared p (identify_eq_some hfound).1

/-! ## Connections -/

/-- A connection that was changed in one place. -/
theorem getElem?_setConnection {i j : Nat} {c c' c₁ : HDSConnection} (hc : s.opened[i]? = some c)
    (h : (s.setConnection i c c').opened[j]? = some c₁) :
    (j = i ∧ c₁ = c') ∨ (j ≠ i ∧ s.opened[j]? = some c₁) :=
  (getElem?_set_eq_some (lt_length_of_getElem? hc)).mp h

theorem Listed.setConnection (hs : s.Listed) {i : Nat} {c c' : HDSConnection}
    (hc : s.opened[i]? = some c) (hmono : c.closed = true → c'.closed = true) :
    (s.setConnection i c c').Listed := by
  intro j c₁ hc₁ hopen
  have hold : j ∈ s.connections := by
    rcases getElem?_setConnection hc hc₁ with ⟨rfl, rfl⟩ | ⟨-, hc₁⟩
    · refine hs j c hc (Bool.eq_false_iff.mpr fun hclosed ↦ ?_)
      rw [hmono hclosed] at hopen
      cases hopen
    · exact hs j c₁ hc₁ hopen
  rw [HDSServer.setConnection]
  split
  · next hcloses =>
    rcases getElem?_setConnection hc hc₁ with ⟨rfl, rfl⟩ | ⟨hne, -⟩
    · rw [hopen] at hcloses
      cases hcloses
    · exact (List.mem_erase_of_ne hne).mpr hold
  · exact hold

/-- Every step but the end of `stop` keeps the open connections listed. -/
theorem Listed.serverStep (hok : ∀ stop, ¬ok (.resumeStop stop)) (h : ServerStep C reprOf ok s s')
    (hs : s.Listed) : s'.Listed := by
  cases h with
  | control server port accepts stops connections hconnections =>
      obtain rfl := hconnections.resolve_right fun ⟨_, stop, hstop⟩ ↦ hok stop hstop
      exact hs
  | remove | add => exact hs
  | connection i c c' a hc hstep => exact hs.setConnection hc (HDSConnection.step_closed hstep)
  | accept t a p session payload header encrypted _ _ =>
      intro i c hc hopen
      rcases getElem?_concat_eq_some.mp hc with hold | ⟨rfl, -⟩
      · exact List.mem_append_left _ (hs i c hold hopen)
      · exact List.mem_append_right _ (List.mem_singleton_self _)

/-! ## Revocation lasts -/

theorem Revoked.withoutSession (hs : s.Revoked client) (p : Nat) :
    (s.withoutSession p).Revoked client where
  prepared q hq := by
    rw [clientAddr?_withoutSession]
    exact hs.prepared q (List.mem_of_mem_erase hq)
  opened i c hc hopen := by
    rw [clientAddr?_withoutSession]
    exact hs.opened i c hc hopen

/-- Every step but a setup of the client leaves nothing of it. -/
theorem Revoked.serverStep (hok : ∀ sharedSecret controllerSalt accessorySalt,
      ¬ok (.prepareSession client sharedSecret controllerSalt accessorySalt))
    (htable : s.Table) (hopened : s.Opened) (h : ServerStep C reprOf ok s s')
    (hs : s.Revoked client) : s'.Revoked client := by
  cases h with
  | control => exact ⟨hs.prepared, hs.opened⟩
  | remove p => exact hs.withoutSession p
  | add other sharedSecret controllerSalt accessorySalt hadd _ _ _ =>
      constructor
      · intro p hp
        rcases List.mem_append.mp hp with hp | hp
        · rw [clientAddr?_addSession (htable.lt p hp)]
          exact hs.prepared p hp
        · rw [List.mem_singleton.mp hp, clientAddr?, HDSServer.addSession, getElem?_concat_length]
          intro heq
          obtain rfl : other = client := Option.some.inj heq
          exact hok sharedSecret controllerSalt accessorySalt hadd
      · intro i c hc hopen
        obtain ⟨session, hsession, -⟩ := hopened.keys c (List.mem_of_getElem? hc)
        rw [clientAddr?_addSession (lt_length_of_getElem? hsession)]
        exact hs.opened i c hc hopen
  | connection i c c' a hc hstep =>
      refine ⟨hs.prepared, fun j c₁ hc₁ hopen ↦ ?_⟩
      rcases getElem?_setConnection hc hc₁ with ⟨-, rfl⟩ | ⟨-, hc₁⟩
      · have hold : c.closed = false := by
          refine Bool.eq_false_iff.mpr fun hclosed ↦ ?_
          rw [HDSConnection.step_closed hstep hclosed] at hopen
          cases hopen
        rw [(HDSConnection.step_fixed hstep).1]
        exact hs.opened i c hc hold
      · exact hs.opened j c₁ hc₁ hopen
  | accept t a p session payload header encrypted hfound hsession =>
      have hwithout := hs.withoutSession p
      rw [openConnection, htable.removePrepared_eq]
      refine ⟨hwithout.prepared, fun i c hc hopen ↦ ?_⟩
      rcases getElem?_concat_eq_some.mp hc with hold | ⟨-, rfl⟩
      · exact hwithout.opened i c hold hopen
      · have haddr := hs.identify hfound
        rw [← clientAddr?_withoutSession p] at haddr
        exact haddr

/-! ## `close_for_client` -/

/-- Closing a connection changes the connection, and takes it off the list. -/
theorem closeConnection_rest (s : HDSServer) (i : Nat) : s.closeConnection i = { s with
    opened := (s.closeConnection i).opened
    connections := (s.closeConnection i).connections } := by
  rw [closeConnection]
  split <;> rfl

theorem closings_rest (is : List Nat) : is.foldl closeConnection s = { s with
    opened := (is.foldl closeConnection s).opened
    connections := (is.foldl closeConnection s).connections } := by
  induction is generalizing s with
  | nil => rfl
  | cons i is ih =>
      rw [List.foldl_cons, ih, closeConnection_rest]

/-- Closing a connection twice closes it once. -/
theorem close_close (c : HDSConnection) : c.close.close = c.close :=
  if_pos c.closed_close

theorem getElem?_closeConnection {i j : Nat} {c' : HDSConnection} :
    (s.closeConnection i).opened[j]? = some c' ↔
      ∃ c, s.opened[j]? = some c ∧ c' = if j = i then c.close else c := by
  rw [closeConnection]
  split
  · next c hc =>
    rw [HDSServer.setConnection, getElem?_set_eq_some (lt_length_of_getElem? hc)]
    constructor
    · rintro (⟨rfl, rfl⟩ | ⟨hne, hc'⟩)
      · exact ⟨c, hc, (if_pos rfl).symm⟩
      · exact ⟨c', hc', (if_neg hne).symm⟩
    · rintro ⟨c₁, hc₁, rfl⟩
      split
      · next heq =>
        subst heq
        obtain rfl := Option.some.inj (hc.symm.trans hc₁)
        exact .inl ⟨rfl, rfl⟩
      · next hne => exact .inr ⟨hne, hc₁⟩
  · next hnone =>
    constructor
    · intro hc'
      refine ⟨c', hc', ?_⟩
      rw [if_neg]
      rintro rfl
      rw [hnone] at hc'
      cases hc'
    · rintro ⟨c, hc, rfl⟩
      rw [if_neg]
      · exact hc
      · rintro rfl
        rw [hnone] at hc
        cases hc

/-- Closing connections one after the other. -/
theorem getElem?_closings {is : List Nat} {j : Nat} {c' : HDSConnection} :
    (is.foldl closeConnection s).opened[j]? = some c' ↔
      ∃ c, s.opened[j]? = some c ∧ c' = if j ∈ is then c.close else c := by
  induction is generalizing s with
  | nil => simp
  | cons i is ih =>
      have htwice : ∀ c : HDSConnection, (if j ∈ is then (if j = i then c.close else c).close
          else if j = i then c.close else c) = if j ∈ i :: is then c.close else c := by
        intro c
        have hclose := close_close c
        by_cases hi : j = i <;> by_cases his : j ∈ is <;> simp [hi, his, hclose]
      rw [List.foldl_cons, ih]
      constructor
      · rintro ⟨c₁, hc₁, rfl⟩
        obtain ⟨c, hc, rfl⟩ := getElem?_closeConnection.mp hc₁
        exact ⟨c, hc, htwice c⟩
      · rintro ⟨c, hc, rfl⟩
        exact ⟨_, getElem?_closeConnection.mpr ⟨c, hc, rfl⟩, (htwice c).symm⟩

/-- The removal of prepared sessions leaves the connections alone. -/
theorem removals_opened (ps : List Nat) :
    (ps.foldl removePrepared s).opened = s.opened ∧
      (ps.foldl removePrepared s).connections = s.connections := by
  induction ps generalizing s with
  | nil => exact ⟨rfl, rfl⟩
  | cons p ps ih =>
      have hremove : (s.removePrepared p).opened = s.opened ∧
          (s.removePrepared p).connections = s.connections := by
        rw [removePrepared, cancelTimer]
        split <;> exact ⟨rfl, rfl⟩
      obtain ⟨hopened, hconnections⟩ := ih (s := s.removePrepared p)
      exact ⟨hopened.trans hremove.1, hconnections.trans hremove.2⟩

/-- **`close_for_client` leaves nothing of the client.** -/
theorem revoked_closeForClient (htable : s.Table) (hs : s.Listed) (client : ClientAddr) :
    (s.closeForClient client).Revoked client := by
  obtain ⟨hopened, hconnections⟩ :=
    removals_opened (s := s) (s.prepared.filter fun p ↦ s.clientAddr? p = some client)
  have hprepared := htable.clientAddr?_removeForClient client
  rw [closeForClient, closeConnectionsFor]
  generalize hs₁ : s.removeForClient client = s₁ at hprepared
  have hopened : s₁.opened = s.opened := hs₁ ▸ hopened
  have hconnections : s₁.connections = s.connections := hs₁ ▸ hconnections
  constructor
  · rw [closings_rest]
    exact hprepared
  · intro i c' hc' hopen
    obtain ⟨c, hc, rfl⟩ := getElem?_closings.mp hc'
    split at hopen
    · rw [HDSConnection.closed_close] at hopen
      cases hopen
    · next hnot =>
      have hmem : i ∈ s₁.connections := hconnections ▸ hs i c (hopened ▸ hc) hopen
      rw [if_neg hnot, closings_rest]
      intro heq
      refine hnot (List.mem_filter.mpr ⟨hmem, decide_eq_true ?_⟩)
      rw [connectionAddr?, hc, Option.bind_some]
      exact heq

end HDSServer

end AtvRemote.Hds
