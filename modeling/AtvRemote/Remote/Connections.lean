import AtvRemote.Remote.Steps

/-!
# The registered connections

`hds_connections` is keyed by the identifier of a target, and a connection carries the
identifier that it was told last.  `handle_message` overwrites that identifier before
`on_whoami` decides, and the close callback drops the entry of the latest identifier only;
so an entry stays behind when a registered connection is told another identifier, and a
connection that is closed is registered when its last message is a `whoami`.  `WhoamiOk`
says of a step that it does neither, and `registered_iff` that these are the only ways for
an entry to go wrong.
-/

namespace AtvRemote.Remote

open Lib Audio

variable {ε T : Type}

namespace AppleTVHomeKitRemote

/-- Every entry is an open connection that identifies itself so. -/
def Registered (r : AppleTVHomeKitRemote ε T) : Prop :=
  ∀ identifier c, r.hdsConnections.get identifier = some c →
    ∃ conn, r.connections[c]? = some conn ∧ conn.targetIdentifier = some identifier ∧
      conn.closed = false

/-- A `whoami` that comes on a connection registered under no other identifier and, if it
names a target, on an open one. -/
structure Identifies (r : AppleTVHomeKitRemote ε T) (c : Nat) (identifier : Int) : Prop where
  own : ∀ other, r.hdsConnections.get other = some c → other = identifier
  isOpen : 0 < identifier → r.targets.contains identifier = true → r.isClosed c = false

/-- A `whoami` that is handled identifies its connection properly. -/
def WhoamiOk (r : AppleTVHomeKitRemote ε T) : Label → Prop
  | .message c protocol topic message => ∀ identifier,
      whoamiIdentifier protocol topic message = some identifier → r.Identifies c identifier
  | _ => True

namespace Registered

variable {r r' : AppleTVHomeKitRemote ε T}

/-- Entries may go as long as the connections stay as they are. -/
theorem of_subset (hr : r.Registered) (hconnections : r'.connections = r.connections)
    (h : ∀ k c, r'.hdsConnections.get k = some c → r.hdsConnections.get k = some c) :
    r'.Registered := by
  intro identifier c hc
  rw [hconnections]
  exact hr identifier c (h identifier c hc)

/-- An entry is open. -/
theorem isClosed (hr : r.Registered) {identifier : Int} {c : Nat}
    (h : r.hdsConnections.get identifier = some c) : r.isClosed c = false := by
  obtain ⟨conn, hconn, -, hopen⟩ := hr identifier c h
  rw [AppleTVHomeKitRemote.isClosed, hconn]
  exact hopen

/-- A connection that is closed loses its entry. -/
theorem closes (hr : r.Registered) {c : Nat} (h : Closes c r r') : r'.Registered := by
  intro identifier c' hc'
  obtain ⟨hentry, hother⟩ := (h.hdsConnections identifier c').mp hc'
  obtain ⟨conn, hconn, hid, hopen⟩ := hr identifier c' hentry
  have hne : c' ≠ c := by
    rintro rfl
    refine hother ⟨rfl, hr.isClosed hentry, ?_⟩
    rw [hconn]
    exact hid
  refine ⟨conn, ?_, hid, hopen⟩
  rw [h.connections, List.getElem?_modify_ne _ _ (Ne.symm hne)]
  exact hconn

theorem sheds (hr : r.Registered) (h : Sheds r r') : r'.Registered := by
  induction h with
  | keeps h => exact hr.of_subset h.connections fun k c ↦ by rw [h.hdsConnections]; exact id
  | closes c h => exact hr.closes h
  | drops r hds h => exact hr.of_subset rfl h
  | trans _ _ ih ih' => exact ih' (ih hr)

end Registered

section

variable {json : JsonText} {opus : OpusEncoder ε} {r : AppleTVHomeKitRemote ε json.Text}

/-- The steps of the lock leave connections to what they shed. -/
theorem Registered.siriStep {r' : AppleTVHomeKitRemote ε json.Text} (hr : r.Registered)
    (h : SiriStep r r') : r'.Registered := by
  cases h with
  | called => exact hr.of_subset rfl fun _ _ ↦ id
  | moved => exact hr.of_subset rfl fun _ _ ↦ id
  | acquired => exact hr.of_subset rfl fun _ _ ↦ id
  | failed _ _ _ _ _ _ hb => exact (hr.sheds hb).of_subset rfl fun _ _ ↦ id
  | started _ _ _ _ _ _ hb => exact (hr.sheds hb).of_subset rfl fun _ _ ↦ id
  | ended => exact hr.of_subset rfl fun _ _ ↦ id

/-- An accepted connection leaves the others as they are. -/
theorem Registered.accept (hr : r.Registered) (conn : Connection) (serverConnections : List Nat) :
    ({ r with connections := r.connections ++ [conn], serverConnections } :
      AppleTVHomeKitRemote ε json.Text).Registered := by
  intro identifier c hc
  obtain ⟨conn', hconn, hid, hopen⟩ := hr identifier c hc
  have hlt : c < r.connections.length := (List.getElem?_eq_some_iff.mp hconn).1
  exact ⟨conn', (List.getElem?_append_left hlt).trans hconn, hid, hopen⟩

/-- The connection under its new identifier. -/
theorem connections_identify {c : Nat} {conn : Connection} (h : r.connections[c]? = some conn)
    (identifier : Int) : (r.identify c identifier).connections[c]? =
      some { conn with targetIdentifier := some identifier } := by
  simp only [identify, List.getElem?_modify_eq, h]
  rfl

/-- A connection that is registered at most under the identifier that it is told. -/
theorem Registered.identify (hr : r.Registered) {c : Nat} {identifier : Int}
    (hown : ∀ other, r.hdsConnections.get other = some c → other = identifier) :
    (r.identify c identifier).Registered := by
  intro other c' hc'
  obtain ⟨conn, hconn, hid, hopen⟩ := hr other c' hc'
  by_cases hsame : c' = c
  · subst hsame
    exact ⟨_, connections_identify hconn identifier, congrArg some (hown other hc').symm, hopen⟩
  · exact ⟨conn, (List.getElem?_modify_ne _ _ (Ne.symm hsame)).trans hconn, hid, hopen⟩

/-- What the connection that is replaced leaves of another one. -/
theorem connections_closeReplaced (r : AppleTVHomeKitRemote ε json.Text) (identifier : Int)
    (c : Nat) : (r.closeReplaced json identifier c).connections[c]? = r.connections[c]? := by
  unfold closeReplaced
  split
  · next old _ =>
    split
    · next hne =>
      rw [(closes_closeConnection r old).connections]
      exact List.getElem?_modify_ne _ _ hne
    · rfl
  · rfl

/-- The connection that is replaced is not the new one, whose entries stay. -/
theorem get_closeReplaced (identifier : Int) {other : Int} {c : Nat}
    (h : r.hdsConnections.get other = some c) :
    (r.closeReplaced json identifier c).hdsConnections.get other = some c := by
  unfold closeReplaced
  split
  · next old _ =>
    split
    · next hne =>
      exact ((closes_closeConnection r old).hdsConnections other c).mpr
        ⟨h, fun hold ↦ hne hold.1.symm⟩
    · exact h
  · exact h

/-- A known identifier is registered. -/
theorem hdsWhoami_of_known {identifier : Int} (hpos : 0 < identifier)
    (hin : r.targets.contains identifier = true) (c : Nat) : r.hdsWhoami json identifier c =
      { r.closeReplaced json identifier c with
        hdsConnections :=
          (r.closeReplaced json identifier c).hdsConnections.set identifier c } := by
  unfold hdsWhoami
  rw [if_neg]
  rw [hin]
  simpa using hpos

/-- An unknown identifier closes the connection. -/
theorem hdsWhoami_of_unknown {identifier : Int}
    (h : ¬(0 < identifier ∧ r.targets.contains identifier = true)) (c : Nat) :
    r.hdsWhoami json identifier c = r.closeConnection c := by
  unfold hdsWhoami
  rw [if_pos]
  by_cases hpos : 0 < identifier
  · exact .inr (by simpa [hpos] using h)
  · exact .inl (Int.not_lt.mp hpos)

/-- **A connection that identifies itself properly is registered properly.** -/
theorem Registered.whoami (hr : r.Registered) {c : Nat} {identifier : Int}
    (hlt : c < r.connections.length) (h : r.Identifies c identifier) :
    ((r.identify c identifier).hdsWhoami json identifier c).Registered := by
  have hidentify := hr.identify h.own
  by_cases hknown : 0 < identifier ∧ r.targets.contains identifier = true
  · rw [hdsWhoami_of_known (r := r.identify c identifier) hknown.1 hknown.2]
    have hreplaced := hidentify.sheds (sheds_closeReplaced (r.identify c identifier) identifier c)
    have hconn := connections_identify (List.getElem?_eq_getElem hlt) identifier
    rw [← connections_closeReplaced] at hconn
    intro other c' hc'
    rw [Dict.get_set] at hc'
    split at hc'
    · next heq =>
      cases hc'
      refine ⟨_, hconn, congrArg some heq.symm, ?_⟩
      have hopen := h.isOpen hknown.1 hknown.2
      rwa [AppleTVHomeKitRemote.isClosed, List.getElem?_eq_getElem hlt] at hopen
    · exact hreplaced other c' hc'
  · rw [hdsWhoami_of_unknown (r := r.identify c identifier) hknown]
    exact hidentify.sheds (sheds_closeConnection _ c)

/-- **A `whoami` that leaves every entry in order identified its connection properly.** -/
theorem identifies_of_registered {c : Nat} {identifier : Int} (hlt : c < r.connections.length)
    (h : ((r.identify c identifier).hdsWhoami json identifier c).Registered) :
    r.Identifies c identifier := by
  have hconn := connections_identify (List.getElem?_eq_getElem hlt) identifier
  by_cases hknown : 0 < identifier ∧ r.targets.contains identifier = true
  · rw [hdsWhoami_of_known (r := r.identify c identifier) hknown.1 hknown.2] at h
    rw [← connections_closeReplaced] at hconn
    constructor
    · intro other hother
      by_contra hne
      obtain ⟨conn, hconn', hid, -⟩ := h other c ((Dict.get_set_of_ne hne c).trans
        (get_closeReplaced (r := r.identify c identifier) identifier hother))
      rw [hconn] at hconn'
      cases hconn'
      exact hne (Option.some.inj hid).symm
    · intro _ _
      obtain ⟨conn, hconn', -, hopen⟩ := h identifier c (Dict.get_set_self _ _ _)
      rw [hconn] at hconn'
      cases hconn'
      rw [isClosed, List.getElem?_eq_getElem hlt]
      exact hopen
  · rw [hdsWhoami_of_unknown (r := r.identify c identifier) hknown] at h
    refine ⟨fun other hother ↦ ?_, fun hpos hin ↦ (hknown ⟨hpos, hin⟩).elim⟩
    by_contra hne
    have hcloses := closes_closeConnection (r.identify c identifier) c
    -- the close callback looks at the new identifier
    have hstays : ((r.identify c identifier).closeConnection c).hdsConnections.get other =
        some c := by
      refine (hcloses.hdsConnections other c).mpr ⟨hother, fun hown ↦ hne ?_⟩
      have hid := hown.2.2
      rw [hconn] at hid
      exact (Option.some.inj hid).symm
    obtain ⟨conn, hconn', -, hopen⟩ := h other c hstays
    rw [hcloses.connections, List.getElem?_modify_eq, hconn] at hconn'
    cases hconn'
    cases hopen

/-- **One step keeps every entry in order exactly when it is a proper one.** -/
theorem registered_step {r' : AppleTVHomeKitRemote ε json.Text} {a : Label} (hr : r.Registered)
    (h : r.step json opus a = some r') : r'.Registered ↔ r.WhoamiOk a := by
  rcases step_cases h with
    ⟨client, rfl, rfl⟩ | ⟨c, protocol, topic, message, identifier, rfl, hlt, hid, rfl⟩ |
      ⟨hother, hstep⟩
  · exact iff_of_true (hr.accept _ _) trivial
  · constructor
    · intro hr' identifier' hid'
      rw [hid] at hid'
      obtain rfl := Option.some.inj hid'
      exact identifies_of_registered hlt hr'
    · exact fun hok ↦ hr.whoami hlt (hok identifier hid)
  · have hr' : r'.Registered := by
      rcases hstep with hsheds | hsiri
      · exact hr.sheds hsheds
      · exact hr.siriStep hsiri
    refine iff_of_true hr' ?_
    cases a with
    | message c protocol topic message =>
        intro identifier hid
        rw [hother c protocol topic message rfl] at hid
        cases hid
    | _ => trivial

/-- A new controller has no connection. -/
theorem registered_new (file : Option json.Text) :
    (new json file : AppleTVHomeKitRemote ε json.Text).Registered :=
  fun _ _ h ↦ by cases h

end

end AppleTVHomeKitRemote

open AppleTVHomeKitRemote

/-! ## Runs -/

/-- **Every entry is in order in every state of a run exactly when every `whoami` of the run
identifies its connection properly.** -/
theorem registered_iff (json : JsonText) (opus : OpusEncoder ε) (file : Option json.Text)
    (h : List (AppleTVHomeKitRemote ε json.Text × Label)) (r : AppleTVHomeKitRemote ε json.Text)
    (hrun : (remotes json opus file).Run h r) :
    ((∀ p ∈ h, p.1.Registered) ∧ r.Registered) ↔ ∀ p ∈ h, p.1.WhoamiOk p.2 := by
  induction hrun with
  | @init r hnew =>
      obtain rfl : r = .new json file := hnew
      exact iff_of_true ⟨fun _ hp ↦ absurd hp List.not_mem_nil, registered_new file⟩
        fun _ hp ↦ absurd hp List.not_mem_nil
  | @step h r r' a _ hstep ih =>
      simp only [List.mem_append, List.mem_singleton, or_imp, forall_and, forall_eq]
      rw [← ih]
      constructor
      · rintro ⟨⟨hpast, hr⟩, hr'⟩
        exact ⟨⟨hpast, hr⟩, (registered_step hr hstep).mp hr'⟩
      · rintro ⟨⟨hpast, hr⟩, hok⟩
        exact ⟨⟨hpast, hr⟩, (registered_step hr hstep).mpr hok⟩

/-- Two targets are added, and a connection identifies itself as the first. -/
def identifiedOnce : List Label :=
  [.start, .targetListWrite (.ofString "AQECAgYBBAEAAAA=") (some ⟨"hub", 1⟩) true,
    .targetListWrite (.ofString "AQECAgYBBAIAAAA=") (some ⟨"hub", 1⟩) true,
    .accept ⟨"hub", 1⟩, .whoami 0 1]

/-- A connection that identifies itself once. -/
theorem registered_iff_identifiedOnce :
    ∃ h r, (remotes .documents .verbatim none).Run h r ∧ r.hdsConnections.get 1 = some 0 ∧
      (((∀ p ∈ h, p.1.Registered) ∧ r.Registered) ↔ ∀ p ∈ h, p.1.WhoamiOk p.2) := by
  have hentry : ((remotes .documents .verbatim none).exec (.new .documents none)
      identifiedOnce).map (fun r ↦ r.hdsConnections.get 1) = some (some 0) := by decide
  obtain ⟨r, hr, hget⟩ := Option.map_eq_some_iff.mp hentry
  have hinit : (remotes .documents .verbatim none).Run [] (.new .documents none) := .init rfl
  have hrun := hinit.exec hr
  exact ⟨_, r, hrun, hget, registered_iff .documents .verbatim none _ r hrun⟩

/-- A connection that identifies itself as another target stays registered for the first. -/
theorem not_registered_identifiedTwice :
    ∃ r, (remotes .documents .verbatim none).Reachable r ∧ ¬r.Registered := by
  have hentry : ((remotes .documents .verbatim none).exec (.new .documents none)
      (identifiedOnce ++ [.whoami 0 2])).map
        (fun r ↦ (r.hdsConnections.get 1, r.connections[0]?.bind Connection.targetIdentifier)) =
      some (some 0, some 2) := by decide
  obtain ⟨r, hr, hget⟩ := Option.map_eq_some_iff.mp hentry
  obtain ⟨hone, htwo⟩ := Prod.mk.inj hget
  have hinit : (remotes .documents .verbatim none).Reachable (.new .documents none) := .init rfl
  refine ⟨r, hinit.exec hr, fun hregistered ↦ ?_⟩
  obtain ⟨conn, hconn, hid, -⟩ := hregistered 1 0 hone
  rw [hconn, Option.bind_some, hid] at htwo
  cases htwo

end AtvRemote.Remote
