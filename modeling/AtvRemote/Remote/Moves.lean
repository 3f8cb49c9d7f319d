import AtvRemote.Remote.Callbacks
import Mathlib.Logic.Relation

/-!
# The moves of the controller

What the methods of the controller do to its targets and to its selection is a sequence of
a few moves (`Move`), and what else a step does leaves both alone (`Apart`).  `step_turn`
says so of every step.  A law that is reflexive and transitive is proved of each move, and
then holds of every method.
-/

namespace AtvRemote.Remote.AppleTVHomeKitRemote

open Lib Audio Relation

variable {ε T : Type}

/-! ## Moves -/

/-- One change of the targets, of the selection or of what depends on them. -/
inductive Move : AppleTVHomeKitRemote ε T → AppleTVHomeKitRemote ε T → Prop
  /-- `_save_targets` writes the file, or raises. -/
  | save (r) (targetsFile : Option T) (saveFaults : List (Option SaveFault)) :
      Move r { r with targetsFile, saveFaults }
  /-- A connection is closed. -/
  | close (r) (c : Nat) : Move r (r.closeConnection c)
  /-- `_schedule_session_cancel` -/
  | cancel (r) (session : Option Nat) : Move r (r.scheduleSessionCancel session)
  /-- Targets are assigned, or deleted. -/
  | targets (r) (targets : Dict Int TargetConfiguration) : Move r { r with targets }
  /-- Registrations are dropped. -/
  | drop (r) (hdsConnections : Dict Int Nat)
      (h : ∀ k c, hdsConnections.get k = some c → r.hdsConnections.get k = some c) :
      Move r { r with hdsConnections }
  /-- Another target is selected, or none. -/
  | select (r) (identifier : Int) : Move r
      (setChars { r with activeIdentifier := identifier, activeClient := none } identifier 0)
  /-- The first target is selected. -/
  | selectFirst (r) (identifier : Int) (h : r.activeIdentifier = 0) : Move r { r with
      activeIdentifier := identifier
      accessory := r.accessory.map fun a ↦ { a with activeIdentifierChar := identifier } }
  /-- The active client is lost. -/
  | lose (r) : Move r { r with
      activeClient := none
      accessory := r.accessory.map fun a ↦ { a with activeChar := 0 } }

/-- One move after the other. -/
abbrev Moves : AppleTVHomeKitRemote ε T → AppleTVHomeKitRemote ε T → Prop := ReflTransGen Move

/-- A law that every move keeps holds of any number of them. -/
theorem Moves.law {R : AppleTVHomeKitRemote ε T → AppleTVHomeKitRemote ε T → Prop} [Std.Refl R]
    [IsTrans _ R] (hR : ∀ r r', Move r r' → R r r') {r r' : AppleTVHomeKitRemote ε T}
    (h : Moves r r') : R r r' := reflTransGen_le_of_le hR r r' h

section

variable (r : AppleTVHomeKitRemote ε T)

theorem moves_closings (cs : List Nat) : Moves r (cs.foldl closeConnection r) :=
  rel_foldl (fun r c ↦ .single (.close r c)) cs r

theorem moves_deleteTarget (identifier : Int) : Moves r (r.deleteTarget identifier) := by
  have herase : Moves r { r with
      targets := r.targets.erase identifier
      hdsConnections := r.hdsConnections.erase identifier } :=
    .tail (.single (.targets r _)) (.drop _ _ fun _ _ hk ↦ (Dict.get_of_get_erase hk).2)
  simp only [deleteTarget]
  split
  · exact herase.tail (.close _ _)
  · exact herase

/-- Cancelling a session does not look at the accessory. -/
theorem deactivate_lost (f : Accessory → Accessory) : { r.deactivate with
    accessory := r.deactivate.accessory.map f } = scheduleSessionCancel { r with
      activeClient := none
      accessory := r.accessory.map f } r.activeSiriSession := by
  simp only [deactivate, scheduleSessionCancel]
  split
  · rfl
  · split <;> rfl

end

section

variable {json : JsonText} (r : AppleTVHomeKitRemote ε json.Text)

theorem moves_saveTargets : Moves r (r.saveTargets json).2 := by
  simp only [saveTargets]
  split <;> exact .single (.save r _ _)

/-- A selection that is made is written, and cancels the session of the other target. -/
theorem moves_selected {identifier : Int} (hrange : 0 ≤ identifier ∧ identifier ≤ 0xFFFFFFFF)
    (hknown : ¬(identifier ≠ 0 ∧ r.targets.contains identifier = false))
    (hne : identifier ≠ r.activeIdentifier) :
    Moves (setChars { r with activeIdentifier := identifier, activeClient := none } identifier 0)
      (r.setActiveIdentifier json identifier).2 := by
  rw [setActiveIdentifier, if_neg (not_not.mpr hrange), if_neg hknown, if_neg hne]
  refine rel_thenDo (moves_saveTargets _) fun _ b ↦ ?_
  split
  · next sid _ =>
    split
    · exact .single (.cancel b (some sid))
    · exact .refl
  · exact .refl

theorem moves_setActiveIdentifier (identifier : Int) :
    Moves r (r.setActiveIdentifier json identifier).2 := by
  by_cases hrange : 0 ≤ identifier ∧ identifier ≤ 0xFFFFFFFF
  · by_cases hknown : identifier ≠ 0 ∧ r.targets.contains identifier = false
    · rw [setActiveIdentifier, if_neg (not_not.mpr hrange), if_pos hknown]
    · by_cases hne : identifier = r.activeIdentifier
      · rw [setActiveIdentifier, if_neg (not_not.mpr hrange), if_neg hknown, if_pos hne]
      · exact .head (.select r identifier) (r.moves_selected hrange hknown hne)
  · rw [setActiveIdentifier, if_pos hrange]

theorem moves_addTarget (config : Option TargetConfiguration) :
    Moves r (r.addTarget json config).2 := by
  cases config with
  | none => exact .refl
  | some config =>
      simp only [addTarget]
      split
      · exact .refl
      · split
        · next hzero => exact .tail (.single (.targets r _)) (.selectFirst _ _ hzero)
        · exact .single (.targets r _)

theorem moves_updateTarget (config : Option TargetConfiguration) :
    Moves r (r.updateTarget json config).2 := by
  simp only [updateTarget]
  split
  · exact .single (.targets r _)
  · exact .refl

theorem moves_removeTarget (config : Option TargetConfiguration) :
    Moves r (r.removeTarget json config).2 := by
  simp only [removeTarget]
  split
  · split
    · split
      · exact (r.moves_deleteTarget _).trans (moves_setActiveIdentifier _ _)
      · exact r.moves_deleteTarget _
    · exact .single (.targets r _)
  · exact .refl

theorem moves_resetTargets (config : Option TargetConfiguration) :
    Moves r (r.resetTargets json config).2 := by
  cases config with
  | some => exact .refl
  | none =>
      have hclear : Moves r { r with targets := .empty } := .single (.targets r _)
      have hclosed := hclear.trans (moves_closings _ r.serverConnections)
      have hdropped := hclosed.tail (.drop _ .empty nofun)
      exact (hdropped.tail (.select _ 0)).tail (.cancel _ _)

theorem moves_targetOperation (operation : TargetOperation)
    (config : Option TargetConfiguration) :
    Moves r (r.targetOperation json operation config).2 := by
  cases operation with
  | undefined => exact .refl
  | add => exact r.moves_addTarget config
  | update => exact r.moves_updateTarget config
  | remove => exact r.moves_removeTarget config
  | reset => exact r.moves_resetTargets config
  | list =>
      simp only [targetOperation]
      split <;> exact .refl

theorem moves_hapTargetListWrite (value : PyStr) (client : Option ClientAddr) (admin : Bool) :
    Moves r (r.hapTargetListWrite json value client admin).2 := by
  rw [hapTargetListWrite]
  split
  · exact .refl
  · split
    · exact .refl
    · split
      · exact .refl
      · exact rel_thenDo (r.moves_targetOperation _ _) fun _ b ↦
          rel_thenDo b.moves_saveTargets fun _ _ ↦ .refl

theorem moves_hapActiveIdentifierWrite (value : Obj) (client : Option ClientAddr) :
    Moves r (r.hapActiveIdentifierWrite json value client).2 := by
  rw [hapActiveIdentifierWrite]
  split
  · exact .refl
  · split
    · exact .refl
    · exact r.moves_setActiveIdentifier _

theorem moves_hapConnectionLost (client : ClientAddr) :
    Moves r (r.hapConnectionLost json client) := by
  have hclosed : Moves r (r.closeForClient client) := r.moves_closings _
  simp only [hapConnectionLost]
  generalize r.closeForClient client = b at hclosed ⊢
  split
  · rw [b.deactivate_lost]
    exact (hclosed.tail (.lose b)).tail (.cancel _ _)
  · exact hclosed

theorem moves_selectSiri (target : Option Int) : Moves r (r.selectSiri json target).2 := by
  rw [selectSiri.eq_def]
  split
  · split
    · exact r.moves_setActiveIdentifier _
    · exact .refl
  · exact .refl

end

section

variable {json : JsonText} {opus : OpusEncoder ε} (r : AppleTVHomeKitRemote ε json.Text)

/-! ## Messages and sessions -/

/-- A message is handled by a session. -/
theorem sessionsOnly_hdsDataSend (c : Nat) (ack : Bool) (message : List (Obj × Obj)) :
    SessionsOnly r (r.hdsDataSend json opus c ack message).2 := by
  unfold hdsDataSend
  split
  · next streamId _ =>
    split
    · next sid _ =>
      split
      · split
        · exact .refl r
        · split
          · generalize Call.handleAck (getD message "endOfStream" (.bool false)).truthy = call
            simp only
            apply sessionsOnly_onSession
            intro u _ hclosed
            -- the coroutine is called and runs its first step
            have htask : (u.session.spawn call).tasks[u.session.tasks.length]? =
                some ⟨call, .start⟩ := by simp [Session.spawn]
            have hstep : (u.session.spawn call).step opus (r.isClosed c)
                (.run u.session.tasks.length) = some ((u.session.spawn call).begin opus
                  (r.isClosed c) u.session.tasks.length call) := by
              simp only [Session.step, htask, Option.bind_some, Session.runTask]
            exact Session.step_closed hstep hclosed
          · split
            · simp only
              apply sessionsOnly_onSession
              intro u _ _
              exact u.session.closed_handleClose _
            · exact .refl r
      · exact .refl r
    · exact .refl r
  · split
    · exact .refl r
    · exact .refl r
  · exact .refl r

theorem sessionsOnly_hdsEvent (opus : OpusEncoder ε) (c : Nat) (protocol topic : PyStr)
    (message : List (Obj × Obj)) :
    SessionsOnly r (r.hdsEvent json opus c protocol topic message).2 := by
  unfold hdsEvent
  split
  · exact .refl r
  · split
    · exact r.sessionsOnly_hdsDataSend c true message
    · split
      · exact r.sessionsOnly_hdsDataSend c false message
      · exact .refl r

theorem sessionsOnly_registerStream (sid : Nat) (status : Int) (message : List (Obj × Obj)) :
    SessionsOnly r (r.registerStream json sid status message).2 := by
  unfold registerStream
  split
  · unfold siriSessionOpened
    split
    · exact ⟨rfl, (SessionsOnly.refl r).sessions⟩
    · exact .refl r
  · exact .refl r

/-- The identifier of a `targetControl/whoami` that is handled. -/
def whoamiIdentifier (protocol topic : PyStr) (message : List (Obj × Obj)) : Option Int :=
  if protocol = .ofString hdsProtocolTargetControl ∧ topic = .ofString hdsTopicWhoami then
    match (Obj.lookup message (.text "identifier")).map Obj.toInt with
    | some (.ok identifier) => some identifier
    | _ => none
  else none

/-- The connection takes the identifier that it is told. -/
def identify (r : AppleTVHomeKitRemote ε T) (c : Nat) (identifier : Int) :
    AppleTVHomeKitRemote ε T :=
  { r with connections := r.connections.modify c fun conn ↦
      { conn with targetIdentifier := some identifier } }

/-- A message identifies its connection, or goes to a session; an exception ends the
connection. -/
theorem dispatch_cases (opus : OpusEncoder ε) (r : AppleTVHomeKitRemote ε json.Text) (c : Nat)
    (protocol topic : PyStr) (message : List (Obj × Obj)) :
    (∃ identifier, whoamiIdentifier protocol topic message = some identifier ∧
        r.dispatch json opus c protocol topic message =
          (r.identify c identifier).hdsWhoami json identifier c) ∨
      (whoamiIdentifier protocol topic message = none ∧
        ∃ b, (b = r ∨ b = (r.hdsEvent json opus c protocol topic message).2) ∧
          (r.dispatch json opus c protocol topic message = b ∨
            r.dispatch json opus c protocol topic message = b.closeConnection c)) := by
  unfold dispatch handleMessage whoamiIdentifier
  split
  · cases (Obj.lookup message (.text "identifier")).map Obj.toInt with
    | none => exact .inr ⟨rfl, r, .inl rfl, .inr rfl⟩
    | some parsed =>
        cases parsed with
        | error e => exact .inr ⟨rfl, r, .inl rfl, .inr rfl⟩
        | ok identifier => exact .inl ⟨identifier, rfl, rfl⟩
  · refine .inr ⟨rfl, (r.hdsEvent json opus c protocol topic message).2, .inr rfl, ?_⟩
    split
    · next heq =>
      rw [heq]
      exact .inl rfl
    · next heq =>
      rw [heq]
      exact .inr rfl

variable {r}

theorem sessionsOnly_stepSession {r' : AppleTVHomeKitRemote ε json.Text} {sid : Nat}
    {a : Session.Label} (h : r.stepSession json opus sid a = some r') : SessionsOnly r r' := by
  obtain ⟨u, hu, hstep⟩ := Option.bind_eq_some_iff.mp h
  obtain ⟨s, hs, rfl⟩ := Option.map_eq_some_iff.mp hstep
  refine r.sessionsOnly_onSession sid fun u' hu' hclosed ↦ ?_
  rw [hu] at hu'
  obtain rfl := Option.some.inj hu'
  exact Session.step_closed hs hclosed

end

/-! ## Steps -/

/-- Only connections and sessions differ, and no registration is added. -/
structure Apart (r r' : AppleTVHomeKitRemote ε T) : Prop where
  rest : r' = { r with
    hdsConnections := r'.hdsConnections
    siriSessions := r'.siriSessions
    activeSiriSession := r'.activeSiriSession
    siriWatchTask := r'.siriWatchTask
    siriLocked := r'.siriLocked
    connections := r'.connections
    serverConnections := r'.serverConnections
    sessions := r'.sessions
    siriCalls := r'.siriCalls }
  hdsConnections : ∀ k c, r'.hdsConnections.get k = some c → r.hdsConnections.get k = some c

namespace Apart

variable {r r' r'' : AppleTVHomeKitRemote ε T}

theorem refl (r : AppleTVHomeKitRemote ε T) : Apart r r := ⟨rfl, fun _ _ ↦ id⟩

theorem trans (h : Apart r r') (h' : Apart r' r'') : Apart r r'' :=
  ⟨by rw [h'.rest, h.rest], fun k c hk ↦ h.hdsConnections k c (h'.hdsConnections k c hk)⟩

theorem targets (h : Apart r r') : r'.targets = r.targets := congrArg (·.targets) h.rest

theorem activeIdentifier (h : Apart r r') : r'.activeIdentifier = r.activeIdentifier :=
  congrArg (·.activeIdentifier) h.rest

theorem activeClient (h : Apart r r') : r'.activeClient = r.activeClient :=
  congrArg (·.activeClient) h.rest

instance : Std.Refl (@Apart ε T) := ⟨refl⟩

instance : IsTrans _ (@Apart ε T) := ⟨fun _ _ _ ↦ trans⟩

end Apart

theorem SessionsOnly.apart {r r' : AppleTVHomeKitRemote ε T} (h : SessionsOnly r r') :
    Apart r r' := by
  constructor
  · rw [h.rest]
  · rw [h.hdsConnections]
    exact fun _ _ ↦ id

theorem apart_closeConnection (r : AppleTVHomeKitRemote ε T) (c : Nat) :
    Apart r (r.closeConnection c) := by
  have hcloses := closes_closeConnection r c
  constructor
  · rw [hcloses.rest]
  · exact fun k c' hk ↦ ((hcloses.hdsConnections k c').mp hk).1

theorem apart_closings (r : AppleTVHomeKitRemote ε T) (cs : List Nat) :
    Apart r (cs.foldl closeConnection r) := rel_foldl apart_closeConnection cs r

section

variable {json : JsonText} {opus : OpusEncoder ε} {r r' : AppleTVHomeKitRemote ε json.Text}

/-- At most the connection that was registered is closed. -/
theorem closeReplaced_cases (r : AppleTVHomeKitRemote ε json.Text) (identifier : Int) (c : Nat) :
    r.closeReplaced json identifier c = r ∨
      ∃ old, r.closeReplaced json identifier c = r.closeConnection old := by
  rw [closeReplaced]
  split
  · split
    · exact .inr ⟨_, rfl⟩
    · exact .inl rfl
  · exact .inl rfl

theorem apart_hdsWhoami (r : AppleTVHomeKitRemote ε json.Text) (identifier : Int) (c : Nat) :
    Apart r (r.hdsWhoami json identifier c) ∨
      ∃ b, Apart r b ∧ r.targets.contains identifier = true ∧
        r.hdsWhoami json identifier c =
          { b with hdsConnections := b.hdsConnections.set identifier c } := by
  rw [hdsWhoami]
  split
  · exact .inl (r.apart_closeConnection c)
  · next hknown =>
    refine .inr ⟨_, ?_, Bool.of_not_eq_false fun hc ↦ hknown (.inr hc), rfl⟩
    rcases r.closeReplaced_cases identifier c with heq | ⟨old, heq⟩
    · rw [heq]
      exact .refl r
    · rw [heq]
      exact r.apart_closeConnection old

/-- A message registers its connection for a target, or leaves the targets alone. -/
theorem apart_dispatch (opus : OpusEncoder ε) (r : AppleTVHomeKitRemote ε json.Text) (c : Nat)
    (protocol topic : PyStr) (message : List (Obj × Obj)) :
    Apart r (r.dispatch json opus c protocol topic message) ∨
      ∃ b identifier, Apart r b ∧ r.targets.contains identifier = true ∧
        r.dispatch json opus c protocol topic message =
          { b with hdsConnections := b.hdsConnections.set identifier c } := by
  rcases r.dispatch_cases opus c protocol topic message with
    ⟨identifier, -, heq⟩ | ⟨-, b, hb, heq⟩
  · rw [heq]
    have hnamed : Apart r (r.identify c identifier) := ⟨rfl, fun _ _ ↦ id⟩
    rcases (r.identify c identifier).apart_hdsWhoami identifier c with
      happart | ⟨b, hb, hin, hset⟩
    · exact .inl (hnamed.trans happart)
    · exact .inr ⟨b, identifier, hnamed.trans hb, hin, hset⟩
  · have happart : Apart r b := by
      rcases hb with rfl | rfl
      · exact .refl b
      · exact (r.sessionsOnly_hdsEvent opus c protocol topic message).apart
    left
    rcases heq with heq | heq
    · rw [heq]
      exact happart
    · rw [heq]
      exact happart.trans (b.apart_closeConnection c)

/-- `start_siri` behind its selection leaves the targets alone. -/
theorem apart_startSiriLocked (opus : OpusEncoder ε) (r : AppleTVHomeKitRemote ε json.Text)
    (target : Option Int) (created : Option PyErr) :
    Apart (r.selectSiri json target).2 (r.startSiriLocked json opus target created).2 := by
  rw [startSiriLocked]
  obtain ⟨_ | _, b⟩ := r.selectSiri json target
  · exact ⟨rfl, fun _ _ ↦ id⟩
  · simp only [thenDo]
    rcases b.createSiri_cases opus created with ⟨e, heq⟩ | ⟨c, -, -, heq⟩
    · rw [heq]
      exact ⟨rfl, fun _ _ ↦ id⟩
    · rw [heq]
      exact ⟨rfl, fun _ _ ↦ id⟩

/-- What a step does to the targets and to the selection. -/
inductive Turn (r : AppleTVHomeKitRemote ε json.Text) :
    Label → AppleTVHomeKitRemote ε json.Text → Prop
  | start : Turn r .start { r with accessory := r.accessory.or (some ⟨0, 0⟩) }
  | saveFaults (faults : List (Option SaveFault)) :
      Turn r (.saveFaults faults) { r with saveFaults := faults }
  | targetListWrite (value : PyStr) (client : Option ClientAddr) (admin : Bool) :
      Turn r (.targetListWrite value client admin)
        (r.hapTargetListWrite json value client admin).2
  | activeWrite (value : Obj) (client : Option ClientAddr) :
      Turn r (.activeWrite value client) (r.hapActiveWrite json value client).2
  | hapConnectionLost (client : ClientAddr) :
      Turn r (.hapConnectionLost client) (r.hapConnectionLost json client)
  /-- `set_active_identifier`, which `hap_active_identifier_write` and `start_siri` call. -/
  | select (a : Label) (r') (identifier : Int)
      (h : Apart (r.setActiveIdentifier json identifier).2 r') : Turn r a r'
  /-- A connection is registered for a target. -/
  | registers (a : Label) (b) (identifier : Int) (c : Nat) (hb : Apart r b)
      (hin : r.targets.contains identifier = true) :
      Turn r a { b with hdsConnections := b.hdsConnections.set identifier c }
  | apart (a : Label) (r') (h : Apart r r') : Turn r a r'

/-- **The steps of the controller, seen from its targets.** -/
theorem step_turn {a : Label} (h : r.step json opus a = some r') : Turn r a r' := by
  have hgoto : ∀ (b : AppleTVHomeKitRemote ε json.Text) (t : Nat) (pc : SiriPc),
      Apart b (b.gotoSiri json t pc) := fun _ _ _ ↦ ⟨rfl, fun _ _ ↦ id⟩
  cases a with
  | start =>
      cases h
      exact .start
  | saveFaults faults =>
      cases h
      exact .saveFaults faults
  | targetListWrite value client admin =>
      cases h
      exact .targetListWrite value client admin
  | activeWrite value client =>
      cases h
      exact .activeWrite value client
  | hapConnectionLost client =>
      cases h
      exact .hapConnectionLost client
  | setActiveIdentifier identifier =>
      cases h
      exact .select _ _ identifier (.refl _)
  | activeIdentifierWrite value client =>
      cases h
      rw [hapActiveIdentifierWrite]
      split
      · exact .apart _ _ (.refl r)
      · split
        · exact .apart _ _ (.refl r)
        · exact .select _ _ _ (.refl _)
  | accept | startSiri =>
      cases h
      exact .apart _ _ ⟨rfl, fun _ _ ↦ id⟩
  | close c =>
      cases h
      exact .apart _ _ (r.apart_closeConnection c)
  | message c protocol topic content =>
      simp only [step] at h
      split at h
      · cases h
        rcases r.apart_dispatch opus c protocol topic content with
          happart | ⟨b, identifier, hb, hin, heq⟩
        · exact .apart _ _ happart
        · rw [heq]
          exact .registers _ b identifier c hb hin
      · cases h
  | enterSiri t =>
      simp only [step, stepSiri] at h
      split at h
      · split at h
        · cases h
          exact .apart _ _ (hgoto r t _)
        · split at h
          · cases h
            exact .apart _ _ (hgoto r t _)
          · cases h
            exact .apart _ _ ⟨rfl, fun _ _ ↦ id⟩
      · cases h
  | acquireSiri t | giveUpSiri t e =>
      simp only [step] at h
      split at h
      · cases h
        exact .apart _ _ ⟨rfl, fun _ _ ↦ id⟩
      · cases h
  | runSiri t created =>
      simp only [step] at h
      split at h
      · next target _ _ =>
        have hstart := apart_startSiriLocked opus r target created
        have hselect : ∀ b, Apart (r.selectSiri json target).2 b →
            Turn r (.runSiri t created) b := by
          intro b hb
          rw [selectSiri.eq_def] at hb
          split at hb
          · split at hb
            · exact .select _ _ _ hb
            · exact .apart _ _ hb
          · exact .apart _ _ hb
        split at h
        · next heq =>
          cases h
          rw [heq] at hstart
          exact hselect _ (hstart.trans (hgoto _ t _))
        · next heq =>
          cases h
          rw [heq] at hstart
          exact hselect _ (hstart.trans (hgoto _ t _))
      · cases h
  | session sid a =>
      cases a with
      | response => cases h
      | _ => exact .apart _ _ (sessionsOnly_stepSession h).apart
  | response sid t status message =>
      have hopened := r.sessionsOnly_registerStream sid status message
      exact .apart _ _ (hopened.trans (sessionsOnly_stepSession h)).apart
  | watch sid =>
      simp only [step] at h
      split at h
      · split at h
        · cases h
          exact .apart _ _ ⟨rfl, fun _ _ ↦ id⟩
        · cases h
      · cases h

end

end AtvRemote.Remote.AppleTVHomeKitRemote
