import AtvRemote.Remote.Refusals
import AtvRemote.Remote.Restarts
import AtvRemote.Remote.Siri
import AtvRemote.Remote.TargetList

/-!
# What the controller says of itself

`state` is read by the clients of the HTTP API, which start an utterance when `siri_ready`
says that they can.  The report is true in every state: it lists the targets and the open
connections each once and in order, a session that is live is never hidden, and `siri_ready`
is exactly that a `start_siri` that has the lock makes a session.  The selection needs no
look of its own for that, since a connection is registered under the identifier of a target
only, and no target has the identifier 0.
-/

namespace AtvRemote.Remote

open Lib Audio

namespace AppleTVHomeKitRemote

section

variable {ε T : Type} (r : AppleTVHomeKitRemote ε T)

/-- `siri_ready` -/
def siriReady : Bool :=
  match r.hdsConnections.get r.activeIdentifier with
  | some c => r.activeClient.isSome && !r.isClosed c && r.siriAdvertised
  | none => false

/-- `siri_in_progress` of `state` -/
def siriInProgress : Bool :=
  match r.activeSiriSession with
  | some sid => (r.sessions[sid]?.map fun u ↦ u.session.closed) = some false
  | none => false

/-- `hds_targets` of `state` -/
def hdsTargets : List Int :=
  ((r.hdsConnections.items.filter fun p ↦ !r.isClosed p.2).map Prod.fst).insertionSort (· ≤ ·)

/-- What `state` says, next to the version, the name and the username. -/
structure Report where
  /-- `active_identifier` -/
  activeIdentifier : Int
  /-- `active` -/
  active : Bool
  /-- `configured_targets` -/
  configuredTargets : List Obj
  /-- `hds_targets` -/
  hdsTargets : List Int
  /-- `siri_ready` -/
  siriReady : Bool
  /-- `siri_in_progress` -/
  siriInProgress : Bool

/-- `state` -/
def state : Report where
  activeIdentifier := r.activeIdentifier
  active := r.activeClient.isSome
  configuredTargets := (sortedTargets r.targets).map targetToDict
  hdsTargets := r.hdsTargets
  siriReady := r.siriReady
  siriInProgress := r.siriInProgress

/-! ## Targets -/

theorem mem_hdsTargets {identifier : Int} : identifier ∈ r.hdsTargets ↔
    ∃ c, r.hdsConnections.get identifier = some c ∧ r.isClosed c = false := by
  rw [hdsTargets, List.mem_insertionSort, List.mem_map]
  constructor
  · rintro ⟨⟨k, c⟩, hmem, rfl⟩
    obtain ⟨hitem, hopen⟩ := List.mem_filter.mp hmem
    exact ⟨c, Dict.get_eq_some_iff.mpr hitem, Bool.not_eq_true' _ |>.mp hopen⟩
  · rintro ⟨c, hget, hopen⟩
    refine ⟨(identifier, c), List.mem_filter.mpr ⟨Dict.get_eq_some_iff.mp hget, ?_⟩, rfl⟩
    rw [hopen]
    rfl

/-- A list that is sorted and has no element twice ascends. -/
theorem pairwise_lt_insertionSort {α : Type} {f : α → Int} {xs : List α}
    (h : (xs.map f).Nodup) :
    (xs.insertionSort fun a b ↦ f a ≤ f b).Pairwise fun a b ↦ f a < f b := by
  have htotal : Std.Total fun a b : α ↦ f a ≤ f b := ⟨fun a b ↦ Int.le_total _ _⟩
  have htrans : IsTrans α fun a b ↦ f a ≤ f b := ⟨fun _ _ _ hab hbc ↦ Int.le_trans hab hbc⟩
  have hsorted := List.pairwise_insertionSort (fun a b ↦ f a ≤ f b) xs
  have hnodup : ((xs.insertionSort fun a b ↦ f a ≤ f b).map f).Nodup :=
    ((List.perm_insertionSort _ xs).map f).nodup_iff.mpr h
  have hne := List.pairwise_map.mp hnodup
  exact (hsorted.and hne).imp fun ⟨hle, hne⟩ ↦ lt_of_le_of_ne hle hne

theorem pairwise_hdsTargets : r.hdsTargets.Pairwise (· < ·) := by
  refine pairwise_lt_insertionSort (f := id) ?_
  rw [List.map_id]
  exact r.hdsConnections.nodup.sublist ((List.filter_sublist).map _)

variable {r}

/-- The targets are listed by ascending identifiers, each of them once. -/
theorem InOrder.pairwise_sortedTargets (hr : r.InOrder) :
    (sortedTargets r.targets).Pairwise fun a b ↦ a.targetIdentifier < b.targetIdentifier := by
  refine pairwise_lt_insertionSort ?_
  have hids : r.targets.values.map (·.targetIdentifier) = r.targets.keys := by
    rw [Dict.values, Dict.keys, List.map_map]
    refine List.map_congr_left fun p hp ↦ ?_
    exact (hr.targets p.1 p.2 (Dict.get_eq_some_iff.mpr hp)).1
  rw [hids]
  exact r.targets.nodup_keys

/-! ## Readiness -/

theorem siriReady_iff : r.siriReady = true ↔ r.activeClient.isSome = true ∧
    (∃ c, r.hdsConnections.get r.activeIdentifier = some c ∧ r.isClosed c = false) ∧
      r.siriAdvertised = true := by
  rw [siriReady]
  split
  · next c hc =>
    simp only [Bool.and_eq_true, Bool.not_eq_true', hc, Option.some.injEq]
    constructor
    · rintro ⟨⟨hclient, hopen⟩, hadvertised⟩
      exact ⟨hclient, ⟨c, rfl, hopen⟩, hadvertised⟩
    · rintro ⟨hclient, ⟨_, rfl, hopen⟩, hadvertised⟩
      exact ⟨⟨hclient, hopen⟩, hadvertised⟩
  · next hnone =>
    constructor
    · rintro ⟨⟩
    · rintro ⟨-, ⟨c, hc, -⟩, -⟩
      rw [hnone] at hc
      cases hc

/-- A registered identifier is not 0. -/
theorem InOrder.registered_ne_zero (hr : r.InOrder) {k : Int} {c : Nat}
    (hk : r.hdsConnections.get k = some c) : k ≠ 0 := by
  rintro rfl
  obtain ⟨t, ht⟩ := Option.isSome_iff_exists.mp (hr.hdsConnections 0 c hk)
  obtain ⟨hid, hwf⟩ := hr.targets 0 t ht
  have hpos := hwf.targetIdentifier
  omega

end

section

variable {ε : Type} {json : JsonText} {opus : OpusEncoder ε} {r : AppleTVHomeKitRemote ε json.Text}

/-- `start_siri` makes a session exactly when `siri_ready` says so. -/
theorem InOrder.createSiri_isOk_iff (hr : r.InOrder) :
    (∃ sid, (r.createSiri json opus none).1 = .ok sid) ↔ r.siriReady = true := by
  rw [siriReady_iff, createSiri]
  simp only
  split
  · next hzero =>
    constructor
    · rintro ⟨_, ⟨⟩⟩
    · rintro ⟨-, ⟨c, hc, -⟩, -⟩
      exact absurd hzero (hr.registered_ne_zero hc)
  · split
    · next hclient =>
      constructor
      · rintro ⟨_, ⟨⟩⟩
      · rintro ⟨hsome, -⟩
        rw [Option.isNone_iff_eq_none.mp hclient] at hsome
        cases hsome
    · next hclient =>
      have hclient : r.activeClient.isSome = true := by
        simpa only [Option.isNone_iff_eq_none, ← Option.isSome_iff_ne_none] using hclient
      split
      · next hnone =>
        constructor
        · rintro ⟨_, ⟨⟩⟩
        · rintro ⟨-, ⟨c, hc, -⟩, -⟩
          rw [hnone] at hc
          cases hc
      · next c hc =>
        split
        · next hclosed =>
          constructor
          · rintro ⟨_, ⟨⟩⟩
          · rintro ⟨-, ⟨c', hc', hopen⟩, -⟩
            rw [hc] at hc'
            cases hc'
            rw [hclosed] at hopen
            cases hopen
        · next hopen =>
          split
          · next hoff =>
            constructor
            · rintro ⟨_, ⟨⟩⟩
            · rintro ⟨-, -, hon⟩
              rw [hoff] at hon
              cases hon
          · next hon =>
            refine ⟨fun _ ↦ ⟨hclient, ⟨c, hc, ?_⟩, ?_⟩, fun _ ↦ ⟨_, rfl⟩⟩
            · exact Bool.eq_false_iff.mpr hopen
            · exact Bool.eq_true_of_not_eq_false hon

/-- A call of `start_siri` without a target, which waits for nobody. -/
def utter (t : Nat) : List Label := [.startSiri none true, .enterSiri t, .runSiri t none]

/-- A call that finds the lock free and nobody waiting makes a session exactly when `siri_ready`
says so. -/
theorem InOrder.utter_isOk_iff (hr : r.InOrder) (file : Option json.Text)
    (hfree : r.siriLocked = false) (hnobody : ∀ k ∈ r.siriCalls, k.pc ≠ .waiting) :
    ∃ r', (remotes json opus file).exec r (utter r.siriCalls.length) = some r' ∧
      ((∃ sid, r'.siriCalls[r.siriCalls.length]?.map SiriCall.pc = some (.returned sid)) ↔
        r.siriReady = true) := by
  let called : AppleTVHomeKitRemote ε json.Text :=
    { r with siriCalls := r.siriCalls ++ [⟨none, true, .start⟩] }
  let b : AppleTVHomeKitRemote ε json.Text :=
    gotoSiri json { called with siriLocked := true } r.siriCalls.length .acquired
  have hwaiting : called.siriCalls.any (·.pc = .waiting) = false := by
    rw [List.any_eq_false]
    intro k hk
    rcases List.mem_append.mp hk with hold | hnew
    · exact fun h ↦ hnobody k hold (of_decide_eq_true h)
    · rw [List.mem_singleton.mp hnew]
      rintro ⟨⟩
  have hcall : called.siriCalls[r.siriCalls.length]? = some ⟨none, true, .start⟩ :=
    List.getElem?_concat_length
  have henter : called.stepSiri json r.siriCalls.length = some b := by
    rw [stepSiri, hcall]
    simp only [hwaiting, show called.siriLocked = false from hfree, Bool.or_self, b,
      Bool.false_eq_true, reduceCtorEq, if_false]
  have hb : b.siriCalls[r.siriCalls.length]? = some ⟨none, true, .acquired⟩ := by
    simp only [b, gotoSiri, List.getElem?_modify_eq, hcall]
    rfl
  have hinOrder : b.InOrder :=
    ⟨hr.size, hr.targets, hr.hdsConnections, hr.activeIdentifier, hr.activeClient⟩
  have hready : (∃ sid, (b.createSiri json opus none).1 = .ok sid) ↔ r.siriReady = true :=
    hinOrder.createSiri_isOk_iff
  have hexec : (remotes json opus file).exec r (utter r.siriCalls.length) =
      (b.step json opus (.runSiri r.siriCalls.length none)).bind some := by
    show (called.stepSiri json r.siriCalls.length).bind _ = _
    rw [henter]
    rfl
  rw [hexec, ← hready, Option.bind_fun_some]
  simp only [step, hb, startSiriLocked, selectSiri, thenDo]
  rcases b.createSiri_cases opus none with ⟨e, heq⟩ | ⟨c, -, -, heq⟩
  · rw [heq]
    refine ⟨_, rfl, ?_, by rintro ⟨sid, ⟨⟩⟩⟩
    rintro ⟨sid, hsid⟩
    cases (pc_gotoSiri hb rfl _).symm.trans hsid
  · rw [heq]
    exact ⟨_, rfl, fun _ ↦ ⟨_, rfl⟩, fun _ ↦ ⟨_, pc_gotoSiri hb rfl _⟩⟩

/-! ## The report -/

/-- **What a report is worth.** -/
structure Report.Truthful (opus : OpusEncoder ε) (r : AppleTVHomeKitRemote ε json.Text)
    (report : Report) : Prop where
  /-- Every target is listed once, by ascending identifiers. -/
  configuredTargets : ∃ ts : List TargetConfiguration,
    report.configuredTargets = ts.map targetToDict ∧ ts.Perm r.targets.values ∧
      ts.Pairwise fun a b ↦ a.targetIdentifier < b.targetIdentifier
  /-- The identifiers with an open connection are listed once, and are those of targets. -/
  hdsTargets : report.hdsTargets.Pairwise (· < ·) ∧ ∀ k, k ∈ report.hdsTargets ↔
    r.targets.contains k = true ∧ ∃ c, r.hdsConnections.get k = some c ∧ r.isClosed c = false
  /-- An active report names a target. -/
  active : report.active = true → r.targets.contains report.activeIdentifier = true
  /-- Siri is ready on a target that is active and connected. -/
  siriReady : report.siriReady = true →
    report.active = true ∧ report.activeIdentifier ∈ report.hdsTargets
  /-- Siri is in progress while a session is live, and then nobody else gets in. -/
  siriInProgress : (report.siriInProgress = true ↔
      ∃ (sid : Nat) (u : Utterance ε), r.sessions[sid]? = some u ∧ u.session.closed = false) ∧
    (report.siriInProgress = true → r.siriLocked = true)
  /-- Siri is ready exactly when a call that finds the lock free makes a session. -/
  starts : r.siriLocked = false → (∀ k ∈ r.siriCalls, k.pc ≠ .waiting) →
    ∃ r', (remotes json opus none).exec r (utter r.siriCalls.length) = some r' ∧
      ((∃ sid, r'.siriCalls[r.siriCalls.length]?.map SiriCall.pc = some (.returned sid)) ↔
        report.siriReady = true)

theorem siriInProgress_iff : r.siriInProgress = true ↔
    ∃ (sid : Nat) (u : Utterance ε), r.activeSiriSession = some sid ∧
      r.sessions[sid]? = some u ∧ u.session.closed = false := by
  rw [siriInProgress]
  cases r.activeSiriSession with
  | none => simp
  | some sid =>
      cases hu : r.sessions[sid]? with
      | none => simp [hu]
      | some u => simp [hu]

theorem InOrder.truthful_state (hr : r.InOrder) (hlock : r.SingleUtterance) :
    r.state.Truthful opus r where
  configuredTargets :=
    ⟨_, rfl, List.perm_insertionSort _ _, hr.pairwise_sortedTargets⟩
  hdsTargets := by
    refine ⟨r.pairwise_hdsTargets, fun k ↦ ⟨fun hk ↦ ?_, fun ⟨_, hk⟩ ↦ ?_⟩⟩
    · obtain ⟨c, hc, hopen⟩ := r.mem_hdsTargets.mp hk
      exact ⟨hr.hdsConnections k c hc, c, hc, hopen⟩
    · exact r.mem_hdsTargets.mpr hk
  active h := hr.activeIdentifier.resolve_left (hr.activeClient h)
  siriReady h := by
    obtain ⟨hclient, hc, -⟩ := siriReady_iff.mp h
    exact ⟨hclient, r.mem_hdsTargets.mpr hc⟩
  siriInProgress := by
    have hiff : r.siriInProgress = true ↔
        ∃ (sid : Nat) (u : Utterance ε), r.sessions[sid]? = some u ∧
          u.session.closed = false := by
      rw [siriInProgress_iff]
      constructor
      · rintro ⟨sid, u, -, hu, hopen⟩
        exact ⟨sid, u, hu, hopen⟩
      · rintro ⟨sid, u, hu, hopen⟩
        exact ⟨sid, u, (hlock.live sid u hu hopen).1, hu, hopen⟩
    refine ⟨hiff, fun h ↦ ?_⟩
    obtain ⟨sid, u, hactive, -⟩ := siriInProgress_iff.mp h
    refine hlock.locked ?_
    rw [hactive]
    rfl
  starts := hr.utter_isOk_iff none

end

end AppleTVHomeKitRemote

open AppleTVHomeKitRemote

/-! ## Runs -/

/-- **The report is true in every state**, however saves end and whenever the process is
started again. -/
theorem state_truthful {ε : Type} (json : JsonText) (opus : OpusEncoder ε)
    (d : Host ε json.Text) (hjson : json.RoundTrips) (h : (hosts json opus).Reachable d) :
    d.remote.state.Truthful opus d.remote := by
  have hd : d.Recovers ∧ d.remote.SingleUtterance := by
    refine h.invariant (I := fun d ↦ d.Recovers ∧ d.remote.SingleUtterance) ?_ ?_
    · rintro d rfl
      exact ⟨Host.recovers_new, singleUtterance_new none⟩
    · rintro d d' a ⟨hd, hlock⟩ hstep
      refine ⟨hd.step hjson hstep, ?_⟩
      cases a with
      | remote a =>
          obtain ⟨r, hr, rfl⟩ := Option.map_eq_some_iff.mp hstep
          exact hlock.step hr
      | crash a faults =>
          obtain ⟨r, -, rfl⟩ := Option.map_eq_some_iff.mp hstep
          exact singleUtterance_new r.targetsFile
  exact hd.1.inOrder.truthful_state hd.2

/-- The process ends behind the save of a second target, and is started again; the Apple TV
that connects as the second target is selected and activated. -/
def reportedStages : List Host.Label :=
  [.remote .start, .remote addOne, .crash addTwo [some .chmod], .remote .start,
    .remote (.accept ⟨"hub", 1⟩), .remote (.whoami 0 2), .remote (.setActiveIdentifier 2),
    .remote (.activeWrite (.int 1) (some ⟨"hub", 1⟩))]

/-- The report names the second target, which is ready. -/
theorem state_truthful_reportedStages :
    ∃ d, (hosts .documents .verbatim).exec ⟨.new .documents none, [⟨.empty, 0⟩]⟩ reportedStages =
        some d ∧
      d.remote.state.activeIdentifier = 2 ∧ d.remote.state.hdsTargets = [2] ∧
      d.remote.state.siriReady = true ∧ d.remote.state.Truthful .verbatim d.remote := by
  generalize hrun : (hosts .documents .verbatim).exec _ reportedStages = x
  have hx : x.map (fun d ↦ (d.remote.state.activeIdentifier, d.remote.state.hdsTargets,
      d.remote.state.siriReady)) = some (2, [2], true) := by
    rw [← hrun]
    decide +kernel
  obtain ⟨d, rfl, hd⟩ := Option.map_eq_some_iff.mp hx
  obtain ⟨hactive, hrest⟩ := Prod.mk.inj hd
  obtain ⟨htargets, hready⟩ := Prod.mk.inj hrest
  exact ⟨d, rfl, hactive, htargets, hready,
    state_truthful .documents .verbatim d JsonText.documents_roundTrips (.exec (.init rfl) hrun)⟩

end AtvRemote.Remote
