import AtvRemote.Remote.Follows

/-!
# The utterances of `send_pcm`

What every call of `send_pcm` may rely on, whatever the other calls, the Apple TV and the
callers of the controller do in the meantime.  Its session has handed over the first packets of
what the call has written, and all of them when the call returned behind the end of the stream
(`Faithful`); and once the call is over nothing of its session is left (`leaves`).
-/

namespace AtvRemote.Remote

open Lib Audio AppleTVHomeKitRemote

variable {ε : Type} {json : JsonText} {opus : OpusEncoder ε}

/-! ## The places of a call -/

section

variable {s : Session ε} {k : SendCall} {sid : Nat} {pcm : Bytes}

/-- A call moves, and calls nothing. -/
theorem Follows.goto (hk : Follows k s) {pc : SendPc} (hpc : ∀ sid t, pc ≠ .writing sid t)
    (hidle : ∀ sid t, k.pc = .writing sid t → (s.pc? t).any Pc.done = true)
    (hsettled : pc.failed = false → s.accepted = k.written)
    (hwrites : k.pc.writes = false → pc.writes = false)
    (hawaits : ∀ sid t, pc ≠ .finishing sid t)
    (hended : ∀ sid t, k.pc = .finishing sid t → pc = .returned ∧ s.pc? t = some .returned)
    (hreturned : pc = .returned → ∃ (sid t : Nat), k.pc = .finishing sid t)
    (hfailed : pc.failed = k.pc.failed) : Follows { k with pc } s where
  waits t k' ht hwaits := by
    obtain ⟨sid, hwriting⟩ := hk.waits t k' ht hwaits
    have hdone := hidle sid t hwriting
    rw [Session.pc?, ht] at hdone
    have hnone : k'.waiting = none := Session.waiting_of_flushing (.inr hdone)
    rw [hnone] at hwaits
    cases hwaits
  brings sid t heq := absurd heq (hpc sid t)
  accepted := hk.accepted
  settled hok _ := hsettled hok
  finishes t positive pad pc' ht := by
    obtain ⟨hbehind, hrest⟩ := hk.finishes t positive pad pc' ht
    exact ⟨hwrites hbehind, hrest⟩
  finishing t positive pad pc' ht := by
    rcases hk.finishing t positive pad pc' ht with ⟨sid, hfinishing⟩ | hdone
    · have hplace := (hended sid t hfinishing).2
      rw [Session.pc?, ht] at hplace
      cases hplace
      exact .inr rfl
    · exact .inr hdone
  awaits sid t heq := absurd heq (hawaits sid t)
  returned heq := by
    obtain ⟨sid, t, hfinishing⟩ := hreturned heq
    obtain ⟨pc', ht'⟩ := hk.awaits sid t hfinishing
    have hplace := (hended sid t hfinishing).2
    rw [Session.pc?, ht'] at hplace
    cases hplace
    exact ⟨t, ht'⟩
  cancels := hk.cancels
  failed := hfailed.trans hk.failed

/-- A call that is between two chunks has created no `cancel_task`. -/
theorem Follows.untouched (hk : Follows k s) (hpc : k.pc = .between sid) :
    false = k.cancelTask.isSome := by
  have hfailed := hk.failed
  rwa [hpc] at hfailed

theorem Follows.untold (hk : Follows k s) (hpc : k.pc = .between sid) {s' : Session ε}
    (sid' t : Nat) (h : k.cancelTask = some (sid', t)) :
    ∃ pc : Pc, s'.tasks[t]? = some ⟨.cancel .cancelled, pc⟩ ∧ (pc = .start ∨ s'.Parting) := by
  have hnone := hk.untouched hpc
  rw [h] at hnone
  cases hnone

/-- The call calls `write`. -/
theorem Follows.write (hk : Follows k s) (hpc : k.pc = .between sid) (pcm : Bytes) :
    Follows { k with written := k.written ++ pcm, pc := .writing sid s.tasks.length }
      (s.spawn (.write pcm)) where
  waits t k' ht hwaits := by
    rcases getElem?_concat_eq_some.mp ht with hold | ⟨rfl, -⟩
    · obtain ⟨sid', hwriting⟩ := hk.waits t k' hold hwaits
      cases hpc.symm.trans hwriting
    · exact ⟨sid, rfl⟩
  brings sid' t heq := by
    cases heq
    refine ⟨pcm, .start, getElem?_concat_length _, fun _ ↦ ?_, by rintro ⟨⟩⟩
    have hsettled := hk.settled (by rw [hpc]; rfl) (by rw [hpc]; rintro _ _ ⟨⟩)
    exact congrArg (· ++ pcm) hsettled
  accepted := hk.accepted.trans (List.prefix_append _ _)
  settled _ hnot := absurd rfl (hnot sid s.tasks.length)
  finishes t positive pad pc ht := by
    rcases getElem?_concat_eq_some.mp ht with hold | ⟨-, heq⟩
    · have hbehind := (hk.finishes t positive pad pc hold).1
      rw [hpc] at hbehind
      cases hbehind
    · cases heq
  finishing t positive pad pc ht := by
    rcases getElem?_concat_eq_some.mp ht with hold | ⟨-, heq⟩
    · have hbehind := (hk.finishes t positive pad pc hold).1
      rw [hpc] at hbehind
      cases hbehind
    · cases heq
  awaits sid' t heq := by cases heq
  returned heq := by cases heq
  cancels := hk.untold hpc
  failed := hk.untouched hpc

/-- The call calls `finish`. -/
theorem Follows.finish (hk : Follows k s) (hpc : k.pc = .between sid) (hwhole : k.Whole) :
    Follows { k with pc := .finishing sid s.tasks.length } (s.spawn (.finish true true)) where
  waits t k' ht hwaits := by
    rcases getElem?_concat_eq_some.mp ht with hold | ⟨-, rfl⟩
    · obtain ⟨sid', hwriting⟩ := hk.waits t k' hold hwaits
      cases hpc.symm.trans hwriting
    · cases hwaits
  brings sid' t heq := by cases heq
  accepted := hk.accepted
  settled _ _ := hk.settled (by rw [hpc]; rfl) (by rw [hpc]; rintro _ _ ⟨⟩)
  finishes t positive pad pc ht := by
    rcases getElem?_concat_eq_some.mp ht with hold | ⟨-, heq⟩
    · have hbehind := (hk.finishes t positive pad pc hold).1
      rw [hpc] at hbehind
      cases hbehind
    · cases heq
      exact ⟨rfl, rfl, rfl, hk.settled (by rw [hpc]; rfl) (by rw [hpc]; rintro _ _ ⟨⟩), hwhole⟩
  finishing t positive pad pc ht := by
    rcases getElem?_concat_eq_some.mp ht with hold | ⟨rfl, -⟩
    · have hbehind := (hk.finishes t positive pad pc hold).1
      rw [hpc] at hbehind
      cases hbehind
    · exact .inl ⟨sid, rfl⟩
  awaits sid' t heq := by
    cases heq
    exact ⟨.start, getElem?_concat_length _⟩
  returned heq := by cases heq
  cancels := hk.untold hpc
  failed := hk.untouched hpc

/-- The call creates the task that cancels its session. -/
theorem Follows.cancel (hk : Follows k s) (e : PyErr)
    (hidle : ∀ sid t, k.pc = .writing sid t ∨ k.pc = .finishing sid t →
      (s.pc? t).any Pc.done = true) :
    Follows { k with
      cancelTask := some (sid, s.tasks.length)
      pc := .cancelling sid s.tasks.length e } (s.spawn (.cancel .cancelled)) where
  waits t k' ht hwaits := by
    rcases getElem?_concat_eq_some.mp ht with hold | ⟨-, rfl⟩
    · obtain ⟨sid', hwriting⟩ := hk.waits t k' hold hwaits
      have hdone := hidle sid' t (.inl hwriting)
      rw [Session.pc?, hold] at hdone
      have hnone : k'.waiting = none := Session.waiting_of_flushing (.inr hdone)
      rw [hnone] at hwaits
      cases hwaits
    · cases hwaits
  brings sid' t heq := by cases heq
  accepted := hk.accepted
  settled heq := by cases heq
  finishes t positive pad pc ht := by
    rcases getElem?_concat_eq_some.mp ht with hold | ⟨-, heq⟩
    · exact ⟨rfl, (hk.finishes t positive pad pc hold).2⟩
    · cases heq
  finishing t positive pad pc ht := by
    rcases getElem?_concat_eq_some.mp ht with hold | ⟨-, heq⟩
    · rcases hk.finishing t positive pad pc hold with ⟨sid', hfinishing⟩ | hdone
      · have hdone := hidle sid' t (.inr hfinishing)
        rw [Session.pc?, hold] at hdone
        exact .inr hdone
      · exact .inr hdone
    · cases heq
  awaits sid' t heq := by cases heq
  returned heq := by cases heq
  cancels sid' t heq := by
    cases heq
    exact ⟨.start, getElem?_concat_length _, .inl rfl⟩
  failed := rfl

end

/-! ## The turns of a call -/

section

variable {r r' : AppleTVHomeKitRemote ε json.Text} {d : Dictation ε json.Text} {k k' : SendCall}
  {sid : Nat}

/-- A call moves, and calls nothing. -/
theorem Speaks.goto (hk : Speaks r k) {pc : SendPc}
    (hsession : ∀ sid, pc.session? = some sid → r.siriSession? k.siri = some sid)
    (hsilent : r.siriSession? k.siri = none → pc = .starting ∨
      ∃ e, pc = .raised e ∧ r.siriCalls[k.siri]?.map SiriCall.pc = some (.raised e))
    (hfollows : ∀ (sid : Nat) (u : Utterance ε), r.siriSession? k.siri = some sid →
      r.sessions[sid]? = some u → Follows k u.session → Follows { k with pc } u.session) :
    Speaks r { k with pc } where
  called := hk.called
  session := hsession
  cancels := hk.cancels
  silent hnone := ⟨(hk.silent hnone).1, hsilent hnone⟩
  follows sid hsid := by
    obtain ⟨u, hu, hold⟩ := hk.follows sid hsid
    exact ⟨u, hu, hfollows sid u hsid hu hold⟩
  sourced := hk.sourced

/-- A call calls a coroutine of its session. -/
theorem Speaks.spawn (hk : Speaks r k) (hsid : r.siriSession? k.siri = some sid) {c : Call}
    (h : r.step json opus (.session sid (.call c)) = some r') (hne : c ≠ .open)
    (hsame : k'.siri = k.siri)
    (hsession : ∀ sid', k'.pc.session? = some sid' → sid' = sid)
    (hcancels : ∀ sid' t, k'.cancelTask = some (sid', t) →
      sid' = sid ∨ k'.cancelTask = k.cancelTask)
    (hfollows : ∀ u : Utterance ε, r.sessions[sid]? = some u → Follows k u.session →
      Follows k' (u.session.spawn c))
    (hsourced : ∀ pcm realtime, k'.source = .raw pcm realtime → k'.written <+: pcm) :
    Speaks r' k' := by
  have hcalls := callsTurn_step h
  have hsid' : r'.siriSession? k'.siri = some sid := by
    rw [hsame]
    exact hcalls.siriSession? hsid
  constructor
  · rw [hsame]
    exact hk.called.trans_le hcalls.length_le
  · intro sid' hpc
    rw [hsession sid' hpc, hsid']
  · intro sid' t hcancel
    rcases hcancels sid' t hcancel with rfl | heq
    · exact hsid'
    · rw [hsame]
      exact hcalls.siriSession? (hk.cancels sid' t (heq ▸ hcancel))
  · intro hnone
    cases hnone.symm.trans hsid'
  · intro sid' hsid''
    cases hsid'.symm.trans hsid''
    obtain ⟨u, hu, hold⟩ := hk.follows sid hsid
    have hcall : u.session.step opus (r.isClosed u.connection) (.call c) =
        some (u.session.spawn c) := by
      cases c with
      | «open» => exact absurd rfl hne
      | _ => rfl
    have hstep : r.stepSession json opus sid (.call c) = some r' := h
    rw [stepSession, hu, Option.bind_some, hcall] at hstep
    cases hstep
    exact ⟨{ u with session := u.session.spawn c },
      getElem?_modify_eq_some.mpr ⟨u, hu, (if_pos rfl).symm⟩, hfollows u hu hold⟩
  · exact hsourced

/-- A step of the session of another call. -/
theorem Speaks.other_step (hk : Speaks r k) (hr : r.Uttered opus) {t : Nat}
    (hsid : r.siriSession? t = some sid) (hne : k.siri ≠ t) {b : Session.Label}
    (h : r.step json opus (.session sid b) = some r') : Speaks r' k := by
  refine hk.step hr h fun sid' u b' hsid' _ hnames ↦ ?_
  cases hnames
  exact absurd (hr.distinct _ _ sid hsid' hsid) hne

/-- A coroutine that was called runs to its first wait. -/
theorem Speaks.await (hd : d.remote.Uttered opus) {c : Call}
    (hcall : ∀ b, d.remote.step json opus (.session sid (.call c)) = some b → Speaks b k')
    (h : d.await json opus sid c = some r) : Speaks r k' := by
  obtain ⟨b, hb, hrun⟩ := Option.bind_eq_some_iff.mp h
  refine (hcall b hb).step (hd.step hb) hrun fun sid' u b' _ _ hnames ↦ ?_
  cases hnames
  trivial

theorem tasksOf_of_session {u : Utterance ε} (hu : d.remote.sessions[sid]? = some u) :
    d.tasksOf sid = u.session.tasks.length := by
  rw [Dictation.tasksOf, hu]
  rfl

/-- What is written of the bytes is a prefix of them. -/
theorem prefix_take_drop {xs ys : Bytes} (h : xs <+: ys) (n : Nat) :
    xs ++ (ys.drop xs.length).take n <+: ys := by
  obtain ⟨zs, rfl⟩ := h
  rw [List.drop_left]
  exact (List.prefix_append_right_inj xs).mpr (List.take_prefix n zs)

/-- **A turn of a call leaves it where it is with the controller.** -/
theorem Dictation.SendTurn.speaks (h : SendTurn json opus d k k' r) (hd : d.remote.Uttered opus)
    (hk : Speaks d.remote k) : Speaks r k' := by
  have hof : ∀ {sid : Nat}, k.pc.session? = some sid → d.remote.siriSession? k.siri = some sid :=
    fun h ↦ hk.session _ h
  -- a call that has a session is not silent
  have hloud : ∀ {sid : Nat} {p : Prop}, d.remote.siriSession? k.siri = some sid →
      d.remote.siriSession? k.siri = none → p := by
    intro sid p hsome hnone
    cases hsome.symm.trans hnone
  have hplace : ∀ {sid t : Nat} {pc : Pc} {u : Utterance ε}, d.pc? sid t = some pc →
      d.remote.sessions[sid]? = some u → u.session.pc? t = some pc := by
    intro sid t pc u hpc hu
    rwa [Dictation.pc?, hu] at hpc
  cases h with
  | begins sid hpc hsid =>
      refine hk.goto (by rintro _ ⟨⟩; exact hsid) (hloud hsid) fun sid' u hsid' hu hold ↦ ?_
      refine hold.goto (by rintro _ _ ⟨⟩) (fun _ _ hw ↦ ?_) (fun _ ↦ ?_) ?_ (by rintro _ _ ⟨⟩)
        (fun _ _ hf ↦ ?_) (by rintro ⟨⟩) (by rw [hpc]; rfl)
      · cases hpc.symm.trans hw
      · exact hold.settled (by rw [hpc]; rfl) (by rw [hpc]; rintro _ _ ⟨⟩)
      · rw [hpc]
        rintro ⟨⟩
      · cases hpc.symm.trans hf
  | refused e hpc hcall =>
      have hnone : d.remote.siriSession? k.siri = none := by
        rw [siriSession?, hcall]
      exact hk.goto (by rintro _ ⟨⟩) (fun _ ↦ .inr ⟨e, rfl, hcall⟩) fun sid u hsid ↦
        hloud hsid hnone
  | writes sid pcm r hpc hnext hr =>
      have hsid := hof (by rw [hpc]; rfl)
      refine .await hd (fun b hb ↦ ?_) hr
      refine hk.spawn hsid hb (by rintro ⟨⟩) rfl (by rintro sid' ⟨⟩; rfl) (fun _ _ _ ↦ .inr rfl)
        (fun u hu hold ↦ ?_) ?_
      · rw [tasksOf_of_session hu]
        exact hold.write hpc pcm
      · intro raw realtime hsource
        rcases hnext with hchunks | ⟨raw', realtime', hraw, -, rfl⟩
        · cases hsource.symm.trans hchunks
        · cases hsource.symm.trans hraw
          exact prefix_take_drop (hk.sourced raw realtime hsource) frameBytes
  | finishes sid r hpc hend hr =>
      have hsid := hof (by rw [hpc]; rfl)
      refine .await hd (fun b hb ↦ ?_) hr
      refine hk.spawn hsid hb (by rintro ⟨⟩) rfl (by rintro sid' ⟨⟩; rfl) (fun _ _ _ ↦ .inr rfl)
        (fun u hu hold ↦ ?_) hk.sourced
      rw [tasksOf_of_session hu]
      refine hold.finish hpc fun raw realtime hsource ↦ ?_
      exact (hk.sourced raw realtime hsource).eq_of_length_le (hend raw realtime hsource)
  | cancels sid e r hpc hr =>
      have hsid : d.remote.siriSession? k.siri = some sid := by
        rcases hpc with hpc | ⟨t, hpc | hpc, -⟩
        · exact hof (by rw [hpc]; rfl)
        · exact hof (by rw [hpc]; rfl)
        · exact hof (by rw [hpc]; rfl)
      refine hk.spawn hsid hr (by rintro ⟨⟩) rfl (by rintro sid' ⟨⟩; rfl)
        (by rintro sid' t ⟨⟩; exact .inl rfl) (fun u hu hold ↦ ?_) hk.sourced
      rw [tasksOf_of_session hu]
      refine hold.cancel e fun sid' t' hw ↦ ?_
      rcases hpc with hpc | ⟨t, hpc, hraised⟩
      · rw [hpc] at hw
        rcases hw with ⟨⟨⟩⟩ | ⟨⟨⟩⟩
      · have heq : t' = t := by
          rcases hpc with hpc | hpc
          · rw [hpc] at hw
            rcases hw with ⟨⟨⟩⟩ | ⟨⟨⟩⟩
            rfl
          · rw [hpc] at hw
            rcases hw with ⟨⟨⟩⟩ | ⟨⟨⟩⟩
            rfl
        rw [heq, hplace hraised hu]
        rfl
  | wrote sid t hpc hreturned =>
      have hsid := hof (by rw [hpc]; rfl)
      refine hk.goto (by rintro _ ⟨⟩; exact hsid) (hloud hsid) fun sid' u hsid' hu hold ↦ ?_
      cases hsid.symm.trans hsid'
      have ht := hplace hreturned hu
      refine hold.goto (by rintro _ _ ⟨⟩) (fun _ _ hw ↦ ?_) (fun _ ↦ ?_) ?_ (by rintro _ _ ⟨⟩)
        (fun _ _ hf ↦ ?_) (by rintro ⟨⟩) (by rw [hpc]; rfl)
      · cases hpc.symm.trans hw
        rw [ht]
        rfl
      · obtain ⟨pcm, pc, htask, hbrings⟩ := hold.brings sid t hpc
        rw [Session.pc?, htask] at ht
        cases ht
        exact (hbrings.brought rfl).resolve_right (by rintro ⟨e, ⟨⟩⟩)
      · rw [hpc]
        rintro ⟨⟩
      · cases hpc.symm.trans hf
  | finished sid t hpc hreturned =>
      have hsid := hof (by rw [hpc]; rfl)
      refine hk.goto (by rintro _ ⟨⟩) (hloud hsid) fun sid' u hsid' hu hold ↦ ?_
      cases hsid.symm.trans hsid'
      refine hold.goto (by rintro _ _ ⟨⟩) (fun _ _ hw ↦ ?_) (fun _ ↦ ?_) (fun _ ↦ rfl)
        (by rintro _ _ ⟨⟩) (fun _ _ hf ↦ ?_) (fun _ ↦ ⟨sid, t, hpc⟩) (by rw [hpc]; rfl)
      · cases hpc.symm.trans hw
      · exact hold.settled (by rw [hpc]; rfl) (by rw [hpc]; rintro _ _ ⟨⟩)
      · cases hpc.symm.trans hf
        exact ⟨rfl, hplace hreturned hu⟩
  | raises sid t e hpc =>
      have hsid := hof (by rw [hpc]; rfl)
      refine hk.goto (by rintro _ ⟨⟩) (hloud hsid) fun sid' u hsid' hu hold ↦ ?_
      refine hold.goto (by rintro _ _ ⟨⟩) (fun _ _ hw ↦ ?_) (by rintro ⟨⟩) (fun _ ↦ rfl)
        (by rintro _ _ ⟨⟩) (fun _ _ hf ↦ ?_) (by rintro ⟨⟩) (by rw [hpc]; rfl)
      · cases hpc.symm.trans hw
      · cases hpc.symm.trans hf

/-- A turn of another call. -/
theorem Dictation.SendTurn.others (h : SendTurn json opus d k k' r) (hd : d.remote.Uttered opus)
    (hk : Speaks d.remote k) {k₂ : SendCall} (hk₂ : Speaks d.remote k₂)
    (hne : k₂.siri ≠ k.siri) : Speaks r k₂ := by
  have hawait : ∀ {sid : Nat} {c : Call}, d.remote.siriSession? k.siri = some sid →
      d.await json opus sid c = some r → Speaks r k₂ := by
    intro sid c hsid h
    obtain ⟨b, hb, hrun⟩ := Option.bind_eq_some_iff.mp h
    exact (hk₂.other_step hd hsid hne hb).other_step (hd.step hb)
      ((callsTurn_step hb).siriSession? hsid) hne hrun
  cases h with
  | writes sid pcm r hpc _ hr => exact hawait (hk.session sid (by rw [hpc]; rfl)) hr
  | finishes sid r hpc _ hr => exact hawait (hk.session sid (by rw [hpc]; rfl)) hr
  | cancels sid e r hpc hr =>
      have hsid : k.pc.session? = some sid := by
        rcases hpc with hpc | ⟨t, hpc | hpc, -⟩ <;> rw [hpc] <;> rfl
      exact hk₂.other_step hd (hk.session sid hsid) hne hr
  | begins | refused | wrote | finished | raises => exact hk₂

theorem Dictation.SendTurn.siri (h : SendTurn json opus d k k' r) : k'.siri = k.siri := by
  cases h <;> rfl

end

/-! ## Runs -/

namespace Dictation

variable {d d' : Dictation ε json.Text}

/-- What holds between two steps. -/
structure Sound (opus : OpusEncoder ε) (d : Dictation ε json.Text) : Prop where
  uttered : d.remote.Uttered opus
  /-- Every call has a call of `start_siri` of its own. -/
  sirs : ∀ (i j : Nat) (k k' : SendCall), d.sends[i]? = some k → d.sends[j]? = some k' →
    k.siri = k'.siri → i = j
  speaks : ∀ (i : Nat) (k : SendCall), d.sends[i]? = some k → Speaks d.remote k

/-- What is not reserved for a call is not its business. -/
theorem Sound.leaves (hd : d.Sound opus) {a : AppleTVHomeKitRemote.Label}
    (ha : d.reserved a = false) {i : Nat} {k : SendCall} (hk : d.sends[i]? = some k) {sid : Nat}
    {u : Utterance ε} {b : Session.Label} (hsid : d.remote.siriSession? k.siri = some sid)
    (hu : d.remote.sessions[sid]? = some u)
    (hnames : AppleTVHomeKitRemote.Label.Names sid a b) : k.Leaves u.session b := by
  have howns : d.owns sid = true :=
    List.any_eq_true.mpr ⟨k, List.mem_of_getElem? hk, decide_eq_true hsid⟩
  cases hnames with
  | response => trivial
  | session =>
      cases b with
      | call c =>
          cases c with
          | write | finish => cases howns.symm.trans ha
          | _ => trivial
      | fail t e =>
          cases e with
          | cancelledError =>
              have hfree : (d.sends.any fun k ↦ k.cancelTask = some (sid, t)) = false ∧
                  (d.remote.sessions[sid]?.any fun u ↦ unawaited u.session t) = false :=
                Bool.or_eq_false_iff.mp ha
              rw [hu] at hfree
              refine ⟨fun sid' hcancel ↦ ?_, hfree.2⟩
              cases hsid.symm.trans ((hd.speaks i k hk).cancels sid' t hcancel)
              have hshielded : (d.sends.any fun k ↦ k.cancelTask = some (sid, t)) = true :=
                List.any_eq_true.mpr ⟨k, List.mem_of_getElem? hk, decide_eq_true hcancel⟩
              cases hshielded.symm.trans hfree.1
          | _ => trivial
      | _ => trivial

/-- **Every step keeps the calls where they are with their sessions.** -/
theorem Sound.step (hd : d.Sound opus) {a : Label} (h : d.step json opus a = some d') :
    d'.Sound opus := by
  rcases step_cases h with ⟨b, -, hfree, hstep, hsends⟩ | ⟨source, target, -, hstep, hsends⟩ |
    ⟨i, k, k', -, hk, hturn, hsends⟩
  · refine ⟨hd.uttered.step hstep, hsends ▸ hd.sirs, fun i k hk ↦ ?_⟩
    rw [hsends] at hk
    exact (hd.speaks i k hk).step hd.uttered hstep fun sid u b' hsid hu hnames ↦
      hd.leaves hfree hk hsid hu hnames
  · have hcalls : d'.remote.siriCalls = d.remote.siriCalls ++ [⟨target, true, .start⟩] :=
      congrArg AppleTVHomeKitRemote.siriCalls (Option.some.inj hstep).symm
    refine ⟨hd.uttered.step hstep, fun i j k k' hi hj hsame ↦ ?_, fun i k hi ↦ ?_⟩
    · rw [hsends] at hi hj
      rcases getElem?_concat_eq_some.mp hi with hi | ⟨rfl, rfl⟩
      · rcases getElem?_concat_eq_some.mp hj with hj | ⟨rfl, rfl⟩
        · exact hd.sirs i j k k' hi hj hsame
        · exact absurd hsame (Nat.ne_of_lt (hd.speaks i k hi).called)
      · rcases getElem?_concat_eq_some.mp hj with hj | ⟨rfl, rfl⟩
        · exact absurd hsame.symm (Nat.ne_of_lt (hd.speaks j k' hj).called)
        · rfl
    · rw [hsends] at hi
      rcases getElem?_concat_eq_some.mp hi with hi | ⟨-, rfl⟩
      · exact (hd.speaks i k hi).step hd.uttered hstep fun sid u b _ _ hnames ↦ by
          cases hnames
      · have hnone : d'.remote.siriSession? d.remote.siriCalls.length = none := by
          rw [siriSession?, hcalls, getElem?_concat_length]
          rfl
        refine ⟨?_, by rintro _ ⟨⟩, by rintro _ _ ⟨⟩, fun _ ↦ ⟨rfl, .inl rfl⟩, ?_,
          fun _ _ _ ↦ List.nil_prefix⟩
        · rw [hcalls, List.length_append]
          exact Nat.lt_succ_self _
        · intro sid hsid
          cases hnone.symm.trans hsid
  · obtain ⟨bs, hexec⟩ := hturn.exec none
    have hplace := lt_length_of_getElem? hk
    have huttered := hd.uttered.exec hexec
    refine ⟨huttered, fun j j' k₁ k₂ hj hj' hsame ↦ ?_, fun j k₂ hj ↦ ?_⟩
    · rw [hsends] at hj hj'
      have hsiri := hturn.siri
      rcases (getElem?_set_eq_some hplace).mp hj with ⟨rfl, rfl⟩ | ⟨-, hold⟩
      · rcases (getElem?_set_eq_some hplace).mp hj' with ⟨rfl, rfl⟩ | ⟨-, hold'⟩
        · rfl
        · exact hd.sirs _ _ _ _ hk hold' (hsiri.symm.trans hsame)
      · rcases (getElem?_set_eq_some hplace).mp hj' with ⟨rfl, rfl⟩ | ⟨-, hold'⟩
        · exact hd.sirs _ _ _ _ hold hk (hsame.trans hsiri)
        · exact hd.sirs _ _ _ _ hold hold' hsame
    · rw [hsends] at hj
      rcases (getElem?_set_eq_some hplace).mp hj with ⟨rfl, rfl⟩ | ⟨hne, hj⟩
      · exact hturn.speaks hd.uttered (hd.speaks _ k hk)
      · exact hturn.others hd.uttered (hd.speaks _ k hk) (hd.speaks j k₂ hj) fun hsame ↦
          hne (hd.sirs _ _ _ _ hj hk hsame)

theorem sound_new (opus : OpusEncoder ε) (file : Option json.Text) :
    (⟨.new json file, []⟩ : Dictation ε json.Text).Sound opus where
  uttered := uttered_new opus file
  sirs _ _ _ _ h := by cases h
  speaks _ _ h := by cases h

theorem sound {file : Option json.Text} (h : (dictations json opus file).Reachable d) :
    d.Sound opus := by
  refine h.invariant ?_ ?_
  · rintro d rfl
    exact sound_new opus file
  · exact fun d d' a hd hstep ↦ hd.step hstep

end Dictation

/-! ## What a call delivers -/

/-- The packets of an utterance, its last frame padded. -/
def streamPackets (opus : OpusEncoder ε) (pcm : Bytes) : List Packet :=
  Session.packetsOf 0 (opus.encodeAll opus.init (streamFrames pcm true)).1

theorem packetsOf_prefix (opus : OpusEncoder ε) {xs ys : List PcmFrame} (h : xs <+: ys) :
    Session.packetsOf 0 (opus.encodeAll opus.init xs).1 <+:
      Session.packetsOf 0 (opus.encodeAll opus.init ys).1 := by
  obtain ⟨zs, rfl⟩ := h
  rw [opus.encodeAll_append, Session.packetsOf_append]
  exact List.prefix_append _ _

/-- The whole frames of the first bytes are the first frames. -/
theorem streamFrames_prefix {xs ys : Bytes} (h : xs <+: ys) :
    streamFrames xs false <+: streamFrames ys true := by
  obtain ⟨zs, rfl⟩ := h
  rw [streamFrames_false, streamFrames_true, (cutFrames_append xs zs).1]
  exact (List.prefix_append _ _).trans (List.prefix_append _ _)

/-- What the session of a call has of it. -/
structure Delivers (opus : OpusEncoder ε) (k : SendCall) (s : Session ε) : Prop where
  /-- The session has accepted a prefix of what the call has written. -/
  accepted : s.accepted <+: k.written
  packets : s.packets <+: streamPackets opus k.written
  /-- A stream that has ended, and not by a cancel, is the utterance. -/
  ended : s.EndHanded → s.cancelReason = none →
    k.Whole ∧ s.packets = streamPackets opus k.written
  returned : k.pc = .returned → k.Whole ∧ s.accepted = k.written ∧ s.closed = true

theorem Follows.delivers {k : SendCall} {s : Session ε} (hk : Follows k s)
    (hs : s.Regular opus) : Delivers opus k s := by
  have hdrained : ∀ pad, s.drained = some pad →
      k.Whole ∧ s.pcmFrames = streamFrames k.written true := by
    intro pad hpad
    obtain ⟨t, positive, pc, ht⟩ := hs.ends.drained pad hpad
    obtain ⟨-, -, rfl, haccepted, hwhole⟩ := hk.finishes t positive pad pc ht
    rw [Session.pcmFrames, hpad, haccepted]
    exact ⟨hwhole, rfl⟩
  constructor
  · exact hk.accepted
  · have hframes : s.pcmFrames <+: streamFrames k.written true := by
      cases hd : s.drained with
      | none =>
          rw [Session.pcmFrames, hd]
          exact streamFrames_prefix hk.accepted
      | some pad => exact (hdrained pad hd).2 ▸ List.prefix_refl _
    have hprefix := packetsOf_prefix opus hframes
    rw [← hs.accounted.packets] at hprefix
    exact (List.prefix_append _ _).trans hprefix
  · intro hend hcancel
    obtain ⟨hending, hframes⟩ := hs.ended hend
    obtain ⟨pad, hpad⟩ : ∃ pad, s.drained = some pad := by
      rcases hs.ends.ending hending with hreason | hsome
      · rw [hcancel] at hreason
        cases hreason
      · exact Option.isSome_iff_exists.mp hsome
    obtain ⟨hwhole, hall⟩ := hdrained pad hpad
    have hpackets := hs.accounted.packets
    rw [hframes, hall] at hpackets
    exact ⟨hwhole, (List.append_nil _).symm.trans hpackets⟩
  · intro hreturned
    obtain ⟨t, ht⟩ := hk.returned hreturned
    obtain ⟨-, -, -, haccepted, hwhole⟩ := hk.finishes t true true .returned ht
    exact ⟨hwhole, haccepted, hs.ends.returned t true true ht⟩

/-- What holds of a call of `send_pcm`, next to the others. -/
structure Faithful (opus : OpusEncoder ε) (d : Dictation ε json.Text) (i : Nat) (k : SendCall) :
    Prop where
  written : ∀ pcm realtime, k.source = .raw pcm realtime → k.written <+: pcm
  /-- A call without a session has written nothing, and does not return. -/
  silent : d.sessionOf k = none → k.written = [] ∧ k.pc ≠ .returned
  delivers : ∀ sid, d.sessionOf k = some sid →
    ∃ u : Utterance ε, d.remote.sessions[sid]? = some u ∧ Delivers opus k u.session
  /-- No two calls speak into one session. -/
  own : ∀ (sid j : Nat) (k' : SendCall), d.sessionOf k = some sid → d.sends[j]? = some k' →
    d.sessionOf k' = some sid → j = i
  /-- No two calls have a live session. -/
  live : ∀ (sid : Nat) (u : Utterance ε), d.sessionOf k = some sid →
    d.remote.sessions[sid]? = some u → u.session.closed = false →
    d.remote.activeSiriSession = some sid

/-- **Every call of `send_pcm` delivers its own utterance, in order and nothing else**, whatever
happens next to it. -/
theorem dictations_faithful (json : JsonText) (opus : OpusEncoder ε) (file : Option json.Text)
    (d : Dictation ε json.Text) (h : (dictations json opus file).Reachable d) (i : Nat)
    (k : SendCall) (hk : d.sends[i]? = some k) : Faithful opus d i k := by
  have hd := Dictation.sound h
  have hspeaks := hd.speaks i k hk
  constructor
  · exact hspeaks.sourced
  · intro hnone
    obtain ⟨hwritten, hpc⟩ := hspeaks.silent hnone
    refine ⟨hwritten, fun hreturned ↦ ?_⟩
    rcases hpc with hpc | ⟨e, hpc, -⟩
    · cases hpc.symm.trans hreturned
    · cases hpc.symm.trans hreturned
  · intro sid hsid
    obtain ⟨u, hu, hfollows⟩ := hspeaks.follows sid hsid
    exact ⟨u, hu, hfollows.delivers (hd.uttered.regular sid u hu)⟩
  · intro sid j k' hsid hj hsid'
    exact hd.sirs j i k' k hj hk (hd.uttered.distinct _ _ sid hsid' hsid)
  · intro sid u _ hu hlive
    exact (hd.uttered.utterance.live sid u hu hlive).1

/-- Home sets up its target, connects, and says that the service is active. -/
def prepared : List Dictation.Label :=
  [.remote .start,
    .remote (.targetListWrite (.ofString "AQECAgYBBAEAAAA=") (some ⟨"hub", 1⟩) true),
    .remote (.accept ⟨"hub", 1⟩), .remote (.whoami 0 1),
    .remote (.activeWrite (.int 1) (some ⟨"hub", 1⟩))]

/-- Three bytes are sent, and acknowledged. -/
def spoken : List Dictation.Label :=
  [.send (.raw [1, 2, 3] true) none, .remote (.enterSiri 0), .remote (.runSiri 0 none), .begin 0,
    .next 0, .goOn 0, .next 0, .remote (.session 0 (.run 0)), .remote (.session 0 (.sent 0)),
    .remote (.session 0 (.resume 0)), .remote (.response 0 0 0 [(.text "streamId", .int 7)]),
    .remote (.session 0 (.sent 0)), .remote (.session 0 (.resume 0)),
    .remote (.session 0 (.run 2)),
    .remote (.message 0 (.ofString "dataSend") (.ofString "ack")
      [(.text "streamId", .int 7), (.text "endOfStream", .bool true)]),
    .remote (.session 0 (.sent 3)), .remote (.session 0 (.resume 3)),
    .remote (.session 0 (.run 2)), .goOn 0]

/-- The three bytes are one packet, and the call returns. -/
theorem dictations_faithful_spoken :
    ∃ (d : Dictation Unit JsonText.documents.Text) (k : SendCall),
      (dictations .documents .verbatim none).exec ⟨.new .documents none, []⟩
        (prepared ++ spoken) = some d ∧
      d.sends[0]? = some k ∧ k.pc = .returned ∧ k.written = [1, 2, 3] ∧
      d.remote.sessions.map (fun u ↦ u.session.packets.length) = [1] ∧
      Faithful .verbatim d 0 k := by
  generalize hrun : (dictations .documents .verbatim none).exec _ (prepared ++ spoken) = x
  have hx : x.map (fun d ↦ (d.sends[0]?.map fun k ↦ (k.pc, k.written),
      d.remote.sessions.map fun u ↦ u.session.packets.length)) =
      some (some (.returned, [1, 2, 3]), [1]) := by
    rw [← hrun]
    decide +kernel
  obtain ⟨d, rfl, hd⟩ := Option.map_eq_some_iff.mp hx
  obtain ⟨hsend, hpackets⟩ := Prod.mk.inj hd
  obtain ⟨k, hk, hcall⟩ := Option.map_eq_some_iff.mp hsend
  obtain ⟨hpc, hwritten⟩ := Prod.mk.inj hcall
  exact ⟨d, k, rfl, hk, hpc, hwritten, hpackets,
    dictations_faithful .documents .verbatim none d (.exec (.init rfl) hrun) 0 k hk⟩

/-! ## What a call leaves -/

/-- The session of a call that is over leaves, or the task that cancels it has yet to begin. -/
theorem Follows.ended {k : SendCall} {s : Session ε} (hk : Follows k s) (hs : s.Regular opus)
    (hdone : k.pc.done = true) :
    s.Leaving ∨ ∃ t : Nat, s.tasks[t]? = some ⟨.cancel .cancelled, .start⟩ := by
  cases hpc : k.pc with
  | returned =>
      obtain ⟨t, ht⟩ := hk.returned hpc
      exact .inl (.inl (hs.ends.returned t true true ht))
  | raised e =>
      have hfailed := hk.failed
      rw [hpc] at hfailed
      obtain ⟨⟨sid, t⟩, hcancel⟩ := Option.isSome_iff_exists.mp hfailed.symm
      obtain ⟨pc, ht, rfl | hparting⟩ := hk.cancels sid t hcancel
      · exact .inr ⟨t, ht⟩
      · exact .inl hparting.1
  | _ =>
      rw [hpc] at hdone
      cases hdone

namespace Dictation

/-- Nothing goes on: the calls are over, no session but theirs is open, the tasks of the sessions
are done and their watchers have run, and no call of `start_siri` is between its lock and its
session. -/
structure AtRest (d : Dictation ε json.Text) : Prop where
  ended : ∀ (i : Nat) (k : SendCall), d.sends[i]? = some k → k.pc.done = true
  owned : ∀ (sid : Nat) (u : Utterance ε), d.remote.sessions[sid]? = some u →
    u.session.closed = false → d.owns sid = true
  done : ∀ (sid : Nat) (u : Utterance ε), d.remote.sessions[sid]? = some u →
    ∀ k ∈ u.session.tasks, k.pc.done = true
  watched : ∀ (sid : Nat) (u : Utterance ε), d.remote.sessions[sid]? = some u →
    u.session.closed = true → u.watched = false
  acquired : ∀ (t : Nat) (k : SiriCall), d.remote.siriCalls[t]? = some k → k.pc ≠ .acquired

/-- What the calls leave behind. -/
structure Departs (d : Dictation ε json.Text) : Prop where
  leaves : ∀ (i : Nat) (k : SendCall) (sid : Nat) (u : Utterance ε), d.sends[i]? = some k →
    k.pc.done = true → d.sessionOf k = some sid → d.remote.sessions[sid]? = some u →
    u.session.Leaving ∨ ∃ t : Nat, u.session.tasks[t]? = some ⟨.cancel .cancelled, .start⟩
  closed : ∀ (i : Nat) (k : SendCall) (sid : Nat) (u : Utterance ε), d.sends[i]? = some k →
    k.pc.done = true → d.sessionOf k = some sid → d.remote.sessions[sid]? = some u →
    (∀ k' ∈ u.session.tasks, k'.pc.done = true) → u.session.closed = true
  released : d.AtRest → d.remote.siriLocked = false ∧ d.remote.activeSiriSession = none

end Dictation

/-- **A call of `send_pcm` that is over leaves nothing behind**, however it ended: its session
closes, and at rest the lock is free. -/
theorem dictations_depart (json : JsonText) (opus : OpusEncoder ε) (file : Option json.Text)
    (d : Dictation ε json.Text) (h : (dictations json opus file).Reachable d) : d.Departs := by
  have hd := Dictation.sound h
  have hleaves : ∀ (i : Nat) (k : SendCall) (sid : Nat) (u : Utterance ε),
      d.sends[i]? = some k → k.pc.done = true → d.sessionOf k = some sid →
      d.remote.sessions[sid]? = some u →
      u.session.Leaving ∨ ∃ t : Nat, u.session.tasks[t]? = some ⟨.cancel .cancelled, .start⟩ := by
    intro i k sid u hk hdone hsid hu
    obtain ⟨u', hu', hfollows⟩ := (hd.speaks i k hk).follows sid hsid
    cases hu.symm.trans hu'
    exact hfollows.ended (hd.uttered.regular sid u hu) hdone
  have hclosed : ∀ (i : Nat) (k : SendCall) (sid : Nat) (u : Utterance ε),
      d.sends[i]? = some k → k.pc.done = true → d.sessionOf k = some sid →
      d.remote.sessions[sid]? = some u →
      (∀ k' ∈ u.session.tasks, k'.pc.done = true) → u.session.closed = true := by
    intro i k sid u hk hdone hsid hu htasks
    rcases hleaves i k sid u hk hdone hsid hu with hleaving | ⟨t, ht⟩
    · exact hleaving.closed htasks
    · cases htasks _ (List.mem_of_getElem? ht)
  refine ⟨hleaves, hclosed, fun hrest ↦ ?_⟩
  have hnone : d.remote.activeSiriSession = none := by
    cases hactive : d.remote.activeSiriSession with
    | none => rfl
    | some sid =>
        -- the active session is watched, so it is open, and that of a call that is over
        have hwatched := (hd.uttered.attended.watched sid).mp hactive
        cases hu : d.remote.sessions[sid]? with
        | none =>
            rw [watches, hu] at hwatched
            cases hwatched
        | some u =>
            rw [watches, hu] at hwatched
            have hopen : u.session.closed = false := by
              refine Bool.eq_false_iff.mpr fun hend ↦ ?_
              cases (hrest.watched sid u hu hend).symm.trans hwatched
            obtain ⟨k, hmem, hsid⟩ := List.any_eq_true.mp (hrest.owned sid u hu hopen)
            obtain ⟨i, hk⟩ := List.mem_iff_getElem?.mp hmem
            have hend := hclosed i k sid u hk (hrest.ended i k hk) (of_decide_eq_true hsid) hu
              (hrest.done sid u hu)
            cases hopen.symm.trans hend
  refine ⟨?_, hnone⟩
  by_contra hlocked
  rcases hd.uttered.utterance.held (eq_true_of_ne_false hlocked) with hactive | ⟨t, k, hk, hpc⟩
  · rw [hnone] at hactive
    cases hactive
  · exact hrest.acquired t k hk hpc

/-- The iterable raises while the session waits for its response, and nobody waits for the
`cancel`. -/
def unshielded : List Dictation.Label :=
  [.send .chunks none, .remote (.enterSiri 0), .remote (.runSiri 0 none), .begin 0,
    .chunk 0 [1, 2, 3], .goOn 0, .remote (.session 0 (.run 0)),
    .fail 0 (.valueError "no more PCM"), .remote (.session 0 (.sent 0)), .unshield 0,
    .remote (.session 0 (.run 2)), .remote (.session 0 (.resume 0)),
    .remote (.response 0 0 0 [(.text "streamId", .int 7)]), .remote (.session 0 (.sent 0)),
    .remote (.session 0 (.resume 0)), .remote (.session 0 (.run 2)), .remote (.watch 0)]

/-- The response comes behind the end of the call, and the session closes its stream. -/
theorem dictations_depart_unshielded :
    ∃ d : Dictation Unit JsonText.documents.Text,
      (dictations .documents .verbatim none).exec ⟨.new .documents none, []⟩
        (prepared ++ unshielded) = some d ∧
      d.sends.map SendCall.pc = [.raised (.valueError "no more PCM")] ∧
      d.remote.sessions.map (fun u ↦ u.session.closeSent) = [true] ∧
      d.remote.siriLocked = false ∧ d.Departs := by
  generalize hrun : (dictations .documents .verbatim none).exec _ (prepared ++ unshielded) = x
  have hx : x.map (fun d ↦ (d.sends.map SendCall.pc,
      d.remote.sessions.map fun u ↦ u.session.closeSent, d.remote.siriLocked)) =
      some ([.raised (.valueError "no more PCM")], [true], false) := by
    rw [← hrun]
    decide +kernel
  obtain ⟨d, rfl, hd⟩ := Option.map_eq_some_iff.mp hx
  obtain ⟨hpcs, hrest⟩ := Prod.mk.inj hd
  obtain ⟨hclose, hlocked⟩ := Prod.mk.inj hrest
  exact ⟨d, rfl, hpcs, hclose, hlocked,
    dictations_depart .documents .verbatim none d (.exec (.init rfl) hrun)⟩

end AtvRemote.Remote
