import AtvRemote.Audio.Wire
import AtvRemote.Audio.Leaving

/-!
# Calls and the tasks that await them

A call of the connection that has not ended is awaited by one task of one session, which is at
the place that the call says, and no task awaits two.  So the frames on the transport are, for
each session, those that it has recorded as written (`Linked.writes`), and the sessions of a
connection are sessions like any other (`Wire.lives`).
-/

namespace AtvRemote.Audio

open Lib Hds

/-- What an entry writes to the transport. -/
def Entry.writes? : Entry → Option Outgoing
  | .written o => some o
  | _ => none

namespace Session

variable {ε : Type} {opus : OpusEncoder ε} {s s' : Session ε} {cc : Bool} {a : Label} {t : Nat}

/-- What a session has written to the transport. -/
def writes (s : Session ε) : List Outgoing := s.log.filterMap Entry.writes?

/-! ## Steps of a session -/

theorem writes_of_log (h : s'.log = s.log) : s'.writes = s.writes := by
  rw [writes, writes, h]

theorem writes_record (s : Session ε) (entry : Entry) (h : entry.writes? = none) :
    (s.record entry).writes = s.writes := by
  simp [writes, record, h]

theorem writes_hand (b : Session ε) (t : Nat) (send : Send) : (b.hand t send).writes = b.writes :=
  writes_record b (.handed send.outgoing) rfl

theorem Begins.writes {b : Session ε} {k : Task} (h : Begins s a t k b) : b.writes = s.writes := by
  cases h with
  | runs b h => exact writes_of_log h.log
  | cancels => rfl
  | opens => rfl

theorem Outcome.writes {k : Task} (h : Outcome s cc t k s') : s'.writes = s.writes := by
  cases h with
  | rests b pc h => exact writes_of_log h.log
  | event b _ _ _ _ _ h => exact (writes_hand b t _).trans (writes_of_log h.log)
  | close => exact writes_hand s t _
  | noClose who => cases who <;> rfl
  | noStream => rfl

/-- A turn writes nothing, or it is that of a task whose frame is written. -/
theorem Turn.writes {k : Task} (h : Turn s cc a t k s') :
    s'.writes = s.writes ∨ ∃ send, k.pc = .sending send .queued ∧
      s' = (s.record (.written send.outgoing)).goto t (.sending send .drain) := by
  cases h with
  | request => exact .inl (writes_hand s t _)
  | written send hk => exact .inr ⟨send, hk, rfl⟩
  | runs b s' _ hb h => exact .inl (h.writes.trans hb.writes)
  | closeSent streamId reason who =>
      left
      cases who <;> rfl
  | requestRaised => exact .inl (writes_record s (.raised .open) rfl)
  | eventRaised packets streamId isEos force who =>
      left
      refine Eq.trans ?_ (writes_record s (.raised (.data packets streamId isEos)) rfl)
      cases who <;> rfl
  | closeRaised streamId reason who =>
      left
      refine Eq.trans ?_ (writes_record s (.raised (.close streamId reason)) rfl)
      cases who <;> rfl
  | requestSent | unstarted | refused | openRaised => exact .inl rfl

/-- A send that raises ends its task. -/
theorem raised_of_failTask {send : Send} {phase : SendPhase} {e : PyErr}
    (hpc : s.pc? t = some (.sending send phase))
    (h : s.failTask t e (.sending send phase) = some s') : ∃ e', s'.pc? t = some (.raised e') := by
  obtain ⟨k, ht, -⟩ := Option.map_eq_some_iff.mp hpc
  have hraised : ∀ {b : Session ε} {e' : PyErr}, b.tasks = s.tasks → s' = b.goto t (.raised e') →
      ∃ e', s'.pc? t = some (.raised e') := by
    intro b e' htasks heq
    rw [heq]
    exact ⟨e', b.pc?_goto_self t _ (htasks ▸ ht)⟩
  cases send with
  | request =>
      cases h
      exact hraised (b := markDone { s.record (.raised .open) with error := some e }) rfl rfl
  | data packets streamId isEos force who =>
      cases h
      cases who with
      | «open» =>
          exact hraised (b := markDone { (s.record (.raised (.data packets streamId isEos))).release
            with error := some e }) rfl rfl
      | write | finish =>
          exact hraised (b := (s.record (.raised (.data packets streamId isEos))).release) rfl rfl
  | close streamId reason who =>
      cases h
      cases who with
      | «open» | ack =>
          exact hraised (b := markDone { s.record (.raised (.close streamId reason))
            with error := some e }) rfl rfl
      | timeout =>
          exact hraised (b := markDone { s.record (.raised (.close streamId reason))
            with error := some ackTimeout }) rfl rfl
      | cancel =>
          exact hraised (b := markDone (s.record (.raised (.close streamId reason)))) rfl rfl

/-- Only the write of a frame writes. -/
theorem Proper.writes_step (hs : s.Proper) (h : s.step opus cc a = some s')
    (ha : ∀ t, a ≠ .sent t) : s'.writes = s.writes := by
  rcases hs.turn_cases h with
    ⟨-, rfl⟩ | ⟨c, -, -, rfl⟩ | ⟨reason, -, rfl⟩ | ⟨t, k, htask, ht, hturn⟩
  · rw [Session.start]
    split <;> rfl
  · rfl
  · have hrecord := s.writes_record (.received reason) rfl
    rcases s.handleClose_cases reason with ⟨-, heq⟩ | ⟨-, heq⟩
    · rw [heq]
      exact hrecord
    · rw [heq]
      exact hrecord
  · rcases hturn.writes with hsame | ⟨send, hk, rfl⟩
    · exact hsame
    · have hpc : s.pc? t = some (.sending send .queued) :=
        Option.map_eq_some_iff.mpr ⟨k, ht, hk⟩
      cases a with
      | start | call | handleClose => cases htask
      | sent => exact (ha _ rfl).elim
      | run t' =>
          cases htask
          rw [Session.step, ht, Option.bind_some, runTask.eq_def, hk] at h
          cases h
      | response t' =>
          cases htask
          simp only [Session.step, hpc] at h
          cases h
      | resume t' =>
          cases htask
          rw [Session.step, hpc, Option.bind_some] at h
          cases send <;> cases h
      | timeout t' =>
          cases htask
          simp only [Session.step, hpc] at h
          cases h
      | fail t' e =>
          cases htask
          rw [Session.step, hpc, Option.bind_some] at h
          obtain ⟨e', hraised⟩ := raised_of_failTask hpc h
          rw [(s.record _).pc?_goto_self t _ ht] at hraised
          cases hraised

/-- The frame of a send is written. -/
theorem step_sent {send : Send} (hpc : s.pc? t = some (.sending send .queued)) :
    s.step opus false (.sent t) =
      some ((s.record (.written send.outgoing)).goto t (.sending send .drain)) := by
  simp only [step, hpc]
  rfl

/-- A step that a session makes alone is one of a task that is in no call. -/
theorem inCall_of_alone (ha : s.alone a = true) (h : s.step opus cc a = some s')
    (htask : a.task = some t) {pc : Pc} (hpc : s.pc? t = some pc) : pc.inCall = false := by
  cases a with
  | start | call | handleClose => cases htask
  | sent | resume | response => cases ha
  | run t =>
      cases htask
      obtain ⟨k, ht, hrun⟩ := Option.bind_eq_some_iff.mp h
      rw [pc?, ht] at hpc
      cases hpc
      cases hk : k.pc with
      | sending | awaitResponse =>
          rw [runTask.eq_def, hk] at hrun
          cases hrun
      | _ => rfl
  | fail t e =>
      cases htask
      rw [alone, hpc] at ha
      simpa using ha
  | timeout t =>
      cases htask
      simp only [step, hpc] at h
      split at h
      · next heq =>
        cases heq
        rfl
      · next heq =>
        cases heq
        rfl
      · cases h

/-- What a task has called is the send that it is about to make. -/
theorem called?_eq_some {send : Send} (h : s.called? t = some send) :
    s.pc? t = some (.sending send .queued) := by
  rw [called?] at h
  split at h
  · next hpc =>
    cases h
    exact hpc
  · cases h

end Session

namespace Wire

variable {ε : Type} {opus : OpusEncoder ε} {aead : Aead} {reprOf : Obj → String}
  {w w' : Wire ε}

/-! ## The invariant -/

/-- Where a task is while its call is at a place. -/
def place (send : Send) : CallPc → Option Pc
  | .waiting => some (.sending send .queued)
  | .draining => some (.sending send .drain)
  | .awaiting | .abandoned _ => some .awaitResponse
  | .returned _ | .raised _ => none

/-- The calls of the connection and the tasks of the sessions go together. -/
structure Linked (w : Wire ε) : Prop where
  length : w.owners.length = w.connection.calls.length
  known : ∀ (i : Nat) (o : Owner), w.owners[i]? = some (some o) → o.session < w.sessions.length
  proper : ∀ s ∈ w.sessions, s.Proper
  /-- A call of a session sends what it handed over, and only an open request has a future. -/
  sends : ∀ (i : Nat) (k : Hds.Call) (o : Owner), w.connection.calls[i]? = some k →
    w.owners[i]? = some (some o) → ∃ requestId, k.outgoing = o.send.outgoing.toHds requestId ∧
      (k.future.isSome = true ↔ o.send = .request)
  /-- A call of the reader answers the greeting. -/
  replies : ∀ (i : Nat) (k : Hds.Call), w.connection.calls[i]? = some k →
    w.owners[i]? = some none → ∃ requestId, k.outgoing = HDSConnection.reply requestId
  /-- The task that awaits a call is at its place. -/
  awaits : ∀ (i : Nat) (k : Hds.Call) (o : Owner) (pc : Pc), w.connection.calls[i]? = some k →
    w.owners[i]? = some (some o) → place o.send k.pc = some pc →
      ∃ s, w.sessions[o.session]? = some s ∧ s.pc? o.task = some pc
  /-- No task awaits two calls. -/
  alone : ∀ (i j : Nat) (k k' : Hds.Call) (o o' : Owner), w.connection.calls[i]? = some k →
    w.connection.calls[j]? = some k' → w.owners[i]? = some (some o) →
    w.owners[j]? = some (some o') → o.session = o'.session → o.task = o'.task →
    k.pc.ended = false → k'.pc.ended = false → i = j
  reader : ∀ i, w.connection.run.call? = some i → w.owners[i]? = some none
  written : ∀ i ∈ w.connection.written, i < w.owners.length
  /-- The frames of a session are those that it has recorded. -/
  writes : ∀ (sid : Nat) (s : Session ε), w.sessions[sid]? = some s → w.writes sid = s.writes

theorem linked_new {c : HDSConnection} (h : (connections aead reprOf).init c) :
    (new c : Wire ε).Linked := by
  obtain ⟨session, outKey, inKey, firstPayload, buffer, eof, rfl⟩ := h
  constructor
  · rfl
  · intro i o h
    cases h
  · exact List.forall_mem_nil _
  · intro i k o h
    cases h
  · intro i k h
    cases h
  · intro i k o pc h
    cases h
  · intro i j k k' o o' h
    cases h
  · intro i h
    cases h
  · exact List.forall_mem_nil _
  · intro sid s h
    cases h

/-! ### What the frames are -/

theorem place_eq_none {send : Send} {pc : CallPc} : place send pc = none ↔ pc.ended = true := by
  cases pc <;> simp [place, CallPc.ended]

/-- A call that has not ended has a task at its place. -/
theorem Linked.awaited (h : w.Linked) {i : Nat} {k : Hds.Call} {o : Owner}
    (hk : w.connection.calls[i]? = some k) (ho : w.owners[i]? = some (some o))
    (hlive : k.pc.ended = false) : ∃ pc, place o.send k.pc = some pc ∧
      ∃ s, w.sessions[o.session]? = some s ∧ s.pc? o.task = some pc := by
  cases hplace : place o.send k.pc with
  | none =>
      rw [place_eq_none, hlive] at hplace
      cases hplace
  | some pc => exact ⟨pc, rfl, h.awaits i k o pc hk ho hplace⟩

theorem writes_congr (hw : w'.connection.written = w.connection.written)
    (ho : ∀ i ∈ w.connection.written, w'.owners[i]? = w.owners[i]?) (sid : Nat) :
    w'.writes sid = w.writes sid := by
  rw [writes, writes, hw]
  refine List.filterMap_congr fun i hi ↦ ?_
  rw [ho i hi]

theorem writes_connection {c : HDSConnection} (hw : c.written = w.connection.written) (sid : Nat) :
    ({ w with connection := c } : Wire ε).writes sid = w.writes sid := by
  show c.written.filterMap _ = _
  rw [hw]
  rfl

/-- One more frame is written. -/
theorem writes_concat {c : HDSConnection} {i : Nat} {owner : Option Owner}
    (hw : c.written = w.connection.written ++ [i]) (ho : w.owners[i]? = some owner) (sid : Nat) :
    ({ w with connection := c } : Wire ε).writes sid = w.writes sid ++
      ((owner.filter fun o ↦ o.session = sid).map fun o ↦ o.send.outgoing).toList := by
  show c.written.filterMap _ = _
  rw [hw, List.filterMap_append]
  refine congrArg _ ?_
  rw [List.filterMap_cons, List.filterMap_nil, ho, Option.join_some]
  cases (owner.filter fun o ↦ o.session = sid).map fun o ↦ o.send.outgoing <;> rfl

/-! ### Steps that keep the owners -/

/-- The calls and the tasks move together. -/
theorem Linked.update (h : w.Linked) (w' : Wire ε) (howners : w'.owners = w.owners)
    {moved : Option Nat}
    (hstirs : HDSConnection.Stirs moved w.connection { w'.connection with
      written := w.connection.written })
    (hrun : ∀ i, w'.connection.run.call? = some i → w.connection.run.call? = some i)
    (hwritten : ∀ i ∈ w'.connection.written, i < w.owners.length)
    (hlive : ∀ i k o, moved = some i → w.connection.calls[i]? = some k →
      w.owners[i]? = some (some o) → k.pc.ended = false)
    (hsessions : w'.sessions.length = w.sessions.length) (hproper : ∀ s ∈ w'.sessions, s.Proper)
    (hawaits : ∀ (i : Nat) (k k' : Hds.Call) (o : Owner) (pc : Pc),
      w.connection.calls[i]? = some k → w'.connection.calls[i]? = some k' →
      (moved ≠ some i → k'.pc = k.pc) → w.owners[i]? = some (some o) →
      place o.send k'.pc = some pc → ∃ s, w'.sessions[o.session]? = some s ∧ s.pc? o.task = some pc)
    (hwrites : ∀ (sid : Nat) (s : Session ε), w'.sessions[sid]? = some s →
      w'.writes sid = s.writes) : w'.Linked := by
  have hback : ∀ {i : Nat} {k' : Hds.Call}, w'.connection.calls[i]? = some k' →
      ∃ k, w.connection.calls[i]? = some k ∧ k'.outgoing = k.outgoing ∧
        k'.future.isSome = k.future.isSome ∧ (moved ≠ some i → k'.pc = k.pc) := by
    intro i k' hk'
    have hlt : i < w.connection.calls.length := hstirs.length ▸ lt_length_of_getElem? hk'
    obtain ⟨k'', hk'', hkept⟩ := hstirs.kept i _ (List.getElem?_eq_getElem hlt)
    have heq : k'' = k' := Option.some.inj (hk''.symm.trans hk')
    exact ⟨_, List.getElem?_eq_getElem hlt, heq ▸ hkept⟩
  have hended : ∀ {i : Nat} {k k' : Hds.Call} {o : Owner}, w.connection.calls[i]? = some k →
      w'.owners[i]? = some (some o) → (moved ≠ some i → k'.pc = k.pc) →
      k'.pc.ended = false → k.pc.ended = false := by
    intro i k k' o hk ho hsame hend
    by_cases hmoved : moved = some i
    · exact hlive i k o hmoved hk (howners ▸ ho)
    · rwa [← hsame hmoved]
  constructor
  · rw [howners, h.length]
    exact hstirs.length.symm
  · intro i o ho
    rw [hsessions]
    exact h.known i o (howners ▸ ho)
  · exact hproper
  · intro i k' o hk' ho
    obtain ⟨k, hk, hout, hfuture, -⟩ := hback hk'
    rw [hout, hfuture]
    exact h.sends i k o hk (howners ▸ ho)
  · intro i k' hk' ho
    obtain ⟨k, hk, hout, -⟩ := hback hk'
    rw [hout]
    exact h.replies i k hk (howners ▸ ho)
  · intro i k' o pc hk' ho hplace
    obtain ⟨k, hk, -, -, hsame⟩ := hback hk'
    exact hawaits i k k' o pc hk hk' hsame (howners ▸ ho) hplace
  · intro i j k₁' k₂' o₁ o₂ hk₁' hk₂' ho₁ ho₂ hsession htask hlive₁ hlive₂
    obtain ⟨k₁, hk₁, -, -, hsame₁⟩ := hback hk₁'
    obtain ⟨k₂, hk₂, -, -, hsame₂⟩ := hback hk₂'
    exact h.alone i j k₁ k₂ o₁ o₂ hk₁ hk₂ (howners ▸ ho₁) (howners ▸ ho₂) hsession htask
      (hended hk₁ ho₁ hsame₁ hlive₁) (hended hk₂ ho₂ hsame₂ hlive₂)
  · intro i hi
    rw [howners]
    exact h.reader i (hrun i hi)
  · intro i hi
    rw [howners]
    exact hwritten i hi
  · exact hwrites

/-- Only the connection moves, and no call gets to another place of its task. -/
theorem Linked.connection (h : w.Linked) {c : HDSConnection} (moved : Option Nat)
    (hstirs : HDSConnection.Stirs moved w.connection { c with written := w.connection.written })
    (hrun : ∀ i, c.run.call? = some i → w.connection.run.call? = some i)
    (hwritten : ∀ i ∈ c.written, i < w.owners.length)
    (hmoved : ∀ i k k', moved = some i → w.connection.calls[i]? = some k →
      c.calls[i]? = some k' → w.owners[i]? = some none ∨
        k.pc.ended = false ∧ ∀ send, place send k'.pc = place send k.pc)
    (hwrites : ∀ sid, ({ w with connection := c } : Wire ε).writes sid = w.writes sid) :
    ({ w with connection := c } : Wire ε).Linked := by
  refine h.update { w with connection := c } rfl hstirs hrun hwritten ?_ rfl h.proper ?_ ?_
  · intro i k o hi hk ho
    obtain ⟨k', hk', -⟩ := hstirs.kept i k hk
    rcases hmoved i k k' hi hk hk' with hnone | ⟨hlive, -⟩
    · rw [ho] at hnone
      cases hnone
    · exact hlive
  · intro i k k' o pc hk hk' hsame ho hplace
    refine h.awaits i k o pc hk ho ?_
    by_cases hi : moved = some i
    · rcases hmoved i k k' hi hk hk' with hnone | ⟨-, heq⟩
      · rw [ho] at hnone
        cases hnone
      · rwa [← heq]
    · rwa [← hsame hi]
  · intro sid s hs
    exact (hwrites sid).trans (h.writes sid s hs)

/-- A task of a session moves, and with it the call that told it to, or none. -/
theorem Linked.session (h : w.Linked) {c : HDSConnection} (moved : Option Nat) {sid : Nat}
    {s s' : Session ε} {cc : Bool} {a : Session.Label}
    (hstirs : HDSConnection.Stirs moved w.connection { c with written := w.connection.written })
    (hrun : c.run = w.connection.run)
    (hwritten : ∀ i ∈ c.written, i < w.owners.length)
    (hlive : ∀ i k o, moved = some i → w.connection.calls[i]? = some k →
      w.owners[i]? = some (some o) → k.pc.ended = false)
    (hs : w.sessions[sid]? = some s) (hstep : s.step opus cc a = some s')
    (hmine : ∀ (i : Nat) (k : Hds.Call) (o : Owner) (pc : Pc), c.calls[i]? = some k →
      w.owners[i]? = some (some o) → moved = some i ∨ o.session = sid ∧ a.task = some o.task →
      place o.send k.pc = some pc → o.session = sid ∧ s'.pc? o.task = some pc)
    (hwrites : ∀ sid', ({ w with connection := c } : Wire ε).writes sid' =
      if sid' = sid then s'.writes else w.writes sid') :
    ({ w with connection := c, sessions := w.sessions.set sid s' } : Wire ε).Linked := by
  have hlt : sid < w.sessions.length := lt_length_of_getElem? hs
  have hproper : s.Proper := h.proper s (List.mem_of_getElem? hs)
  refine h.update { w with connection := c, sessions := w.sessions.set sid s' } rfl hstirs
    (fun i hi ↦ hrun ▸ hi) hwritten hlive (List.length_set ..) ?_ ?_ ?_
  · intro s₁ hs₁
    rcases List.mem_or_eq_of_mem_set hs₁ with hs₁ | rfl
    · exact h.proper s₁ hs₁
    · exact hproper.step hstep
  · intro i k k' o pc hk hk' hsame ho hplace
    by_cases hmoves : moved = some i ∨ o.session = sid ∧ a.task = some o.task
    · obtain ⟨hsid, hpc⟩ := hmine i k' o pc hk' ho hmoves hplace
      exact ⟨s', by rw [hsid]; exact List.getElem?_set_self hlt, hpc⟩
    · obtain ⟨hi, hother⟩ := not_or.mp hmoves
      rw [hsame hi] at hplace
      obtain ⟨s₁, hs₁, hpc⟩ := h.awaits i k o pc hk ho hplace
      by_cases hsid : o.session = sid
      · rw [hsid, hs] at hs₁
        cases hs₁
        refine ⟨s', by rw [hsid]; exact List.getElem?_set_self hlt, ?_⟩
        obtain ⟨k₁, hk₁, rfl⟩ := Option.map_eq_some_iff.mp hpc
        obtain ⟨pc', hk₁', hstays⟩ := hproper.stays hstep hk₁
        obtain rfl := hstays fun ha ↦ hother ⟨hsid, ha⟩
        exact Option.map_eq_some_iff.mpr ⟨_, hk₁', rfl⟩
      · exact ⟨s₁, by rw [List.getElem?_set_ne (Ne.symm hsid)]; exact hs₁, hpc⟩
  · intro sid' s₁ hs₁
    refine (hwrites sid').trans ?_
    rcases (getElem?_set_eq_some hlt).mp hs₁ with ⟨rfl, rfl⟩ | ⟨hne, hs₁⟩
    · exact if_pos rfl
    · rw [if_neg hne]
      exact h.writes sid' s₁ hs₁

/-! ### Sessions and calls more -/

/-- `SiriSession(connection, ...)` -/
theorem Linked.begin (h : w.Linked) (opus : OpusEncoder ε) :
    ({ w with sessions := w.sessions ++ [.new opus.init] } : Wire ε).Linked where
  length := h.length
  known i o ho := by
    rw [List.length_append]
    exact Nat.lt_add_right _ (h.known i o ho)
  proper s hs := by
    rcases List.mem_append.mp hs with hs | hs
    · exact h.proper s hs
    · rw [List.mem_singleton.mp hs]
      exact Session.proper_new opus.init
  sends := h.sends
  replies := h.replies
  awaits i k o pc hk ho hplace := by
    obtain ⟨s, hs, hpc⟩ := h.awaits i k o pc hk ho hplace
    exact ⟨s, getElem?_concat_of_eq_some hs, hpc⟩
  alone := h.alone
  reader := h.reader
  written := h.written
  writes sid s hs := by
    rcases getElem?_concat_eq_some.mp hs with hs | ⟨rfl, rfl⟩
    · exact h.writes sid s hs
    · -- no call is that of a session that was not there
      have hnone : w.writes w.sessions.length = [] := by
        rw [Wire.writes, List.filterMap_eq_nil_iff]
        intro i _
        rw [Option.map_eq_none_iff, Option.filter_eq_none_iff]
        intro o ho
        have ho : w.owners[i]? = some (some o) := Option.join_eq_some_iff.mp ho
        simpa using Nat.ne_of_lt (h.known i o ho)
      exact hnone

/-- A call more, of the reader or of a task that awaits none. -/
theorem Linked.call (h : w.Linked) {c : HDSConnection} {k : Hds.Call} (owner : Option Owner)
    (hcalls : c.calls = w.connection.calls ++ [k]) (hk : k.pc = .waiting)
    (hwritten : c.written = w.connection.written)
    (hrun : ∀ i, c.run.call? = some i → w.connection.run.call? = some i ∨
      i = w.connection.calls.length ∧ owner = none)
    (howned : ∀ o, owner = some o → (∃ requestId, k.outgoing = o.send.outgoing.toHds requestId) ∧
      (k.future.isSome = true ↔ o.send = .request) ∧
      (∃ s, w.sessions[o.session]? = some s ∧ s.pc? o.task = some (.sending o.send .queued)) ∧
      ∀ (i : Nat) (k' : Hds.Call) (o' : Owner), w.connection.calls[i]? = some k' →
        w.owners[i]? = some (some o') → o'.session = o.session → o'.task = o.task →
        k'.pc.ended = true)
    (hreply : owner = none → ∃ requestId, k.outgoing = HDSConnection.reply requestId) :
    ({ w with connection := c, owners := w.owners ++ [owner] } : Wire ε).Linked := by
  have hplace : ∀ {i : Nat} {k' : Hds.Call} {owner' : Option Owner}, c.calls[i]? = some k' →
      (w.owners ++ [owner])[i]? = some owner' →
      w.connection.calls[i]? = some k' ∧ w.owners[i]? = some owner' ∨
        i = w.connection.calls.length ∧ k = k' ∧ owner = owner' := by
    intro i k' owner' hk' ho
    rw [hcalls] at hk'
    rcases getElem?_concat_eq_some.mp hk' with hk' | ⟨hi, rfl⟩ <;>
      rcases getElem?_concat_eq_some.mp ho with ho | ⟨hi', rfl⟩
    · exact .inl ⟨hk', ho⟩
    · exact absurd (h.length ▸ hi') (Nat.ne_of_lt (lt_length_of_getElem? hk'))
    · exact absurd hi (h.length ▸ Nat.ne_of_lt (lt_length_of_getElem? ho))
    · exact .inr ⟨hi, rfl, rfl⟩
  constructor
  · show (w.owners ++ [owner]).length = c.calls.length
    rw [hcalls, List.length_append, List.length_append, h.length]
    rfl
  · intro i o ho
    rcases getElem?_concat_eq_some.mp ho with ho | ⟨-, ho⟩
    · exact h.known i o ho
    · obtain ⟨-, -, ⟨s, hs, -⟩, -⟩ := howned o ho
      exact lt_length_of_getElem? hs
  · exact h.proper
  · intro i k' o hk' ho
    rcases hplace hk' ho with ⟨hk', ho⟩ | ⟨-, rfl, ho⟩
    · exact h.sends i k' o hk' ho
    · obtain ⟨⟨requestId, hout⟩, hfuture, -⟩ := howned o ho
      exact ⟨requestId, hout, hfuture⟩
  · intro i k' hk' ho
    rcases hplace hk' ho with ⟨hk', ho⟩ | ⟨-, rfl, ho⟩
    · exact h.replies i k' hk' ho
    · exact hreply ho
  · intro i k' o pc hk' ho hpc
    rcases hplace hk' ho with ⟨hk', ho⟩ | ⟨-, rfl, ho⟩
    · exact h.awaits i k' o pc hk' ho hpc
    · rw [hk] at hpc
      cases hpc
      exact (howned o ho).2.2.1
  · intro i j k₁ k₂ o₁ o₂ hk₁ hk₂ ho₁ ho₂ hsession htask hlive₁ hlive₂
    rcases hplace hk₁ ho₁ with ⟨hk₁, ho₁⟩ | ⟨hi, rfl, ho₁⟩ <;>
      rcases hplace hk₂ ho₂ with ⟨hk₂, ho₂⟩ | ⟨hj, rfl, ho₂⟩
    · exact h.alone i j k₁ k₂ o₁ o₂ hk₁ hk₂ ho₁ ho₂ hsession htask hlive₁ hlive₂
    · rw [(howned o₂ ho₂).2.2.2 i k₁ o₁ hk₁ ho₁ hsession htask] at hlive₁
      cases hlive₁
    · rw [(howned o₁ ho₁).2.2.2 j k₂ o₂ hk₂ ho₂ hsession.symm htask.symm] at hlive₂
      cases hlive₂
    · rw [hi, hj]
  · intro i hi
    rcases hrun i hi with hi | ⟨rfl, rfl⟩
    · exact getElem?_concat_of_eq_some (h.reader i hi)
    · rw [← h.length]
      exact getElem?_concat_length _
  · intro i hi
    rw [List.length_append]
    exact Nat.lt_add_right _ (h.written i (hwritten ▸ hi))
  · intro sid s hs
    rw [← h.writes sid s hs]
    refine writes_congr ?_ ?_ sid
    · exact hwritten
    · exact fun i hi ↦ List.getElem?_append_left (h.written i hi)

/-! ## Steps -/

/-- A call that has just begun waits for the lock. -/
theorem step_label {c c' : HDSConnection} {o : Outgoing} {requestId : Nat}
    (h : c.step aead reprOf (o.label requestId) = some c') :
    (∃ future : Option Future, c'.calls = c.calls ++ [⟨o.toHds requestId, future, .waiting⟩] ∧
        (future.isSome = true ↔ o = .open)) ∧
      c'.written = c.written ∧ c'.run = c.run := by
  cases o with
  | «open» =>
      simp only [Outgoing.label, Outgoing.kind, HDSConnection.step] at h
      rw [if_neg Bool.noConfusion] at h
      split at h
      · cases h
        exact ⟨⟨some .pending, rfl, iff_of_true rfl rfl⟩, rfl, rfl⟩
      · cases h
  | data | close =>
      cases h
      exact ⟨⟨none, rfl, iff_of_false Bool.noConfusion (by rintro ⟨⟩)⟩, rfl, rfl⟩

theorem outgoing_eq_open {send : Send} : send.outgoing = .open ↔ send = .request := by
  cases send <;> simp [Send.outgoing]

/-- What a task has called becomes a call that it awaits. -/
theorem Linked.forward (h : w.Linked) {sid t requestId : Nat}
    (hidle : ∀ (i : Nat) (k : Hds.Call) (o : Owner), w.connection.calls[i]? = some k →
      w.owners[i]? = some (some o) → o.session = sid → o.task = t → k.pc ≠ .waiting)
    (hw : w.forward aead reprOf sid t requestId = some w') : w'.Linked := by
  rw [Wire.forward] at hw
  split at hw
  · cases hw
    exact h
  · next send hcalled =>
    obtain ⟨s, hs, hcalled⟩ := Option.bind_eq_some_iff.mp hcalled
    obtain ⟨c, hstep, rfl⟩ := Option.map_eq_some_iff.mp hw
    obtain ⟨⟨future, hcalls, hfuture⟩, hwritten, hrun⟩ := step_label hstep
    have hpc := Session.called?_eq_some hcalled
    refine h.call (c := c) _ hcalls rfl hwritten (fun i hi ↦ .inl (hrun ▸ hi)) ?_ (by rintro ⟨⟩)
    rintro o ⟨⟩
    refine ⟨⟨requestId, rfl⟩, hfuture.trans outgoing_eq_open, ⟨s, hs, hpc⟩, ?_⟩
    intro i k o' hk ho' hsession htask
    by_contra hlive
    obtain ⟨pc, hplace, s', hs', hpc'⟩ := h.awaited hk ho' (Bool.eq_false_iff.mpr hlive)
    rw [hsession, hs] at hs'
    cases hs'
    rw [htask, hpc] at hpc'
    cases hpc'
    refine hidle i k o' hk ho' hsession htask ?_
    cases hkpc : k.pc with
    | waiting => rfl
    | _ =>
        rw [hkpc] at hplace
        cases hplace

/-- A step of a session. -/
theorem advance_eq_some {sid : Nat} {a : Session.Label} {requestId : Nat}
    (hw : w.advance opus aead reprOf sid a requestId = some w') :
    ∃ s s', w.sessions[sid]? = some s ∧ s.step opus w.connection.closed a = some s' ∧
      ((a.task = none ∧ w' = { w with sessions := w.sessions.set sid s' }) ∨
        ∃ t, a.task = some t ∧
          ({ w with sessions := w.sessions.set sid s' } : Wire ε).forward aead reprOf sid t
            requestId = some w') := by
  obtain ⟨s', hs', hw⟩ := Option.bind_eq_some_iff.mp hw
  obtain ⟨s, hs, hstep⟩ := Option.bind_eq_some_iff.mp hs'
  refine ⟨s, s', hs, hstep, ?_⟩
  dsimp only at hw
  split at hw
  · next t ht => exact .inr ⟨t, ht, hw⟩
  · next ht => exact .inl ⟨ht, (Option.some.inj hw).symm⟩

/-- A session makes a step by itself. -/
theorem Linked.alone_step (h : w.Linked) {sid : Nat} {a : Session.Label} {requestId : Nat}
    (ha : (w.sessions[sid]?.any fun s ↦ s.alone a) = true)
    (hw : w.advance opus aead reprOf sid a requestId = some w') : w'.Linked := by
  obtain ⟨s, s', hs, hstep, hnext⟩ := advance_eq_some hw
  rw [hs, Option.any_some] at ha
  have hfree : ∀ (i : Nat) (k : Hds.Call) (o : Owner), w.connection.calls[i]? = some k →
      w.owners[i]? = some (some o) → o.session = sid → a.task = some o.task →
      k.pc.ended = true := by
    intro i k o hk ho hsession htask
    by_contra hlive
    obtain ⟨pc, hplace, s₁, hs₁, hpc⟩ := h.awaited hk ho (Bool.eq_false_iff.mpr hlive)
    rw [hsession, hs] at hs₁
    cases hs₁
    have hfree := Session.inCall_of_alone ha hstep htask hpc
    cases hkpc : k.pc <;> rw [hkpc] at hplace <;> cases hplace <;> cases hfree
  have hsent : ∀ t, a ≠ .sent t := by
    rintro t rfl
    cases ha
  have hset : ({ w with sessions := w.sessions.set sid s' } : Wire ε).Linked := by
    refine h.session none (.of_calls rfl rfl) rfl h.written (by rintro _ _ _ ⟨⟩) hs hstep ?_ ?_
    · rintro i k o pc hk ho (hmoved | ⟨hsession, htask⟩) hplace
      · cases hmoved
      · have hended := hfree i k o hk ho hsession htask
        rw [place_eq_none.mpr hended] at hplace
        cases hplace
    · intro sid'
      split
      · next heq =>
        rw [heq, (h.proper s (List.mem_of_getElem? hs)).writes_step hstep hsent]
        exact h.writes sid s hs
      · rfl
  rcases hnext with ⟨-, rfl⟩ | ⟨t, htask, hnext⟩
  · exact hset
  · refine hset.forward ?_ hnext
    rintro i k o hk ho hsession rfl hpc
    have hended := hfree i k o hk ho hsession htask
    rw [hpc] at hended
    cases hended

/-- What a moved call tells its task. -/
structure Tells (k k' : Hds.Call) (o : Owner) (a : Session.Label) (s' : Session ε) : Prop where
  task : a.task = some o.task
  place : ∀ pc, place o.send k'.pc = some pc → s'.pc? o.task = some pc
  moved : k'.pc ≠ .waiting
  live : k.pc.ended = false

/-- A task goes on as the connection does. -/
theorem tells_of_moves (h : w.Linked) {c : HDSConnection} {i : Nat} {k k' : Hds.Call} {o : Owner}
    {onOpen : Option PyErr} {a : Session.Label} {s s' : Session ε}
    (hk : w.connection.calls[i]? = some k) (ho : w.owners[i]? = some (some o))
    (hs : w.sessions[o.session]? = some s) (hmoves : HDSConnection.Moves w.connection i k c)
    (hclosed : c.closed = w.connection.closed)
    (hk' : c.calls[i]? = some k') (htold : o.told onOpen k'.pc = some a)
    (hstep : s.step opus c.closed a = some s') :
    Tells k k' o a s' ∧
      (c.written = w.connection.written ++ [i] ∧ s'.writes = s.writes ++ [o.send.outgoing] ∨
        c.written = w.connection.written ∧ s'.writes = s.writes) := by
  have hproper := h.proper s (List.mem_of_getElem? hs)
  have hpc : ∀ pc, place o.send k.pc = some pc → s.pc? o.task = some pc := by
    intro pc hplace
    obtain ⟨s₁, hs₁, hpc⟩ := h.awaits i k o pc hk ho hplace
    rw [hs] at hs₁
    cases hs₁
    exact hpc
  cases hmoves with
  | writes hwaiting hopen hcalls hwritten =>
      have hlt := lt_length_of_getElem? hk
      rw [hcalls, List.getElem?_set_self hlt] at hk'
      cases hk'
      cases htold
      have hqueued := hpc (.sending o.send .queued) (by rw [hwaiting]; rfl)
      rw [hclosed, hopen, Session.step_sent hqueued] at hstep
      cases hstep
      obtain ⟨task, ht, -⟩ := Option.map_eq_some_iff.mp hqueued
      refine ⟨⟨rfl, ?_, by rintro ⟨⟩, by rw [hwaiting]; rfl⟩, .inl ⟨hwritten, ?_⟩⟩
      · rintro pc ⟨⟩
        exact (s.record _).pc?_goto_self o.task _ ht
      · show (s.log ++ [_]).filterMap Entry.writes? = _
        rw [List.filterMap_append]
        rfl
  | goes k₁ hstirs hk₁ honward =>
      rw [hk₁] at hk'
      cases hk'
      have hwritten : c.written = w.connection.written := hstirs.written
      generalize hat : k'.pc = pc at htold honward
      cases honward with
      | raised e hlive =>
          cases htold
          refine ⟨⟨rfl, ?_, by rw [hat]; rintro ⟨⟩, hlive⟩,
            .inr ⟨hwritten, hproper.writes_step hstep (by rintro _ ⟨⟩)⟩⟩
          rw [hat]
          rintro pc ⟨⟩
      | sent hdraining hfuture =>
          cases htold
          refine ⟨⟨rfl, ?_, by rw [hat]; rintro ⟨⟩, by rw [hdraining]; rfl⟩,
            .inr ⟨hwritten, hproper.writes_step hstep (by rintro _ ⟨⟩)⟩⟩
          rw [hat]
          rintro pc ⟨⟩
      | awaits hdraining hfuture =>
          cases htold
          refine ⟨⟨rfl, ?_, by rw [hat]; rintro ⟨⟩, by rw [hdraining]; rfl⟩,
            .inr ⟨hwritten, hproper.writes_step hstep (by rintro _ ⟨⟩)⟩⟩
          rw [hat]
          rintro pc ⟨⟩
          -- only an open request has a future
          obtain ⟨_, -, hrequest⟩ := h.sends i k o hk ho
          have hdrain := hpc (.sending o.send .drain) (by rw [hdraining]; rfl)
          rw [hrequest.mp hfuture] at hdrain
          obtain ⟨task, ht, -⟩ := Option.map_eq_some_iff.mp hdrain
          rw [Session.step, hdrain] at hstep
          cases hstep
          exact s.pc?_goto_self o.task _ ht
      | abandons e => cases htold
      | answered status message hawaiting hfuture =>
          cases htold
          refine ⟨⟨rfl, ?_, by rw [hat]; rintro ⟨⟩, by rw [hawaiting]; rfl⟩,
            .inr ⟨hwritten, hproper.writes_step hstep (by rintro _ ⟨⟩)⟩⟩
          rw [hat]
          rintro pc ⟨⟩

/-- A call moves, and its task with it. -/
theorem Linked.told_step (h : w.Linked) {c : HDSConnection} {i : Nat} {k k' : Hds.Call} {o : Owner}
    {onOpen : Option PyErr} {a : Session.Label}
    (hk : w.connection.calls[i]? = some k) (ho : w.owners[i]? = some (some o))
    (hmoves : HDSConnection.Moves w.connection i k c) (hrun : c.run = w.connection.run)
    (hclosed : c.closed = w.connection.closed) (hk' : c.calls[i]? = some k')
    (htold : o.told onOpen k'.pc = some a)
    (hw : ({ w with connection := c } : Wire ε).advance opus aead reprOf o.session a 0 = some w') :
    w'.Linked := by
  obtain ⟨s, s', hs, hstep, hnext⟩ := advance_eq_some hw
  obtain ⟨htells, hwrites⟩ := tells_of_moves h hk ho hs hmoves hclosed hk' htold hstep
  have hstirs := hmoves.stirs hk
  -- the task awaits no other call
  have hother : ∀ (j : Nat) (k₁ : Hds.Call) (o₁ : Owner), c.calls[j]? = some k₁ →
      w.owners[j]? = some (some o₁) → o₁.session = o.session → o₁.task = o.task →
      k₁.pc.ended = false → j = i := by
    intro j k₁ o₁ hk₁ ho₁ hsession htask hlive
    by_contra hne
    have hlt : j < w.connection.calls.length := hstirs.length ▸ lt_length_of_getElem? hk₁
    have hold := List.getElem?_eq_getElem hlt
    obtain ⟨k₂, hk₂, -, -, hsame⟩ := hstirs.kept j _ hold
    rw [show c.calls[j]? = some k₁ from hk₁] at hk₂
    cases hk₂
    rw [hsame fun heq ↦ hne (Option.some.inj heq).symm] at hlive
    exact hne (h.alone j i _ k o₁ o hold hk ho₁ ho hsession htask hlive htells.live)
  have hset : ({ w with connection := c, sessions := w.sessions.set o.session s' } :
      Wire ε).Linked := by
    refine h.session (some i) hstirs hrun ?_ ?_ hs hstep ?_ ?_
    · intro j hj
      rcases hwrites with ⟨hwritten, -⟩ | ⟨hwritten, -⟩
      · rw [hwritten] at hj
        rcases List.mem_append.mp hj with hj | hj
        · exact h.written j hj
        · rw [List.mem_singleton.mp hj]
          exact lt_length_of_getElem? ho
      · exact h.written j (hwritten ▸ hj)
    · rintro j k₁ - ⟨⟩ hk₁ -
      rw [hk] at hk₁
      cases hk₁
      exact htells.live
    · intro j k₁ o₁ pc hk₁ ho₁ hcond hplace
      have hj : j = i := by
        rcases hcond with heq | ⟨hsession, htask⟩
        · exact (Option.some.inj heq).symm
        · rw [htells.task] at htask
          refine hother j k₁ o₁ hk₁ ho₁ hsession (Option.some.inj htask).symm ?_
          rw [← Bool.not_eq_true, ← place_eq_none, hplace]
          rintro ⟨⟩
      subst hj
      rw [ho] at ho₁
      cases ho₁
      rw [hk'] at hk₁
      cases hk₁
      exact ⟨rfl, htells.place pc hplace⟩
    · intro sid
      rcases hwrites with ⟨hwritten, hmore⟩ | ⟨hwritten, hsame⟩
      · rw [writes_concat hwritten ho, Option.filter_some]
        by_cases hsid : sid = o.session
        · rw [if_pos (decide_eq_true hsid.symm), if_pos hsid, hsid, h.writes o.session s hs, hmore]
          rfl
        · rw [if_neg (by simpa using Ne.symm hsid), if_neg hsid]
          exact List.append_nil _
      · rw [writes_connection hwritten]
        split
        · next heq => rw [heq, h.writes o.session s hs, hsame]
        · rfl
  rcases hnext with ⟨hnone, -⟩ | ⟨t, htask, hnext⟩
  · rw [htells.task] at hnone
    cases hnone
  · refine hset.forward ?_ hnext
    rw [htells.task] at htask
    cases htask
    intro j k₁ o₁ hk₁ ho₁ hsession htask hwaiting
    obtain rfl := hother j k₁ o₁ hk₁ ho₁ hsession htask (by rw [hwaiting]; rfl)
    rw [show c.calls[j]? = some k₁ from hk₁] at hk'
    cases hk'
    exact htells.moved hwaiting

/-- The connection has made a step that begins no call. -/
theorem withConnection_of_length (h : w.Linked) {c : HDSConnection}
    (hlength : c.calls.length = w.connection.calls.length) :
    w.withConnection c = { w with connection := c } := by
  rw [withConnection, hlength, h.length, Nat.sub_self, List.replicate_zero, List.append_nil]

theorem told?_eq (w : Wire ε) {i : Nat} {o : Owner} {k : Hds.Call} {onOpen : Option PyErr}
    (ho : w.owners[i]? = some (some o)) (hk : w.connection.calls[i]? = some k) :
    w.told? i onOpen = (o.told onOpen k.pc).map fun a ↦ (o.session, a) := by
  rw [told?, ho, hk, Option.join_some]
  show (o.told onOpen k.pc).bind _ = _
  cases o.told onOpen k.pc <;> rfl

/-- A call that tells its task nothing gives up. -/
theorem place_of_told {c c' : HDSConnection} {i : Nat} {k k' : Hds.Call} {o : Owner}
    {onOpen : Option PyErr} (hmoves : HDSConnection.Moves c i k c') (hk : c.calls[i]? = some k)
    (hk' : c'.calls[i]? = some k') (htold : o.told onOpen k'.pc = none) :
    (∀ send, place send k'.pc = place send k.pc) ∧ c'.written = c.written := by
  cases hmoves with
  | writes _ _ hcalls _ =>
      rw [hcalls, List.getElem?_set_self (lt_length_of_getElem? hk)] at hk'
      cases hk'
      cases htold
  | goes k₁ hstirs hk₁ honward =>
      rw [hk₁] at hk'
      cases hk'
      refine ⟨?_, hstirs.written⟩
      generalize k'.pc = pc at htold honward
      cases honward with
      | abandons e hawaiting =>
          intro send
          rw [hawaiting]
          rfl
      | raised | sent | awaits | answered => cases htold

/-- A call goes on. -/
theorem Linked.tell (h : w.Linked) {c : HDSConnection} {i : Nat} {k : Hds.Call}
    {onOpen : Option PyErr} (hk : w.connection.calls[i]? = some k)
    (hmoves : HDSConnection.Moves w.connection i k c) (hrun : c.run = w.connection.run)
    (hclosed : c.closed = w.connection.closed)
    (hw : ({ w with connection := c } : Wire ε).tell opus aead reprOf i onOpen = some w') :
    w'.Linked := by
  have hstirs := hmoves.stirs hk
  obtain ⟨k', hk', -⟩ := hstirs.kept i k hk
  replace hk' : c.calls[i]? = some k' := hk'
  have hlt : i < w.owners.length := h.length ▸ lt_length_of_getElem? hk
  have hrun' : ∀ i, c.run.call? = some i → w.connection.run.call? = some i := fun i hi ↦ hrun ▸ hi
  obtain ⟨owner, ho⟩ : ∃ owner, w.owners[i]? = some owner := ⟨_, List.getElem?_eq_getElem hlt⟩
  have hwritten : ∀ j ∈ c.written, j < w.owners.length := by
    intro j hj
    rcases hmoves.written with heq | heq
    · rw [heq] at hj
      rcases List.mem_append.mp hj with hj | hj
      · exact h.written j hj
      · rw [List.mem_singleton.mp hj]
        exact hlt
    · exact h.written j (heq ▸ hj)
  -- a call that tells nothing stays at the place of its task
  have hsilent : (owner = none ∨ ∃ o, owner = some o ∧ o.told onOpen k'.pc = none) →
      ({ w with connection := c } : Wire ε).Linked := by
    intro hnone
    refine h.connection (some i) hstirs hrun' hwritten ?_ ?_
    · rintro j k₁ k₁' ⟨⟩ hk₁ hk₁'
      rw [hk] at hk₁
      cases hk₁
      rw [hk'] at hk₁'
      cases hk₁'
      rcases hnone with rfl | ⟨o, rfl, htold⟩
      · exact .inl ho
      · exact .inr ⟨hmoves.live, (place_of_told hmoves hk hk' htold).1⟩
    · intro sid
      rcases hnone with rfl | ⟨o, rfl, htold⟩
      · rcases hmoves.written with heq | heq
        · rw [writes_concat heq ho]
          exact List.append_nil _
        · exact writes_connection heq sid
      · exact writes_connection (place_of_told hmoves hk hk' htold).2 sid
  rw [Wire.tell] at hw
  cases owner with
  | none =>
      rw [told?, ho] at hw
      cases hw
      exact hsilent (.inl rfl)
  | some o =>
      rw [told?_eq { w with connection := c } ho hk'] at hw
      cases htold : o.told onOpen k'.pc with
      | none =>
          rw [htold] at hw
          cases hw
          exact hsilent (.inr ⟨o, rfl, htold⟩)
      | some a =>
          rw [htold] at hw
          exact h.told_step hk ho hmoves hrun hclosed hk' htold hw

/-- The reader begins its answer. -/
theorem Linked.greets (h : w.Linked) {c : HDSConnection}
    (hgreets : HDSConnection.Greets w.connection c) : (w.withConnection c).Linked := by
  obtain ⟨⟨requestId, hcalls⟩, hrun, hwritten⟩ := hgreets
  have hmore : c.calls.length - w.owners.length = 1 := by
    rw [hcalls, List.length_append, h.length, List.length_singleton, Nat.add_sub_cancel_left]
  rw [withConnection, hmore]
  refine h.call none hcalls rfl hwritten ?_ (by rintro _ ⟨⟩) fun _ ↦ ⟨requestId, rfl⟩
  intro i hi
  rw [hrun] at hi
  cases hi
  exact .inr ⟨rfl, rfl⟩

/-- **Calls and tasks go together at all times.** -/
theorem Linked.step (h : w.Linked) {a : Label} (hw : w.step opus aead reprOf a = some w') :
    w'.Linked := by
  cases a with
  | begin =>
      cases hw
      exact h.begin opus
  | session sid a requestId =>
      rw [Wire.step] at hw
      split at hw
      · next ha => exact h.alone_step ha hw
      · cases hw
  | connection a onOpen =>
      rw [Wire.step] at hw
      split at hw
      · cases hw
      · next hbegins =>
        obtain ⟨c, hstep, hw⟩ := Option.bind_eq_some_iff.mp hw
        split at hw
        · next i ha =>
          obtain ⟨k, hk, hmoves, hrun, hclosed⟩ := HDSConnection.step_moves hstep ha
          have hlength : c.calls.length = w.connection.calls.length := (hmoves.stirs hk).length
          rw [withConnection_of_length h hlength] at hw
          exact h.tell hk hmoves hrun hclosed hw
        · next ha =>
          cases hw
          rcases HDSConnection.step_reader_calls hstep ha (Bool.eq_false_iff.mpr hbegins) with
            hgreets | ⟨hstirs, hrun⟩
          · exact h.greets hgreets
          · rw [withConnection_of_length h hstirs.length]
            refine h.connection w.connection.run.call? ⟨hstirs.length, hstirs.kept, rfl⟩ ?_
              (fun i hi ↦ h.written i (hstirs.written ▸ hi)) ?_ fun sid ↦
              writes_connection hstirs.written sid
            · intro i hi
              rcases hrun with hnone | hsame
              · rw [hnone] at hi
                cases hi
              · rwa [← hsame]
            · intro i _ _ hi _ _
              exact .inl (h.reader i hi)

end Wire

end AtvRemote.Audio
