import AtvRemote.Hds.Table
import AtvRemote.Hds.Transparent

/-!
# The outbound channel

Whatever the calls on a connection do, the transport receives a sequence of whole frames, the
`k`-th under the `k`-th nonce, and a peer that opens them with a counter of its own recovers
what the calls whose frames were written had sent, in that order (`Outgoing.Recovered`).

Only one step writes (`CallStep.quiet_or_write`), and it writes a frame, counts it and records
it at once (`Outbound.writeFrame`).  That no nonce is used twice under one key follows from
this within a connection, and across connections from the salts of their sessions: no two
connections are made of one session (`Opened`), and the key tells the salt (`Salted`).
-/

namespace AtvRemote.Hds

open Lib Relation

/-! ## What a receiver recovers -/

/-- What the receiver of a payload recovers of the call that sent it: kind, protocol, topic,
identifier and status of the call, and the message as the codec gives it back. -/
structure Outgoing.Recovered (reprOf : Obj → String) (o : Outgoing) (payload : Bytes) : Prop where
  /-- The message was encoded, and is recovered as what it decodes to. -/
  decoded : ∃ data, encode (.dict o.content) = .ok data ∧ ∀ message,
    decode data = .ok (.dict message) →
      decodeMessage reprOf payload = .ok { o.asReceived with message }
  /-- A message that the codec carries is recovered without its wrappers. -/
  carried : o.Carried → decodeMessage reprOf payload = .ok o.asReceived
  /-- A message whose zeros agree is recovered with its floats as precise as their wrappers. -/
  alone : (Obj.dict o.content).unreadable = false → Obj.ZerosAgree (Obj.dict o.content).leaves →
    decodeMessage reprOf payload =
      .ok { o.asReceived with message := Obj.aloneItems [] o.content }

/-- What a call sends: its header, and its message encoded. -/
structure Encoded where
  kind : OutgoingKind
  protocol : PyStr
  topic : PyStr
  data : Option Bytes
deriving DecidableEq, Repr

/-- What a call sends, and no message if it cannot be encoded. -/
def Outgoing.encoded (o : Outgoing) : Encoded :=
  ⟨o.kind, o.protocol, o.topic, (encode (.dict o.content)).toOption⟩

/-- What is recovered of a call can be told from the call with its message encoded. -/
theorem Outgoing.decodeMessage_of_encoded {reprOf : Obj → String} {o : Outgoing}
    {payload data : Bytes} {kind : OutgoingKind} {protocol topic : PyStr} {message : Items}
    (h : o.protocol ≠ [] → o.Recovered reprOf payload)
    (ho : o.encoded = ⟨kind, protocol, topic, some data⟩) (hprotocol : protocol ≠ [])
    (hmessage : decode data = .ok (.dict message)) :
    decodeMessage reprOf payload =
      .ok { (⟨kind, protocol, topic, none⟩ : Outgoing).asReceived with message } := by
  obtain ⟨kind', protocol', topic', content⟩ := o
  simp only [encoded, Encoded.mk.injEq] at ho
  obtain ⟨rfl, rfl, rfl, hdata⟩ := ho
  obtain ⟨data', hdata', hall⟩ := (h hprotocol).decoded
  refine hall message ?_
  rwa [← Except.ok.inj ((toOption_eq_some.mp hdata).symm.trans hdata')]

/-- Every payload is recovered. -/
theorem Outgoing.recovered_payload (reprOf : Obj → String) {o : Outgoing} {payload : Bytes}
    (h : o.payload = .ok payload) (hprotocol : o.protocol ≠ []) : o.Recovered reprOf payload := by
  obtain ⟨-, data, -, hdata, -⟩ := payload_eq_ok h
  have hdecoded : ∀ message, decode data = .ok (.dict message) →
      decodeMessage reprOf payload = .ok { o.asReceived with message } := by
    intro message hmessage
    refine decodeMessage_of_decode reprOf h hprotocol fun data' hdata' ↦ ?_
    rwa [Except.ok.inj (hdata'.symm.trans hdata)]
  constructor
  · exact ⟨data, hdata, hdecoded⟩
  · exact decodeMessage_payload reprOf h hprotocol
  · intro hread hzeros
    exact hdecoded _ (decode_alone hdata hread hzeros)

namespace HDSConnection

variable {C : Crypto} {aead : Aead} {draw : HDSConnection → Nat → Prop}
  {reprOf : Obj → String} {c c' : HDSConnection}

/-! ## Calls keep what they send -/

/-- Calls keep what they send, and none goes back to wait for the lock. -/
def Kept (calls calls' : List Call) : Prop :=
  ∀ (i : Nat) (k : Call), calls[i]? = some k →
    ∃ k', calls'[i]? = some k' ∧ k'.outgoing = k.outgoing ∧ (k'.pc = .waiting → k.pc = .waiting)

namespace Kept

variable {calls calls' calls'' : List Call}

theorem refl (calls : List Call) : Kept calls calls := fun _ k hk ↦ ⟨k, hk, rfl, id⟩

theorem trans (h : Kept calls calls') (h' : Kept calls' calls'') : Kept calls calls'' := by
  intro i k hk
  obtain ⟨k', hk', hout, hpc⟩ := h i k hk
  obtain ⟨k'', hk'', hout', hpc'⟩ := h' i k' hk'
  exact ⟨k'', hk'', hout'.trans hout, hpc ∘ hpc'⟩

theorem append (more : List Call) : Kept calls (calls ++ more) := fun _ k hk ↦
  ⟨k, by rw [List.getElem?_append_left (lt_length_of_getElem? hk), hk], rfl, id⟩

theorem modify (i : Nat) {f : Call → Call} (hout : ∀ k, (f k).outgoing = k.outgoing)
    (hpc : ∀ k, (f k).pc = .waiting → k.pc = .waiting) : Kept calls (calls.modify i f) := by
  intro j k hk
  refine ⟨_, getElem?_modify_eq_some.mpr ⟨k, hk, rfl⟩, ?_⟩
  split
  · exact ⟨hout k, hpc k⟩
  · exact ⟨rfl, id⟩

theorem settle (i : Nat) (f : Future) : Kept calls (calls.modify i (·.settle f)) :=
  modify i (fun k ↦ k.outgoing_settle f) (fun k h ↦ k.pc_settle f ▸ h)

theorem setPc (i : Nat) {pc : CallPc} (hpc : pc ≠ .waiting) :
    Kept calls (calls.modify i fun k ↦ { k with pc }) :=
  modify i (fun _ ↦ rfl) (fun _ h ↦ (hpc h).elim)

theorem failCalls (responses : List Nat) : Kept calls (failCalls calls responses) := by
  rw [HDSConnection.failCalls]
  induction responses generalizing calls with
  | nil => exact refl calls
  | cons i responses ih => exact (settle i _).trans ih

end Kept

/-! ## Only one step writes -/

/-- Nothing is written, and nothing encrypted. -/
structure Quiet (c c' : HDSConnection) : Prop where
  outKey : c'.outKey = c.outKey
  outNonce : c'.outNonce = c.outNonce
  out : c'.out = c.out
  written : c'.written = c.written
  nonces : c'.nonces = c.nonces
  kept : Kept c.calls c'.calls

theorem Quiet.endCall (c : HDSConnection) (i : Nat) (pc : CallPc) (hpc : pc ≠ .waiting) :
    Quiet c (c.endCall i pc) := by
  rw [HDSConnection.endCall]
  split
  · exact ⟨rfl, rfl, rfl, rfl, rfl, .setPc i hpc⟩
  · exact ⟨rfl, rfl, rfl, rfl, rfl, (Kept.settle i _).trans (.setPc i hpc)⟩

/-- What is in a future that is done does not send `wait_for` back to wait for the lock. -/
theorem outcome_ne_waiting {f : Future} {pc : CallPc} (h : outcome f = some pc) :
    pc ≠ .waiting := by
  cases f <;> cases h <;> nofun

/-- **Every step of the calls writes nothing, or one frame.** -/
theorem CallStep.quiet_or_write (h : CallStep aead draw c c') :
    Quiet c c' ∨ ∃ i k payload n, c.calls[i]? = some k ∧ k.pc = .waiting ∧
      k.outgoing.payload = .ok payload ∧ nonce c.outNonce = .ok n ∧
      c' = c.writeFrame aead i payload n := by
  cases h with
  | reader => exact .inl ⟨rfl, rfl, rfl, rfl, rfl, .refl _⟩
  | send o => exact .inl ⟨rfl, rfl, rfl, rfl, rfl, .append _⟩
  | request requestId protocol topic message =>
      exact .inl ⟨rfl, rfl, rfl, rfl, rfl, .append _⟩
  | write i k payload n hk hpc _ _ hpayload hn =>
      exact .inr ⟨i, k, payload, n, hk, hpc, hpayload, hn, rfl⟩
  | refused i k e => exact .inl (.endCall c i _ (by rintro ⟨⟩))
  | sent i k =>
      left
      rw [HDSConnection.sent]
      split <;> exact ⟨rfl, rfl, rfl, rfl, rfl, .setPc i (by rintro ⟨⟩)⟩
  | abandon i k e =>
      exact .inl ⟨rfl, rfl, rfl, rfl, rfl, (Kept.settle i _).trans (.setPc i (by rintro ⟨⟩))⟩
  | cancelled i k e => exact .inl (.endCall c i _ (by rintro ⟨⟩))
  | drainRaised i k e =>
      obtain ⟨h₁, h₂, h₃, h₄, h₅, h₆⟩ := Quiet.endCall c.release i (.raised e) (by rintro ⟨⟩)
      exact .inl ⟨h₁, h₂, h₃, h₄, h₅, h₆⟩
  | answered i k f pc _ _ _ hout => exact .inl (.endCall c i _ (outcome_ne_waiting hout))
  | gaveUp i k e => exact .inl (.endCall c i _ (by rintro ⟨⟩))
  | resolve requestId status message =>
      refine .inl ⟨rfl, rfl, rfl, rfl, rfl, ?_⟩
      simp only [HDSConnection.resolve]
      split
      · exact .settle _ _
      · exact .refl _
  | close =>
      left
      rw [HDSConnection.close]
      split
      · exact ⟨rfl, rfl, rfl, rfl, rfl, .refl _⟩
      · exact ⟨rfl, rfl, rfl, rfl, rfl, .failCalls _⟩

/-! ## What is written -/

/-- A payload is the one of a call. -/
def PayloadOf (calls : List Call) (i : Nat) (payload : Bytes) : Prop :=
  ∃ k, calls[i]? = some k ∧ k.outgoing.payload = .ok payload

/-- What a connection has written. -/
structure Outbound (aead : Aead) (c : HDSConnection) : Prop where
  counter : c.outNonce = c.written.length
  /-- The `k`-th frame is encrypted under the nonce `k`. -/
  nonces : c.nonces.map Except.ok = (List.range c.written.length).map nonce
  /-- The frames are whole, and hold the payloads of the calls. -/
  sealed : ∃ payloads, hdsFraming.sealAll aead c.outKey payloads = some c.out ∧
    List.Forall₂ (PayloadOf c.calls) c.written payloads
  /-- No call writes its frame twice. -/
  once : c.written.Nodup
  /-- A call that has written its frame has had the lock. -/
  passed : ∀ i ∈ c.written, ∃ k, c.calls[i]? = some k ∧ k.pc ≠ .waiting

namespace Outbound

theorem new (session : Nat) (outKey inKey firstPayload buffer : Bytes) (eof : Bool) :
    (HDSConnection.new session outKey inKey firstPayload buffer eof).Outbound aead where
  counter := rfl
  nonces := rfl
  sealed := ⟨[], rfl, .nil⟩
  once := List.nodup_nil
  passed _ h := by cases h

/-- The payloads of the calls stay what they are. -/
theorem payloadOf_kept {calls calls' : List Call} (hkept : Kept calls calls') {i : Nat}
    {payload : Bytes} (h : PayloadOf calls i payload) : PayloadOf calls' i payload := by
  obtain ⟨k, hk, hpayload⟩ := h
  obtain ⟨k', hk', hout, -⟩ := hkept i k hk
  exact ⟨k', hk', hout ▸ hpayload⟩

theorem quiet (hc : c.Outbound aead) (h : Quiet c c') : c'.Outbound aead where
  counter := by rw [h.outNonce, h.written, hc.counter]
  nonces := by rw [h.nonces, h.written, hc.nonces]
  sealed := by
    obtain ⟨payloads, hseal, hpayloads⟩ := hc.sealed
    rw [h.outKey, h.out, h.written]
    exact ⟨payloads, hseal, hpayloads.imp fun _ _ ↦ payloadOf_kept h.kept⟩
  once := h.written ▸ hc.once
  passed i hi := by
    obtain ⟨k, hk, hpc⟩ := hc.passed i (h.written ▸ hi)
    obtain ⟨k', hk', -, hpc'⟩ := h.kept i k hk
    exact ⟨k', hk', hpc ∘ hpc'⟩

/-- One more frame is written. -/
theorem writeFrame (hc : c.Outbound aead) {i : Nat} {k : Call} {payload n : Bytes}
    (hk : c.calls[i]? = some k) (hpc : k.pc = .waiting)
    (hpayload : k.outgoing.payload = .ok payload) (hn : nonce c.outNonce = .ok n) :
    (c.writeFrame aead i payload n).Outbound aead := by
  have hkept : Kept c.calls (c.calls.modify i fun k ↦ { k with pc := .draining }) :=
    .setPc i nofun
  have hplace : (c.calls.modify i fun k ↦ { k with pc := .draining })[i]? =
      some { k with pc := .draining } :=
    getElem?_modify_eq_some.mpr ⟨k, hk, by rw [if_pos rfl]⟩
  constructor
  · show c.outNonce + 1 = (c.written ++ [i]).length
    rw [List.length_append, List.length_singleton, hc.counter]
  · show (c.nonces ++ [n]).map Except.ok = (List.range (c.written ++ [i]).length).map nonce
    rw [List.length_append, List.length_singleton, List.range_succ, List.map_append,
      List.map_append, hc.nonces, List.map_singleton, List.map_singleton, ← hc.counter, hn]
  · obtain ⟨payloads, hseal, hpayloads⟩ := hc.sealed
    have hlength : c.outNonce = 0 + payloads.length := by
      rw [hc.counter, hpayloads.length_eq, Nat.zero_add]
    refine ⟨payloads ++ [payload],
      Framing.sealFrom_concat hseal (toOption_eq_some.mpr (hlength ▸ hn)), ?_⟩
    refine List.rel_append (hpayloads.imp fun _ _ ↦ payloadOf_kept hkept) (.cons ?_ .nil)
    exact ⟨_, hplace, hpayload⟩
  · refine List.nodup_append.mpr ⟨hc.once, List.nodup_singleton i, ?_⟩
    rintro j hj j' hj' rfl
    obtain rfl := List.mem_singleton.mp hj'
    obtain ⟨k', hk', hpc'⟩ := hc.passed j hj
    rw [hk] at hk'
    exact hpc' (Option.some.inj hk' ▸ hpc)
  · intro j hj
    rcases List.mem_append.mp hj with hj | hj
    · obtain ⟨k', hk', hpc'⟩ := hc.passed j hj
      obtain ⟨k'', hk'', -, hpc''⟩ := hkept j k' hk'
      exact ⟨k'', hk'', hpc' ∘ hpc''⟩
    · obtain rfl := List.mem_singleton.mp hj
      exact ⟨_, hplace, nofun⟩

theorem callStep (h : CallStep aead draw c c') (hc : c.Outbound aead) : c'.Outbound aead := by
  rcases h.quiet_or_write with hquiet | ⟨i, k, payload, n, hk, hpc, hpayload, hn, rfl⟩
  · exact hc.quiet hquiet
  · exact hc.writeFrame hk hpc hpayload hn

/-- No nonce is used twice. -/
theorem nodup_nonces (hc : c.Outbound aead) : c.nonces.Nodup := by
  refine List.Nodup.of_map (Except.ok : Bytes → Except PyErr Bytes) ?_
  rw [hc.nonces]
  refine List.nodup_range.map_on fun i hi j _ heq ↦ ?_
  have hmem : nonce i ∈ c.nonces.map Except.ok := by
    rw [hc.nonces]
    exact List.mem_map_of_mem hi
  obtain ⟨n, -, hn⟩ := List.mem_map.mp hmem
  exact nonce_injective hn.symm (heq ▸ hn.symm)

/-- The frames open to the payloads of the calls. -/
theorem opened (hc : c.Outbound aead) (hA : aead.Lawful 16) :
    ∃ payloads, hdsFraming.openAll aead c.outKey c.out = some payloads ∧
      List.Forall₂ (PayloadOf c.calls) c.written payloads := by
  obtain ⟨payloads, hseal, hpayloads⟩ := hc.sealed
  have hlength : ∀ payload ∈ payloads, payload.length ≤ maxPayloadLength := by
    refine forall_mem_of_forall₂ (fun i payload ⟨k, _, hpayload⟩ ↦ ?_) hpayloads
    obtain ⟨-, -, -, -, -, -, hlength⟩ := Outgoing.payload_eq_ok hpayload
    exact hlength
  exact ⟨payloads, Framing.openAll_of_sealAll hdsFraming_lawful hA hseal hlength, hpayloads⟩

/-- The payloads can be opened again, and every one of them is what a call has sent. -/
theorem received (hc : c.Outbound aead) (hA : aead.Lawful 16) (reprOf : Obj → String) :
    ∃ payloads, hdsFraming.openAll aead c.outKey c.out = some payloads ∧
      List.Forall₂ (fun i payload ↦ ∃ k, c.calls[i]? = some k ∧
        (k.outgoing.protocol ≠ [] → k.outgoing.Recovered reprOf payload)) c.written payloads := by
  obtain ⟨payloads, hopen, hpayloads⟩ := hc.opened hA
  refine ⟨payloads, hopen, hpayloads.imp fun i payload ⟨k, hk, hpayload⟩ ↦ ⟨k, hk, ?_⟩⟩
  exact Outgoing.recovered_payload reprOf hpayload

end Outbound

end HDSConnection

namespace HDSServer

variable {C : Crypto} {reprOf : Obj → String} {ok : Label → Prop} {s s' : HDSServer}

/-- Every connection has written whole frames under the nonces from 0 on. -/
def Outbound (aead : Aead) (s : HDSServer) : Prop := ∀ c ∈ s.opened, c.Outbound aead

theorem Outbound.serverStep (h : ServerStep C reprOf ok s s') (hs : s.Outbound C.aead) :
    s'.Outbound C.aead := by
  cases h with
  | control | remove | add => exact hs
  | connection i c c' a hc hstep =>
      intro c₁ hc₁
      rcases List.mem_or_eq_of_mem_set hc₁ with hc₁ | rfl
      · exact hs c₁ hc₁
      · exact HDSConnection.step_invariant (fun _ _ ↦ HDSConnection.Outbound.callStep) hstep
          (hs c (List.mem_of_getElem? hc))
  | accept t a p session payload header encrypted _ _ =>
      intro c hc
      rcases List.mem_append.mp hc with hc | hc
      · exact hs c hc
      · obtain rfl := List.mem_singleton.mp hc
        exact .new ..

/-- The key under which a session sends is derived with the session's own salt, behind one of
the controller's, which has a fixed length. -/
def Salted (C : Crypto) (s : HDSServer) : Prop :=
  ∀ (p : Nat) (session : PreparedSession), s.sessions[p]? = some session →
    ∃ sharedSecret controllerSalt, controllerSalt.length = 32 ∧
      session.accessoryToControllerKey =
        C.hkdf sharedSecret (controllerSalt ++ session.accessorySalt) readInfo

theorem Salted.withoutSession (hs : s.Salted C) (p : Nat) : (s.withoutSession p).Salted C := by
  intro q session hsession
  rw [HDSServer.withoutSession, getElem?_modify_timeout] at hsession
  split at hsession
  · obtain ⟨old, hold, rfl⟩ := Option.map_eq_some_iff.mp hsession
    exact hs q old hold
  · exact hs q session hsession

theorem Salted.serverStep (htable : s.Table) (h : ServerStep C reprOf ok s s') (hs : s.Salted C) :
    s'.Salted C := by
  cases h with
  | control | connection => exact hs
  | remove p => exact hs.withoutSession p
  | add client sharedSecret controllerSalt accessorySalt _ _ _ hsalt =>
      intro p session hsession
      rcases getElem?_concat_eq_some.mp hsession with hold | ⟨-, rfl⟩
      · exact hs p session hold
      · exact ⟨sharedSecret, controllerSalt, hsalt, rfl⟩
  | accept t a p session payload header encrypted _ _ =>
      rw [openConnection, htable.removePrepared_eq]
      exact hs.withoutSession p

/-- The key tells the salt, and the salt the session. -/
theorem Salted.session_eq (hs : s.Salted C) (hkdf : C.SaltInjective)
    (hsalts : (s.sessions.map PreparedSession.accessorySalt).Nodup) {p q : Nat}
    {session session' : PreparedSession} (hp : s.sessions[p]? = some session)
    (hq : s.sessions[q]? = some session')
    (hkey : session.accessoryToControllerKey = session'.accessoryToControllerKey) : p = q := by
  obtain ⟨secret, salt, hlength, hsession⟩ := hs p session hp
  obtain ⟨secret', salt', hlength', hsession'⟩ := hs q session' hq
  have heq := hkdf _ _ _ _ _ (hsession.symm.trans (hkey.trans hsession'))
  have hsalt : session.accessorySalt = session'.accessorySalt :=
    (List.append_inj heq (hlength.trans hlength'.symm)).2
  refine (List.getElem?_inj ?_ hsalts).mp ?_
  · rw [List.length_map]
    exact lt_length_of_getElem? hp
  · rw [List.getElem?_map, hp, List.getElem?_map, hq, Option.map_some, Option.map_some, hsalt]

/-- **No key and nonce are used for two encryptions.** -/
theorem nodup_encryptions (hopened : s.Opened) (hout : s.Outbound C.aead) (hs : s.Salted C)
    (hkdf : C.SaltInjective) (hsalts : (s.sessions.map PreparedSession.accessorySalt).Nodup) :
    (s.opened.flatMap fun c ↦ c.nonces.map fun n ↦ (c.outKey, n)).Nodup := by
  refine List.nodup_flatMap.mpr ⟨fun c hc ↦ ?_, ?_⟩
  · exact (hout c hc).nodup_nonces.map fun _ _ h ↦ (Prod.mk.inj h).2
  · refine (List.pairwise_map.mp hopened.nodup).imp_of_mem fun {c c'} hc hc' hne ↦ ?_
    rintro ⟨key, n⟩ hmem hmem'
    obtain ⟨_, _, heq⟩ := List.mem_map.mp hmem
    obtain ⟨_, _, heq'⟩ := List.mem_map.mp hmem'
    obtain ⟨session, hsession, hkey, -⟩ := hopened.keys c hc
    obtain ⟨session', hsession', hkey', -⟩ := hopened.keys c' hc'
    refine hne (hs.session_eq hkdf hsalts hsession hsession' ?_)
    rw [← hkey, ← hkey', (Prod.mk.inj heq).1, (Prod.mk.inj heq').1]

/-- **The transport of every connection receives whole frames under the nonces from 0 on, and a
peer that opens them recovers what the calls whose frames they are had sent; across all
connections no key and nonce are used twice.** -/
theorem outboundChannel (C : Crypto) (reprOf : Obj → String) (s : HDSServer)
    (h : (servers C reprOf).Reachable s) (hA : C.aead.Lawful 16) (hkdf : C.SaltInjective)
    (hsalts : (s.sessions.map PreparedSession.accessorySalt).Nodup) :
    (∀ c ∈ s.opened,
      (∃ payloads, hdsFraming.sealAll C.aead c.outKey payloads = some c.out) ∧
      c.nonces.map Except.ok = (List.range c.written.length).map nonce ∧
      c.written.Nodup ∧
      ∃ payloads, hdsFraming.openAll C.aead c.outKey c.out = some payloads ∧
        List.Forall₂ (fun i payload ↦ ∃ k, c.calls[i]? = some k ∧
          (k.outgoing.protocol ≠ [] → k.outgoing.Recovered reprOf payload)) c.written payloads) ∧
    (s.opened.flatMap fun c ↦ c.nonces.map fun n ↦ (c.outKey, n)).Nodup := by
  obtain ⟨htable, hout⟩ := invariant (I := Outbound C.aead) (fun _ h ↦ by cases h)
    (fun _ _ _ hstep ↦ Outbound.serverStep hstep) h
  obtain ⟨-, hsalted⟩ := invariant (I := Salted C) (fun _ _ h ↦ by cases h)
    (fun _ _ htable hstep ↦ Salted.serverStep htable hstep) h
  refine ⟨fun c hc ↦ ?_, nodup_encryptions (Opened.reachable h) hout hsalted hkdf hsalts⟩
  obtain ⟨payloads, hseal, -⟩ := (hout c hc).sealed
  exact ⟨⟨payloads, hseal⟩, (hout c hc).nonces, (hout c hc).once, (hout c hc).received hA reprOf⟩

/-- A request overtakes an event with a level, and a response that cannot be encoded raises.  The
peer recovers both, the level in single precision. -/
theorem outboundChannel_overtaken :
    let C : Crypto := ⟨plain, fun _ salt info ↦ salt ++ info⟩
    ∃ s, (servers C fun _ ↦ "").exec .new
        [.start (some 50000),
          .prepareSession ⟨"127.0.0.1", 1⟩ (.replicate 32 0) (.replicate 32 1) (.replicate 32 2),
          .connect, .feedAccept 0 ([1, 0, 0, 0] ++ .replicate 16 0), .resumeAccept 0,
          .resumeAccept 0,
          .connection 0 (.sendEvent (.ofString "dataSend") (.ofString "data")
            (some [(.text "rms", .float32 ⟨0x3FB999999999999A⟩)])),
          .connection 0 (.sendResponse (.ofString "control") (.ofString "hello") (2 ^ 63) 0 none),
          .connection 0 (.sendRequest (.ofString "dataSend") (.ofString "open") none true 7),
          .connection 0 (.acquire 2), .connection 0 (.drained 2), .connection 0 (.acquire 1),
          .connection 0 (.acquire 0)] = some s ∧
      s.opened.map HDSConnection.written = [[2, 0]] ∧
      (∀ c ∈ s.opened,
        (∃ payloads, hdsFraming.sealAll C.aead c.outKey payloads = some c.out) ∧
        c.nonces.map Except.ok = [nonce 0, nonce 1] ∧
        ∃ payloads, hdsFraming.openAll C.aead c.outKey c.out = some payloads ∧
          payloads.map (decodeMessage fun _ ↦ "") =
            [.ok ⟨.request, .ofString "dataSend", .ofString "open", [], some 7, none⟩,
              .ok ⟨.event, .ofString "dataSend", .ofString "data",
                [(.text "rms", .float ⟨0x3FB99999A0000000⟩)], none, none⟩]) ∧
      (s.opened.flatMap fun c ↦ c.nonces.map fun n ↦ (c.outKey, n)).Nodup := by
  intro C
  generalize hrun : (servers C fun _ ↦ "").exec .new _ = r
  have hr : r.map (fun s ↦ (s.opened.map (fun c ↦ (c.written, c.calls[2]?.map (·.outgoing.encoded),
      c.calls[0]?.map (·.outgoing.encoded))), s.sessions.map PreparedSession.accessorySalt)) =
        some ([([2, 0],
          some ⟨.request 7, .ofString "dataSend", .ofString "open", some [0xE0]⟩,
          some ⟨.event, .ofString "dataSend", .ofString "data",
            some [0xE1, 0x43, 0x72, 0x6D, 0x73, 0x35, 0xCD, 0xCC, 0xCC, 0x3D]⟩)],
        [.replicate 32 2]) := by
    rw [← hrun]
    decide +kernel
  obtain ⟨s, rfl, hs⟩ := Option.map_eq_some_iff.mp hr
  obtain ⟨hopened, hsalts⟩ := Prod.mk.inj hs
  obtain ⟨hall, hnodup⟩ := outboundChannel C _ s (.exec (.init rfl) hrun) plain_lawful
    (fun _ _ _ _ _ h ↦ List.append_cancel_right h) (by rw [hsalts]; exact List.nodup_singleton _)
  have hwritten := congrArg (List.map Prod.fst) hopened
  rw [List.map_map] at hwritten
  refine ⟨s, rfl, hwritten, fun c hc ↦ ?_, hnodup⟩
  obtain ⟨hsealed, hnonces, -, payloads, hopen, hreceived⟩ := hall c hc
  have hmem := List.mem_map_of_mem (f := fun c ↦ (c.written,
    c.calls[2]?.map (·.outgoing.encoded), c.calls[0]?.map (·.outgoing.encoded))) hc
  rw [hopened, List.mem_singleton] at hmem
  simp only [Prod.mk.injEq] at hmem
  obtain ⟨hwritten, hrequest, hevent⟩ := hmem
  rw [hwritten] at hnonces hreceived
  refine ⟨hsealed, hnonces, payloads, hopen, ?_⟩
  -- one payload for each of the two calls
  obtain _ | ⟨⟨k, hk, hfirst⟩, _ | ⟨⟨k', hk', hsecond⟩, _ | _⟩⟩ := hreceived
  rw [hk, Option.map_some, Option.some.injEq] at hrequest
  rw [hk', Option.map_some, Option.some.injEq] at hevent
  have hempty : decode [0xE0] = .ok (.dict []) := by rfl
  have hlevel : decode [0xE1, 0x43, 0x72, 0x6D, 0x73, 0x35, 0xCD, 0xCC, 0xCC, 0x3D] =
      .ok (.dict [(.text "rms", .float ⟨0x3FB99999A0000000⟩)]) := by rfl
  rw [List.map_cons, Outgoing.decodeMessage_of_encoded hfirst hrequest (by rintro ⟨⟩) hempty,
    List.map_cons, Outgoing.decodeMessage_of_encoded hsecond hevent (by rintro ⟨⟩) hlevel]
  rfl

end HDSServer

end AtvRemote.Hds
