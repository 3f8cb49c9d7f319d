import AtvRemote.Hds.Table

/-!
# The inbound channel

What a controller sends under the key of one prepared session reaches at most one connection,
in order and without gaps, whatever else arrives on any number of TCP connections.

The argument is split as the source splits it.  `_accept` tries every listed session with the
first nonce and takes the one that fits off the table, so that the first payload is the
first one sent (`Opened`, `identify_eq_some`); the reader opens each further frame under the
next nonce and stops at the first failure, so that it accepts the payloads one after the
other (`Genuine.readerStep`).
-/

namespace AtvRemote.Hds

open Lib Relation

namespace HDSConnection

/-- The messages that a connection has decoded: the greeting that `_run` consumed, and those
passed to `_dispatch`. -/
def decoded (c : HDSConnection) : List Message := c.hello.toList ++ c.dispatched

variable {C : Crypto} {reprOf : Obj → String} {ms : List Bytes} {c c' : HDSConnection}

namespace Reader

/-- The reader has decoded the first of the payloads `ms`, in order. -/
structure Genuine (reprOf : Obj → String) (ms : List Bytes) (r : Reader) : Prop where
  first : ms[0]? = some r.firstPayload
  /-- The greeting is the first payload. -/
  hello : ∀ m, r.hello = some m →
    decodeMessage reprOf r.firstPayload = .ok m ∧ m.isHello = true
  /-- Every message dispatched is the payload behind those before it. -/
  dispatched : ∀ (i : Nat) (m : Message), r.dispatched[i]? = some m →
    ∃ payload, ms[i + 1]? = some payload ∧ decodeMessage reprOf payload = .ok m
  /-- The counter is the number of payloads accepted. -/
  counter : r.run ≠ .ended → r.inNonce = r.dispatched.length + 1
  /-- Nothing is dispatched before the greeting. -/
  greeted : r.hello = none → r.dispatched = []
  /-- Behind its first step the reader has seen the greeting, or it has ended. -/
  started : r.run ≠ .start → r.run ≠ .ended → r.hello.isSome = true

namespace Genuine

variable {r : Reader}

/-- The reader ends. -/
theorem ended (hr : r.Genuine reprOf ms) (inNonce : Nat) :
    ({ r with run := .ended, inNonce } : Reader).Genuine reprOf ms :=
  ⟨hr.first, hr.hello, hr.dispatched, fun h ↦ (h rfl).elim, hr.greeted, fun _ h ↦ (h rfl).elim⟩

/-- The reader moves on behind its first step. -/
theorem moved (hr : r.Genuine reprOf ms) (hstart : r.run ≠ .start) (hended : r.run ≠ .ended)
    (run : RunPc) : ({ r with run } : Reader).Genuine reprOf ms :=
  ⟨hr.first, hr.hello, hr.dispatched, fun _ ↦ hr.counter hended, hr.greeted,
    fun _ _ ↦ hr.started hstart hended⟩

/-- The greeting. -/
theorem greet (hr : r.Genuine reprOf ms) (hrun : r.run = .start) {m : Message}
    (hm : decodeMessage reprOf r.firstPayload = .ok m) (hhello : m.isHello = true) (i : Nat) :
    ({ r with hello := some m, run := .replying i } : Reader).Genuine reprOf ms where
  first := hr.first
  hello m' h := by
    obtain rfl := Option.some.inj h
    exact ⟨hm, hhello⟩
  dispatched := hr.dispatched
  counter _ := hr.counter (by rw [hrun]; nofun)
  greeted h := by cases h
  started _ _ := rfl

/-- The next payload. -/
theorem message (hr : r.Genuine reprOf ms) (hstart : r.run ≠ .start) (hended : r.run ≠ .ended)
    {payload : Bytes} {m : Message} (hpayload : ms[r.inNonce]? = some payload)
    (hm : decodeMessage reprOf payload = .ok m) (run : RunPc) (handled : List Bool) :
    ({ r with inNonce := r.inNonce + 1, dispatched := r.dispatched ++ [m], run, handled } :
      Reader).Genuine reprOf ms where
  first := hr.first
  hello := hr.hello
  dispatched i m' h := by
    rcases getElem?_concat_eq_some.mp h with hold | ⟨rfl, rfl⟩
    · exact hr.dispatched i m' hold
    · exact ⟨payload, hr.counter hended ▸ hpayload, hm⟩
  counter _ := by
    rw [List.length_append, List.length_singleton, hr.counter hended]
  greeted h := by
    have hsome := hr.started hstart hended
    rw [h] at hsome
    cases hsome
  started _ _ := hr.started hstart hended

/-- What has been decoded is a prefix of what was sent. -/
theorem isPrefix (hr : r.Genuine reprOf ms) :
    (r.hello.toList ++ r.dispatched).map Except.ok <+: ms.map (decodeMessage reprOf) := by
  refine map_isPrefix_map fun i m hm ↦ ?_
  cases hhello : r.hello with
  | none =>
      rw [hhello, hr.greeted hhello] at hm
      cases hm
  | some first =>
      rw [hhello, Option.toList_some, List.singleton_append] at hm
      cases i with
      | zero =>
          obtain rfl := Option.some.inj hm
          exact ⟨r.firstPayload, hr.first, (hr.hello first hhello).1⟩
      | succ i => exact hr.dispatched i m hm

end Genuine

end Reader

/-- **The reader accepts the payloads one after the other.** -/
theorem genuine_readerStep {a : Label} (hsealed : hdsFraming.SealedOnly C.aead c.inKey ms)
    (h : ReaderStep C.aead reprOf c a c') (hc : c.reader.Genuine reprOf ms) :
    c'.reader.Genuine reprOf ms := by
  cases h with
  | idle h =>
      rw [h]
      exact hc
  | greet m hrun hm hhello h =>
      rw [h]
      exact hc.greet hrun hm hhello _
  | ended inNonce _ h =>
      rw [h]
      exact hc.ended inNonce
  | next _ hrun h =>
      rw [h]
      have hstart : c.run ≠ .start := by rcases hrun with ⟨i, h⟩ | ⟨m, h⟩ <;> rw [h] <;> nofun
      have hended : c.run ≠ .ended := by rcases hrun with ⟨i, h⟩ | ⟨m, h⟩ <;> rw [h] <;> nofun
      exact hc.moved hstart hended .header
  | header header length hrun h =>
      have hstart : c.run ≠ .start := by rw [hrun]; nofun
      have hended : c.run ≠ .ended := by rw [hrun]; nofun
      rw [h]
      exact hc.moved hstart hended _
  | message header length n payload m run handled _ hrun _ hn hopen hm _ h =>
      have hpayload : ms[c.inNonce]? = some payload :=
        hsealed.getElem?_eq hdsFraming_lawful (toOption_eq_some.mpr hn) hopen
      have hstart : c.run ≠ .start := by rw [hrun]; nofun
      have hended : c.run ≠ .ended := by rw [hrun]; nofun
      rw [h]
      exact hc.message hstart hended hpayload hm run handled

end HDSConnection

namespace HDSServer

variable {C : Crypto} {reprOf : Obj → String} {ok : Label → Prop} {ms : List Bytes} {key : Bytes}
  {s s' : HDSServer}

/-- Every connection under the key has decoded the first of the payloads. -/
def Genuine (reprOf : Obj → String) (key : Bytes) (ms : List Bytes) (s : HDSServer) : Prop :=
  ∀ c ∈ s.opened, c.inKey = key → c.reader.Genuine reprOf ms

/-- Every step keeps to the payloads that were sent. -/
theorem genuine_serverStep (hsealed : hdsFraming.SealedOnly C.aead key ms)
    (h : ServerStep C reprOf ok s s') (hs : s.Genuine reprOf key ms) :
    s'.Genuine reprOf key ms := by
  cases h with
  | control | remove | add => exact hs
  | connection i c c' a hc hstep =>
      intro c₁ hc₁ hkey
      rcases List.mem_or_eq_of_mem_set hc₁ with hc₁ | rfl
      · exact hs c₁ hc₁ hkey
      · obtain ⟨-, -, hin, -⟩ := HDSConnection.step_fixed hstep
        have hkey' : c.inKey = key := hin ▸ hkey
        exact HDSConnection.genuine_readerStep (hkey' ▸ hsealed)
          (HDSConnection.step_reader hstep) (hs c (List.mem_of_getElem? hc) hkey')
  | accept t a p session payload header encrypted hfound hsession =>
      obtain ⟨-, session', n, hsession', hn, hopen⟩ := identify_eq_some hfound
      obtain rfl := Option.some.inj (hsession.symm.trans hsession')
      intro c hc hkey
      rcases List.mem_append.mp hc with hc | hc
      · exact hs c hc hkey
      · obtain rfl := List.mem_singleton.mp hc
        obtain rfl : session.controllerToAccessoryKey = key := hkey
        exact ⟨hsealed.getElem?_eq hdsFraming_lawful (toOption_eq_some.mpr hn) hopen, nofun, nofun,
          fun _ ↦ rfl, fun _ ↦ rfl, fun h ↦ (h rfl).elim⟩

/-- No two connections are made of one session. -/
theorem Opened.length_filter_le_one (hs : s.Opened) (p : Nat) :
    (s.opened.filter fun c ↦ c.session = p).length ≤ 1 := by
  have hcount := List.nodup_iff_count_le_one.mp hs.nodup p
  rwa [List.count, List.countP_map, List.countP_eq_length_filter] at hcount

/-- **At most one connection is ever made of a prepared session, and it decodes a prefix of what
the controller sent under the session's key, and dispatches nothing unless that begins with the
greeting.** -/
theorem inboundChannel (C : Crypto) (reprOf : Obj → String) (s : HDSServer)
    (h : (servers C reprOf).Reachable s) (p : Nat) (session : PreparedSession)
    (hp : s.sessions[p]? = some session) (ms : List Bytes)
    (hsealed : hdsFraming.SealedOnly C.aead session.controllerToAccessoryKey ms) :
    (s.opened.filter fun c ↦ c.session = p).length ≤ 1 ∧
      ∀ c ∈ s.opened, c.session = p →
        c.decoded.map Except.ok <+: ms.map (decodeMessage reprOf) ∧
        (c.dispatched ≠ [] →
          ∃ m, ms[0]?.map (decodeMessage reprOf) = some (.ok m) ∧ m.isHello = true) := by
  have hopened := Opened.reachable h
  obtain ⟨-, hgenuine⟩ := invariant (I := Genuine reprOf session.controllerToAccessoryKey ms)
    (fun _ h ↦ by cases h) (fun _ _ _ hstep ↦ genuine_serverStep hsealed hstep) h
  constructor
  · exact hopened.length_filter_le_one p
  · intro c hc hsession
    obtain ⟨session', hsession', -, hin⟩ := hopened.keys c hc
    rw [hsession, hp] at hsession'
    obtain rfl := Option.some.inj hsession'
    have hc := hgenuine c hc hin
    refine ⟨hc.isPrefix, fun hne ↦ ?_⟩
    cases hhello : c.hello with
    | none => exact (hne (hc.greeted hhello)).elim
    | some m =>
        obtain ⟨hm, hm'⟩ := hc.hello m hhello
        exact ⟨m, by rw [hc.first, Option.map_some]; exact congrArg some hm, hm'⟩

/-- A cipher that opens the frames of the payloads `ms` and nothing else. -/
def transcript (ms : List Bytes) : Aead where
  encrypt _ n data _ := data ++ n ++ List.replicate 4 0
  decrypt _ n data ad := (List.range ms.length).findSome? fun i ↦ ms[i]?.filter fun p ↦
    (nonce i).toOption = some n ∧ ad = frameHeader p.length ∧ data = p ++ n ++ List.replicate 4 0

theorem transcript_sealedOnly (key : Bytes) (ms : List Bytes) :
    hdsFraming.SealedOnly (transcript ms) key ms := by
  intro n data ad p h
  obtain ⟨i, -, h⟩ := List.exists_of_findSome?_eq_some h
  obtain ⟨hp, h⟩ := Option.filter_eq_some_iff.mp h
  obtain ⟨hn, had, hdata⟩ := of_decide_eq_true h
  exact ⟨i, hp, hn, had, hdata⟩

/-- The greeting and an event, sent over one connection: both are decoded, in this order. -/
theorem inboundChannel_greeting :
    let ms := [greeting, ⟨.event, .ofString "dataSend", .ofString "ack", none⟩].filterMap
      fun o ↦ o.payload.toOption
    let C : Crypto := ⟨transcript ms, fun _ _ info ↦ info⟩
    ∃ s, (servers C fun _ ↦ "").exec .new
        [.start (some 50000),
          .prepareSession ⟨"127.0.0.1", 1⟩ (.replicate 32 0) (.replicate 32 1) (.replicate 32 2),
          .connect, .feedAccept 0 ((hdsFraming.sealAll C.aead writeInfo ms).getD []),
          .resumeAccept 0, .resumeAccept 0, .connection 0 .resume, .connection 0 (.acquire 0),
          .connection 0 (.drained 0), .connection 0 .resume, .connection 0 .resume,
          .connection 0 .resume] = some s ∧
      s.opened.map (fun c ↦ c.decoded.length) = [2] ∧
      (s.opened.filter fun c ↦ c.session = 0).length ≤ 1 ∧
      ∀ c ∈ s.opened, c.session = 0 →
        c.decoded.map Except.ok <+: ms.map (decodeMessage fun _ ↦ "") ∧
        (c.dispatched ≠ [] →
          ∃ m, ms[0]?.map (decodeMessage fun _ ↦ "") = some (.ok m) ∧ m.isHello = true) := by
  intro ms C
  generalize hrun : (servers C fun _ ↦ "").exec .new _ = r
  have hr : r.map (fun s ↦ (s.opened.map (fun c ↦ c.decoded.length),
      s.sessions.map PreparedSession.controllerToAccessoryKey)) = some ([2], [writeInfo]) := by
    rw [← hrun]
    decide +kernel
  obtain ⟨s, rfl, hs⟩ := Option.map_eq_some_iff.mp hr
  obtain ⟨hopened, hkeys⟩ := Prod.mk.inj hs
  obtain ⟨session, hsession, hkey⟩ := List.map_eq_singleton_iff.mp hkeys
  exact ⟨s, rfl, hopened, inboundChannel C _ s (.exec (.init rfl) hrun) 0 session
    (by rw [hsession]; rfl) ms (hkey ▸ transcript_sealedOnly _ ms)⟩

end HDSServer

end AtvRemote.Hds
