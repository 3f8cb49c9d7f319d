import AtvRemote.Hds.Pending
import AtvRemote.Remote.Revocation
import AtvRemote.Remote.TargetList
import AtvRemote.Tlv8.RoundTrip

/-!
# Setting up a data stream

A controller writes its salt to `SetupDataStreamTransport` and reads of the response the port
and the salt of the accessory; both ends derive the keys of the stream from the two salts and
the secret of the HAP connection.  Every data stream connection stems from one such write, no
two from the same, and has the keys that the controller derived (`setup_agreement`).
-/

namespace AtvRemote.Remote

open Lib Hds

/-! ## The other end -/

/-- What a controller writes. -/
def setupRequest (controllerSalt : Bytes) : Except PyErr PyStr := do
  let data ← Tlv8.encode [(hdsSessionCommandType, .int hdsStartSession.toNat),
    (hdsSessionTransportType, .int hdsHomekitDataStream.toNat),
    (hdsControllerKeySalt, .bytes .bytes controllerSalt)]
  return (Base64.encode data).map .char

/-- What a controller reads of the response: the port, and the salt of the accessory. -/
def readSetup (response : PyStr) : Except PyErr (Int × Bytes) := do
  let data ← Tlv8.decode (← decodeB64 response "SetupDataStreamTransport")
  let status ← oneByte data hdsSetupStatus "HDS setup status"
  if status ≠ 0 then throw (.valueError "HDS setup failed")
  else
    let parameters ← Tlv8.decode
      (← required data hdsSetupSessionParameters "HDS session parameters")
    let port ← Tlv8.readU16 (← required parameters hdsTcpListeningPort "HDS port")
    let accessorySalt ← required data hdsAccessoryKeySalt "accessory HDS salt"
    return (port, accessorySalt)

/-! ## What is written is read -/

/-- The bytes of several entries of distinct types. -/
theorem decode_of_normalize (entries : List (UInt8 × Obj)) (values : List (UInt8 × Bytes))
    (h : Tlv8.normalizeEntries entries = .ok values) (hdistinct : (values.map Prod.fst).Nodup) :
    ∃ data, Tlv8.encode entries = .ok data ∧ Tlv8.decode data = .ok (Dict.ofItems values) := by
  refine ⟨_, ?_, Tlv8.decode_item hdistinct⟩
  rw [Tlv8.encode_eq, h]
  rfl

/-- Bytes of entries one after the other are those of all of them. -/
theorem encode_append {entries entries' : List (UInt8 × Obj)} {data data' : Bytes}
    (h : Tlv8.encode entries = .ok data) (h' : Tlv8.encode entries' = .ok data') :
    Tlv8.encode (entries ++ entries') = .ok (data ++ data') := by
  obtain ⟨parts, hparts, hdata⟩ := bind_eq_ok.mp h
  obtain ⟨parts', hparts', hdata'⟩ := bind_eq_ok.mp h'
  obtain rfl : parts.flatten = data := Except.ok.inj hdata
  obtain rfl : parts'.flatten = data' := Except.ok.inj hdata'
  rw [Tlv8.encode, List.mapM_append, hparts, bind_ok, hparts', bind_ok, ← List.flatten_append]
  rfl

theorem required_of_get {mapping : Dict UInt8 Bytes} {tag : UInt8} {value : Bytes}
    (h : mapping.get tag = some value) (hne : value ≠ []) (label : String) :
    required mapping tag label = .ok value := by
  cases value with
  | nil => exact absurd rfl hne
  | cons => rw [required, h]

theorem oneByte_of_get {mapping : Dict UInt8 Bytes} {tag byte : UInt8}
    (h : mapping.get tag = some [byte]) (label : String) :
    oneByte mapping tag label = .ok byte := by
  rw [oneByte, required_of_get h (List.cons_ne_nil _ _)]
  rfl

/-- The accessory reads the salt that the controller wrote. -/
theorem parseSetup_setupRequest {controllerSalt : Bytes} (h : controllerSalt.length = 32) :
    ∃ value, setupRequest controllerSalt = .ok value ∧
      Network.parseSetup value = .ok controllerSalt := by
  have hdistinct :
      [hdsSessionCommandType, hdsSessionTransportType, hdsControllerKeySalt].Nodup := by decide
  obtain ⟨data, hencode, hdecode⟩ := decode_of_normalize
    [(hdsSessionCommandType, .int hdsStartSession.toNat),
      (hdsSessionTransportType, .int hdsHomekitDataStream.toNat),
      (hdsControllerKeySalt, .bytes .bytes controllerSalt)]
    [(hdsSessionCommandType, [hdsStartSession]), (hdsSessionTransportType, [hdsHomekitDataStream]),
      (hdsControllerKeySalt, controllerSalt)] rfl hdistinct
  have hne : controllerSalt ≠ [] := by
    rintro rfl
    cases h
  refine ⟨_, by rw [setupRequest, hencode]; rfl, ?_⟩
  have hget : ∀ tag, (Dict.ofItems [(hdsSessionCommandType, [hdsStartSession]),
      (hdsSessionTransportType, [hdsHomekitDataStream]),
      (hdsControllerKeySalt, controllerSalt)]).get tag = _ := Dict.get_ofItems hdistinct
  rw [Network.parseSetup, decodeB64_encode, bind_ok, hdecode, bind_ok,
    oneByte_of_get (hget hdsSessionCommandType), bind_ok,
    oneByte_of_get (hget hdsSessionTransportType), bind_ok, if_neg (not_not.mpr rfl),
    if_neg (not_not.mpr rfl), required_of_get (hget hdsControllerKeySalt) hne, bind_ok,
    if_neg (not_not.mpr h)]
  rfl

theorem readU16_u16 {n : Int} {b : Bytes} (h : Tlv8.u16 n = .ok b) :
    Tlv8.readU16 b = .ok n := by
  rw [Tlv8.u16] at h
  split at h
  · cases h
  · next hnonneg =>
    split at h
    · next hlt =>
      cases h
      have hsmall : n.toNat < 256 ^ 2 := by omega
      rw [Tlv8.readU16, length_toLE, if_neg (not_not.mpr rfl), ofLE_toLE hsmall,
        Int.toNat_of_nonneg (Int.not_lt.mp hnonneg)]
    · cases h

/-- The controller reads the port and the salt that the accessory has written. -/
theorem readSetup_setupResponse {accessorySalt : Bytes} (hne : accessorySalt ≠ [])
    {prepared : Except PyErr Nat} {port : Option Nat} {stripped response : PyStr}
    (h : Network.setupResponse accessorySalt prepared port = .ok (stripped, response)) :
    ∃ p : Nat, port = some p ∧ readSetup response = .ok (p, accessorySalt) := by
  obtain ⟨_, -, h⟩ := bind_eq_ok.mp h
  cases port with
  | none => cases h
  | some p =>
      refine ⟨p, rfl, ?_⟩
      obtain ⟨portBytes, hport, h⟩ := bind_eq_ok.mp h
      obtain ⟨sessionParams, hparams, h⟩ := bind_eq_ok.mp h
      obtain ⟨status, hstatus, h⟩ := bind_eq_ok.mp h
      obtain ⟨parameters, hparameters, h⟩ := bind_eq_ok.mp h
      obtain ⟨salt, hsalt, h⟩ := bind_eq_ok.mp h
      obtain ⟨rfl, rfl⟩ := Prod.mk.inj (Except.ok.inj h)
      -- the session parameters are an entry of their own
      have hparamsRead : Tlv8.decode sessionParams =
          .ok (Dict.ofItems [(hdsTcpListeningPort, portBytes)]) := by
        obtain ⟨data, hencode, hdecode⟩ := decode_of_normalize
          [(hdsTcpListeningPort, .bytes .bytes portBytes)] [(hdsTcpListeningPort, portBytes)] rfl
          (List.nodup_singleton _)
        rwa [Except.ok.inj (hparams.symm.trans hencode)]
      have hport' : (Dict.ofItems [(hdsTcpListeningPort, portBytes)]).get hdsTcpListeningPort =
          some portBytes := rfl
      have hparamsNe : sessionParams ≠ [] := by
        rintro rfl
        have hempty : Dict.empty = Dict.ofItems [(hdsTcpListeningPort, portBytes)] :=
          Except.ok.inj hparamsRead
        rw [← hempty] at hport'
        cases hport'
      have hportNe : portBytes ≠ [] := by
        rintro rfl
        cases readU16_u16 hport
      have hdistinct : [hdsSetupStatus, hdsSetupSessionParameters, hdsAccessoryKeySalt].Nodup := by
        decide
      obtain ⟨data, hencode, hdecode⟩ := decode_of_normalize
        [(hdsSetupStatus, .int 0), (hdsSetupSessionParameters, .bytes .bytes sessionParams),
          (hdsAccessoryKeySalt, .bytes .bytes accessorySalt)]
        [(hdsSetupStatus, [0]), (hdsSetupSessionParameters, sessionParams),
          (hdsAccessoryKeySalt, accessorySalt)] rfl hdistinct
      have hall : Tlv8.encode _ = .ok (status ++ parameters ++ salt) :=
        encode_append (encode_append hstatus hparameters) hsalt
      rw [← Except.ok.inj (hall.symm.trans hencode)] at hdecode
      have hget : ∀ tag, (Dict.ofItems [(hdsSetupStatus, [0]),
          (hdsSetupSessionParameters, sessionParams),
          (hdsAccessoryKeySalt, accessorySalt)]).get tag = _ := Dict.get_ofItems hdistinct
      rw [readSetup, decodeB64_encode, bind_ok, hdecode, bind_ok,
        oneByte_of_get (hget hdsSetupStatus), bind_ok, if_neg (not_not.mpr rfl),
        required_of_get (hget hdsSetupSessionParameters) hparamsNe, bind_ok, hparamsRead, bind_ok,
        required_of_get hport' hportNe, bind_ok, readU16_u16 hport, bind_ok,
        required_of_get (hget hdsAccessoryKeySalt) hne, bind_ok]
      rfl

end AtvRemote.Remote

/-! ## Where the sessions of a server stem from -/

namespace AtvRemote.Hds.HDSServer

open Lib Remote

variable {C : Crypto} {reprOf : Obj → String} {ok : Label → Prop} {s₀ s s' : HDSServer}

/-- The session at a place, but for its timer. -/
def Had (s : HDSServer) (p : Nat) (session : PreparedSession) : Prop :=
  ∃ old, s.sessions[p]? = some old ∧ session = { old with timeout := session.timeout }

/-- The sessions of a server are those of another one, but for their timers. -/
def Stems (s₀ s : HDSServer) : Prop :=
  ∀ (p : Nat) (session : PreparedSession), s.sessions[p]? = some session → s₀.Had p session

theorem Stems.refl (s : HDSServer) : s.Stems s := fun _ session h ↦ ⟨session, h, rfl⟩

theorem Stems.of_sessions (hs : s₀.Stems s) (h : s'.sessions = s.sessions) : s₀.Stems s' :=
  fun p session hp ↦ hs p session (h ▸ hp)

theorem Stems.withoutSession (hs : s₀.Stems s) (p : Nat) : s₀.Stems (s.withoutSession p) := by
  intro q session hsession
  rw [HDSServer.withoutSession, getElem?_modify_timeout] at hsession
  split at hsession
  · obtain ⟨middle, hmiddle, rfl⟩ := Option.map_eq_some_iff.mp hsession
    obtain ⟨old, hold, heq⟩ := hs q middle hmiddle
    exact ⟨old, hold, by rw [heq]⟩
  · exact hs q session hsession

/-- Where no session is prepared, the sessions stay. -/
theorem Stems.serverStep (hno : ∀ client sharedSecret controllerSalt accessorySalt,
    ¬ok (.prepareSession client sharedSecret controllerSalt accessorySalt)) (htable : s.Table)
    (h : ServerStep C reprOf ok s s') (hs : s₀.Stems s) : s₀.Stems s' := by
  cases h with
  | control | connection => exact hs
  | remove p => exact hs.withoutSession p
  | add client sharedSecret controllerSalt accessorySalt hok => exact (hno _ _ _ _ hok).elim
  | accept t a p session payload header encrypted _ _ =>
      rw [openConnection, htable.removePrepared_eq]
      exact hs.withoutSession p

/-- Removals leave the sessions, and the port. -/
theorem Stems.removals (hs : s₀.Stems s) (htable : s.Table) (ps : List Nat) :
    s₀.Stems (ps.foldl removePrepared s) ∧ (ps.foldl removePrepared s).port = s.port := by
  induction ps generalizing s with
  | nil => exact ⟨hs, rfl⟩
  | cons p ps ih =>
      rw [List.foldl_cons, htable.removePrepared_eq]
      exact ih (hs.withoutSession p) (htable.withoutSession p)

/-- A new session of a client. -/
def freshSession (hkdf : Bytes → Bytes → Bytes → Bytes) (client : ClientAddr)
    (sharedSecret controllerSalt accessorySalt : Bytes) (timeout : Option Nat) : PreparedSession :=
  ⟨client, hkdf sharedSecret (controllerSalt ++ accessorySalt) readInfo,
    hkdf sharedSecret (controllerSalt ++ accessorySalt) writeInfo, accessorySalt, timeout⟩

/-- A server that returns a session listens. -/
theorem isSome_port_of_prepareSession {hkdf : Bytes → Bytes → Bytes → Bytes} {client : ClientAddr}
    {sharedSecret controllerSalt accessorySalt : Bytes} {p : Nat}
    (h : (s.prepareSession hkdf client sharedSecret controllerSalt accessorySalt).1 = .ok p) :
    s.port.isSome = true := by
  rw [HDSServer.prepareSession] at h
  split at h
  · cases h
  · next hport => rwa [Bool.not_eq_true, Option.isNone_eq_false_iff] at hport

/-- The session that `prepare_session` makes is the one more. -/
theorem Table.sessions_addSession (hs : s.Table) (hkdf : Bytes → Bytes → Bytes → Bytes)
    (client : ClientAddr) (sharedSecret controllerSalt accessorySalt : Bytes) (p : Nat)
    (session : PreparedSession)
    (hsession : ((s.removeForClient client).addSession hkdf client sharedSecret controllerSalt
      accessorySalt).sessions[p]? = some session) :
    s.Had p session ∨ p = s.sessions.length ∧ session =
      freshSession hkdf client sharedSecret controllerSalt accessorySalt session.timeout := by
  rcases getElem?_concat_eq_some.mp hsession with hold | ⟨rfl, rfl⟩
  · exact .inl (((Stems.refl s).removals hs _).1 p session hold)
  · exact .inr ⟨hs.length_removals _, rfl⟩

end AtvRemote.Hds.HDSServer

/-! ## Every connection stems from a setup -/

namespace AtvRemote.Remote

open Lib Audio Hds Hds.HDSServer

section

variable {ε : Type} {json : JsonText} {opus : OpusEncoder ε} {C : Crypto} {reprOf : Obj → String}
  {n n' : Network ε json.Text}

/-- In this step the client of a session sets it up: it is returned a response of which it
reads the port and the accessory's salt, and both derive the same keys. -/
def SetsUp (C : Crypto) (n : Network ε json.Text) (a : Network.Label) (session : PreparedSession) :
    Prop :=
  ∃ value sharedSecret controllerSalt response, ∃ port : Nat,
    a = .setupHds value (some session.clientAddr) (some sharedSecret) session.accessorySalt ∧
    Network.parseSetup value = .ok controllerSalt ∧
    (n.hapSetupHdsWrite json C value (some session.clientAddr) (some sharedSecret)
      session.accessorySalt).1 = .ok response ∧
    n.server.port = some port ∧ readSetup response = .ok (port, session.accessorySalt) ∧
    session.accessoryToControllerKey =
      C.hkdf sharedSecret (controllerSalt ++ session.accessorySalt) readInfo ∧
    session.controllerToAccessoryKey =
      C.hkdf sharedSecret (controllerSalt ++ session.accessorySalt) writeInfo

/-- The response is made when the port is one. -/
theorem setupResponse_isOk (accessorySalt : Bytes) (p : Nat) {port : Nat} (hport : port < 2 ^ 16) :
    ∃ r, Network.setupResponse accessorySalt (.ok p) (some port) = .ok r := by
  have hentry : ∀ (tag : UInt8) (b : Bytes), ∃ data,
      Tlv8.encode [(tag, .bytes .bytes b)] = .ok data := by
    intro tag b
    obtain ⟨data, hdata, -⟩ := decode_of_normalize [(tag, .bytes .bytes b)] [(tag, b)] rfl
      (List.nodup_singleton _)
    exact ⟨data, hdata⟩
  obtain ⟨status, hstatus, -⟩ := decode_of_normalize [(hdsSetupStatus, .int 0)]
    [(hdsSetupStatus, [0])] rfl (List.nodup_singleton _)
  obtain ⟨sessionParams, hparams⟩ := hentry hdsTcpListeningPort (toLE 2 port)
  obtain ⟨parameters, hparameters⟩ := hentry hdsSetupSessionParameters sessionParams
  obtain ⟨salt, hsalt⟩ := hentry hdsAccessoryKeySalt accessorySalt
  have hu16 : Tlv8.u16 port = .ok (toLE 2 port) := Tlv8.u16_ok ⟨by omega, by omega⟩
  refine ⟨((Base64.encode (status ++ parameters)).map .char,
    (Base64.encode (status ++ parameters ++ salt)).map .char), ?_⟩
  rw [Network.setupResponse, bind_ok]
  simp only [hu16, bind_ok, hparams, hstatus, hparameters, hsalt]
  rfl

/-- `hap_setup_hds_write` sets up one session, or none. -/
theorem stems_hapSetupHdsWrite (hn : n.Linked)
    (hport : ∀ port, n.server.port = some port → port < 2 ^ 16) (value : PyStr)
    (client : Option ClientAddr) (sharedSecret : Option Bytes) {accessorySalt : Bytes}
    (hsalt : accessorySalt.length = 32) (p : Nat) (session : PreparedSession)
    (hp : (n.hapSetupHdsWrite json C value client sharedSecret
      accessorySalt).2.server.sessions[p]? = some session) :
    n.server.Had p session ∨ p = n.server.sessions.length ∧
      SetsUp C n (.setupHds value client sharedSecret accessorySalt) session := by
  have hsame : n.server.sessions[p]? = some session → n.server.Had p session :=
    Stems.refl n.server p session
  cases client with
  | none => exact .inl (hsame hp)
  | some client =>
      generalize hw : n.hapSetupHdsWrite json C value (some client) sharedSecret accessorySalt = w
        at hp
      have hwrite := hw
      rw [Network.hapSetupHdsWrite] at hwrite
      split at hwrite
      · rw [← hwrite] at hp
        exact .inl (hsame hp)
      · next controllerSalt hvalue =>
        split at hwrite
        · rw [← hwrite] at hp
          exact .inl (hsame hp)
        · split at hwrite
          · rw [← hwrite] at hp
            exact .inl (hsame hp)
          · next hsecret =>
            obtain ⟨secret, rfl⟩ : ∃ secret, sharedSecret = some secret := by
              cases sharedSecret with
              | none => exact absurd rfl hsecret
              | some secret => exact ⟨secret, rfl⟩
            rw [← hwrite] at hp
            have hport' : n.server.port = ((n.server.removeForClient client).addSession C.hkdf
                client secret controllerSalt accessorySalt).port :=
              ((Stems.refl n.server).removals hn.table _).2.symm
            rcases hn.table.prepareSession_cases C.hkdf client secret controllerSalt
              accessorySalt with ⟨e, heq⟩ | heq
            · rw [Option.getD_some, heq] at hp
              exact .inl (hsame hp)
            · rw [Option.getD_some, heq] at hp
              refine (hn.table.sessions_addSession C.hkdf client secret controllerSalt
                accessorySalt p session hp).imp_right ?_
              rintro ⟨rfl, hfresh⟩
              refine ⟨rfl, ?_⟩
              obtain ⟨port, hsome⟩ := Option.isSome_iff_exists.mp
                (isSome_port_of_prepareSession (congrArg Prod.fst heq))
              obtain ⟨⟨stripped, response⟩, hresponse⟩ :=
                setupResponse_isOk accessorySalt n.server.sessions.length (hport port hsome)
              have hne : accessorySalt ≠ [] := by
                rintro rfl
                cases hsalt
              obtain ⟨_, hsome', hread⟩ := readSetup_setupResponse hne hresponse
              cases hsome'
              rw [hfresh]
              refine ⟨value, secret, controllerSalt, response, port, rfl, hvalue, ?_, hsome, hread,
                rfl, rfl⟩
              show (n.hapSetupHdsWrite json C value (some client) (some secret) accessorySalt).1 = _
              rw [hw, ← hwrite]
              show (Network.setupResponse _ _ _).map Prod.snd = _
              rw [Option.getD_some, heq, ← hport', hsome, hresponse]
              rfl

/-- A step leaves the sessions, and may set up one more. -/
theorem stems_step (hn : n.Linked) (hport : ∀ port, n.server.port = some port → port < 2 ^ 16)
    {a : Network.Label} (h : n.step json opus C reprOf a = some n') (p : Nat)
    (session : PreparedSession) (hp : n'.server.sessions[p]? = some session) :
    n.server.Had p session ∨ p = n.server.sessions.length ∧ SetsUp C n a session := by
  have hquiet : (∀ client sharedSecret controllerSalt accessorySalt,
      ¬Network.Allows a (.prepareSession client sharedSecret controllerSalt accessorySalt)) →
      n.server.Had p session := fun hno ↦
    (steps_invariant (I := n.server.Stems) (fun _ _ htable h hs ↦ hs.serverStep hno htable h)
      (Network.steps_step h hn) hn.table (.refl n.server)).2 p session hp
  cases a with
  | setupHds value client sharedSecret accessorySalt =>
      rw [Network.step] at h
      split at h
      · next hsalt =>
        cases h
        exact stems_hapSetupHdsWrite hn hport value client sharedSecret hsalt p session hp
      · cases h
  | remote | server | hapConnectionLost => exact .inl (hquiet fun _ _ _ _ ↦ id)

/-- In a run, the client of a session has set it up. -/
def SetUp (C : Crypto) (hist : List (Network ε json.Text × Network.Label)) (p : Nat)
    (session : PreparedSession) : Prop :=
  ∃ (k : Nat) (n₀ : Network ε json.Text) (a : Network.Label),
    hist[k]? = some (n₀, a) ∧ n₀.server.sessions.length = p ∧ SetsUp C n₀ a session

/-- Every session of a server has been set up. -/
theorem setUp_of_run {file : Option json.Text}
    {hist : List (Network ε json.Text × Network.Label)}
    (hrun : (networks json opus C reprOf file).Run hist n)
    (hports : ∀ q ∈ hist, ∀ port, q.1.server.port = some port → port < 2 ^ 16) :
    ∀ (p : Nat) (session : PreparedSession), n.server.sessions[p]? = some session →
      SetUp C hist p session := by
  induction hrun with
  | init h =>
      cases h
      intro p session hp
      cases hp
  | @step hist n n' a hrun hstep ih =>
      obtain ⟨hhist, hlast⟩ := List.forall_mem_append.mp hports
      have hport := List.forall_mem_singleton.mp hlast
      intro p session hp
      rcases stems_step (Network.linked hrun.reachable) hport hstep p session hp with
        ⟨old, hold, heq⟩ | ⟨rfl, hsets⟩
      · obtain ⟨k, n₀, b, hk, hlength, hsets⟩ := ih hhist p old hold
        refine ⟨k, n₀, b, getElem?_concat_of_eq_some hk, hlength, ?_⟩
        rw [heq]
        exact hsets
      · exact ⟨hist.length, n, a, getElem?_concat_length _, rfl, hsets⟩

end

/-- **Every data stream connection stems from a setup of its own: a client wrote its salt, and
was returned a response by which it derives the keys of the connection.** -/
theorem setup_agreement {ε : Type} (json : JsonText) (opus : OpusEncoder ε) (C : Crypto)
    (reprOf : Obj → String) (file : Option json.Text)
    (hist : List (Network ε json.Text × Network.Label)) (n : Network ε json.Text)
    (hrun : (networks json opus C reprOf file).Run hist n)
    (hports : ∀ q ∈ hist, ∀ port, q.1.server.port = some port → port < 2 ^ 16) :
    ∃ origin : Nat → Nat,
      (∀ i j, i < n.server.opened.length → j < n.server.opened.length → origin i = origin j →
        i = j) ∧
      ∀ (i : Nat) (c : HDSConnection), n.server.opened[i]? = some c →
        ∃ (n₀ : Network ε json.Text) (a : Network.Label) (session : PreparedSession),
        hist[origin i]? = some (n₀, a) ∧ SetsUp C n₀ a session ∧
        n.server.connectionAddr? i = some session.clientAddr ∧
        c.outKey = session.accessoryToControllerKey ∧
        c.inKey = session.controllerToAccessoryKey := by
  have hn := Network.linked hrun.reachable
  have hall : ∀ i : Nat, ∃ k : Nat, ∀ c : HDSConnection, n.server.opened[i]? = some c →
      ∃ (n₀ : Network ε json.Text) (a : Network.Label) (session : PreparedSession),
      n.server.sessions[c.session]? = some session ∧ hist[k]? = some (n₀, a) ∧
      n₀.server.sessions.length = c.session ∧ SetsUp C n₀ a session ∧
      c.outKey = session.accessoryToControllerKey ∧
      c.inKey = session.controllerToAccessoryKey := by
    intro i
    cases hi : n.server.opened[i]? with
    | none => exact ⟨0, by rintro c ⟨⟩⟩
    | some c =>
        obtain ⟨session, hsession, hout, hin⟩ := hn.opened.keys c (List.mem_of_getElem? hi)
        obtain ⟨k, n₀, a, hk, hlength, hsets⟩ := setUp_of_run hrun hports c.session session hsession
        refine ⟨k, ?_⟩
        rintro _ ⟨⟩
        exact ⟨n₀, a, session, hsession, hk, hlength, hsets, hout, hin⟩
  choose origin horigin using hall
  refine ⟨origin, fun i j hi hj heq ↦ ?_, fun i c hi ↦ ?_⟩
  · have hci := List.getElem?_eq_getElem hi
    have hcj := List.getElem?_eq_getElem hj
    obtain ⟨n₀, a, -, -, hk, hlength, -⟩ := horigin i _ hci
    obtain ⟨n₁, b, -, -, hk', hlength', -⟩ := horigin j _ hcj
    rw [heq, hk'] at hk
    cases hk
    -- two connections of one setup would be of one session
    refine (List.getElem?_inj ?_ hn.opened.nodup).mp ?_
    · rwa [List.length_map]
    · rw [List.getElem?_map, List.getElem?_map, hci, hcj, Option.map_some, Option.map_some,
        ← hlength, ← hlength']
  · obtain ⟨n₀, a, session, hsession, hk, -, hsets, hout, hin⟩ := horigin i c hi
    refine ⟨n₀, a, session, hk, hsets, ?_, hout, hin⟩
    rw [connectionAddr?, hi, Option.bind_some, clientAddr?, hsession, Option.map_some]

/-- The connection of a hub that speaks stems from its setup. -/
theorem setup_agreement_speaking :
    let hub : ClientAddr := ⟨"hub", 1⟩
    let C : Crypto := ⟨plain, fun _ salt info ↦ salt ++ info⟩
    ∃ (n n₀ : Network Unit JsonText.documents.Text) (a : Network.Label)
      (c : HDSConnection) (session : PreparedSession),
      (networks .documents .verbatim C (fun _ ↦ "") none).exec (.new .documents none)
        (speaking hub) = some n ∧
      n.server.opened = [c] ∧ session.clientAddr = hub ∧
      SetsUp C n₀ a session ∧
      c.outKey = session.accessoryToControllerKey ∧
      c.inKey = session.controllerToAccessoryKey := by
  intro hub C
  generalize hrun : (networks .documents .verbatim C (fun _ ↦ "") none).exec (.new .documents none)
    (speaking hub) = r
  have hr : r.map (fun n ↦ (n.server.opened.length, n.server.connectionAddr? 0)) =
      some (1, some hub) := by
    rw [← hrun]
    decide +kernel
  have hports : ((networks .documents .verbatim C (fun _ ↦ "") none).trace (.new .documents none)
      (speaking hub)).all (fun q ↦ q.1.server.port.all (· < 2 ^ 16)) = true := by
    decide +kernel
  obtain ⟨n, rfl, hn⟩ := Option.map_eq_some_iff.mp hr
  obtain ⟨hlength, haddr⟩ := Prod.mk.inj hn
  obtain ⟨c, hc⟩ := List.length_eq_one_iff.mp hlength
  have hinit : (networks .documents .verbatim C (fun _ ↦ "") none).Run [] (.new .documents none) :=
    .init rfl
  obtain ⟨origin, -, hall⟩ := setup_agreement _ _ C _ none _ n (hinit.exec hrun) (by
    intro q hq port hport
    have hq := List.all_eq_true.mp hports q hq
    rw [hport] at hq
    simpa using hq)
  obtain ⟨n₀, a, session, -, hsets, haddr', hout, hin⟩ := hall 0 c (by rw [hc]; rfl)
  rw [haddr] at haddr'
  exact ⟨n, n₀, a, c, session, rfl, hc, (Option.some.inj haddr').symm, hsets, hout, hin⟩

end AtvRemote.Remote
