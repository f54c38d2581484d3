import FrpMeo.Wire.Frame

/-!
# The hello exchange of a v2 connection

Before the login of a v2 connection the client lists its AEAD algorithms, and the server selects one
(`pkg/proto/wire/crypto.go`). Both sides hash the two payloads and derive a key for each direction
(`pkg/util/net/conn.go`). Cryptography and JSON are parameters (`Go`).
-/

namespace FrpMeo.Wire.Crypto

open Lib

/-! ## The transcript -/

def cryptoTranscriptLabel : Bytes := Bytes.ascii "frp wire v2 crypto transcript"

def cryptoTranscriptPart (label payload : Bytes) : Bytes :=
  0 :: label ++ 0 :: BigEndian.put 8 payload.length ++ payload

def cryptoTranscript (clientHelloPayload serverHelloPayload : Bytes) : Bytes :=
  cryptoTranscriptLabel ++ cryptoTranscriptPart (Bytes.ascii "client hello") clientHelloPayload ++
    cryptoTranscriptPart (Bytes.ascii "server hello") serverHelloPayload

theorem cryptoTranscriptPart_inj {label payload payload' rest rest' : Bytes}
    (hlen : payload.length < 2 ^ 64) (hlen' : payload'.length < 2 ^ 64)
    (h : cryptoTranscriptPart label payload ++ rest =
      cryptoTranscriptPart label payload' ++ rest') : payload = payload' ∧ rest = rest' := by
  simp only [cryptoTranscriptPart, List.cons_append, List.append_assoc, List.cons.injEq,
    List.append_cancel_left_eq, true_and] at h
  obtain ⟨hsize, htail⟩ := List.append_inj h (by simp)
  have hlength : payload.length = payload'.length := BigEndian.put_inj hlen hlen' hsize
  exact List.append_inj htail hlength

/-- Whoever changes a byte of a hello, or moves bytes between the two, changes what is hashed. -/
theorem cryptoTranscript_inj (clientHello serverHello clientHello' serverHello' : Bytes)
    (hclient : clientHello.length < 2 ^ 64) (hserver : serverHello.length < 2 ^ 64)
    (hclient' : clientHello'.length < 2 ^ 64) (hserver' : serverHello'.length < 2 ^ 64) :
    cryptoTranscript clientHello serverHello = cryptoTranscript clientHello' serverHello' ↔
      clientHello = clientHello' ∧ serverHello = serverHello' := by
  constructor
  · intro h
    simp only [cryptoTranscript, List.append_assoc, List.append_cancel_left_eq] at h
    obtain ⟨hc, hrest⟩ := cryptoTranscriptPart_inj hclient hclient' h
    -- the second part is the last one
    rw [← List.append_nil (cryptoTranscriptPart _ serverHello),
      ← List.append_nil (cryptoTranscriptPart _ serverHello')] at hrest
    obtain ⟨hs, -⟩ := cryptoTranscriptPart_inj hserver hserver' hrest
    exact ⟨hc, hs⟩
  · rintro ⟨rfl, rfl⟩
    rfl

/-- The byte `1` has moved from the server hello to the client hello. -/
theorem cryptoTranscript_inj_moved : cryptoTranscript [1] [] ≠ cryptoTranscript [] [1] := by
  intro h
  have hparts := (cryptoTranscript_inj [1] [] [] [1] (by decide) (by decide) (by decide)
    (by decide)).1 h
  exact absurd hparts.1 (by decide)

/-! ## Hellos -/

structure BootstrapInfo where
  transport : String
  tls : Bool
  tcpMux : Bool
  deriving DecidableEq

structure CryptoCapabilities where
  algorithms : List String
  clientRandom : Bytes
  deriving DecidableEq

structure ClientHello where
  bootstrap : BootstrapInfo
  codecs : List String
  crypto : CryptoCapabilities
  deriving DecidableEq

structure CryptoSelection where
  algorithm : String
  serverRandom : Bytes
  deriving DecidableEq

structure ServerHello where
  codec : String
  crypto : CryptoSelection
  error : String
  deriving DecidableEq

def messageCodecJSON : String := "json"

def cryptoRandomSize : Nat := 32

def aeadAlgorithmAES256GCM : String := "aes-256-gcm"

def aeadAlgorithmXChaCha20Poly1305 : String := "xchacha20-poly1305"

def supportedAEADAlgorithms : List String :=
  [aeadAlgorithmAES256GCM, aeadAlgorithmXChaCha20Poly1305]

def supports (list : List String) (value : String) : Bool := list.contains value

def isSupportedAEADAlgorithm (algorithm : String) : Bool :=
  supports supportedAEADAlgorithms algorithm

def selectAEADAlgorithm : List String → Option String
  | [] => none
  | algorithm :: algorithms =>
      if isSupportedAEADAlgorithm algorithm then some algorithm else selectAEADAlgorithm algorithms

def validateCryptoCapabilities (c : CryptoCapabilities) : Except String Unit :=
  if c.clientRandom.length ≠ cryptoRandomSize then
    .error s!"invalid crypto client random length {c.clientRandom.length}, want {cryptoRandomSize}"
  else
    match selectAEADAlgorithm c.algorithms with
    | none => .error "no supported crypto algorithm"
    | some _ => .ok ()

def validateClientHello (h : ClientHello) : Except String Unit :=
  if supports h.codecs messageCodecJSON then validateCryptoCapabilities h.crypto
  else .error "unsupported message codec"

/-- `newCryptoRandom`: `rand.Read` fills a buffer of this size or fails. -/
abbrev CryptoRandom := Except String (List.Vector UInt8 cryptoRandomSize)

def newServerHello (random : CryptoRandom) (clientHello : ClientHello) :
    Except String ServerHello :=
  match validateClientHello clientHello with
  | .error err => .error err
  | .ok () =>
      match selectAEADAlgorithm clientHello.crypto.algorithms with
      | none => .error "no supported crypto algorithm"
      | some algorithm =>
          match random with
          | .error err => .error s!"generate crypto random: {err}"
          | .ok serverRandom => .ok ⟨messageCodecJSON, ⟨algorithm, serverRandom.toList⟩, ""⟩

def defaultServerHello : ServerHello := ⟨messageCodecJSON, ⟨"", []⟩, ""⟩

def validateServerHelloForClient (clientHello : ClientHello) (serverHello : ServerHello) :
    Except String Unit :=
  let selection := serverHello.crypto
  if serverHello.codec ≠ messageCodecJSON then
    .error s!"unsupported selected message codec: {serverHello.codec}"
  else if ¬ isSupportedAEADAlgorithm selection.algorithm then
    .error s!"unknown selected crypto algorithm: {selection.algorithm}"
  else if ¬ supports clientHello.crypto.algorithms selection.algorithm then
    .error s!"selected crypto algorithm was not advertised by client: {selection.algorithm}"
  else if selection.serverRandom.length ≠ cryptoRandomSize then
    .error ("invalid crypto server random length " ++
      s!"{selection.serverRandom.length}, want {cryptoRandomSize}")
  else .ok ()

/-! ## Contexts and keys -/

/-- Packages that are not part of the repository. `hkdf` is what is read from `hkdf.New`. -/
structure Go where
  sha256 : Bytes → Bytes
  hkdf : (secret salt : Bytes) → (info : String) → Except String Bytes
  marshalServerHello : ServerHello → Except String Bytes
  unmarshalClientHello : Bytes → Except String ClientHello
  unmarshalServerHello : Bytes → Except String ServerHello
  newAEADStreamReader : (algorithm : String) → (key : Bytes) → Except String Unit
  newAEADStreamWriter : (algorithm : String) → (key : Bytes) → Except String Unit

def Go.RoundTrip (go : Go) : Prop :=
  ∀ serverHello text, go.marshalServerHello serverHello = .ok text →
    go.unmarshalServerHello text = .ok serverHello

structure CryptoContext where
  algorithm : String
  transcriptHash : Bytes
  deriving DecidableEq

inductive AEADCryptoRole where
  | client
  | server

def AEADCryptoRole.keys (clientToServerKey serverToClientKey : Bytes) :
    AEADCryptoRole → Bytes × Bytes
  | .client => (serverToClientKey, clientToServerKey)
  | .server => (clientToServerKey, serverToClientKey)

structure AEADReadWriter where
  algorithm : String
  readKey : Bytes
  writeKey : Bytes

def aeadControlHKDFInfoPrefix : String := "frp wire v2 control aead"

def aeadDirectionClientToServer : String := "client-to-server"

def aeadDirectionServerToClient : String := "server-to-client"

def aeadControlInfo (algorithm direction : String) : String :=
  aeadControlHKDFInfoPrefix ++ " " ++ algorithm ++ " " ++ direction

namespace Go

variable (go : Go)

def hashCryptoTranscript (clientHelloPayload serverHelloPayload : Bytes) : Bytes :=
  go.sha256 (cryptoTranscript clientHelloPayload serverHelloPayload)

def newCryptoContext (algorithm : String) (clientHelloPayload serverHelloPayload : Bytes) :
    CryptoContext :=
  ⟨algorithm, go.hashCryptoTranscript clientHelloPayload serverHelloPayload⟩

def newClientCryptoContext (clientHelloPayload serverHelloPayload : Bytes) :
    Except String CryptoContext :=
  match go.unmarshalClientHello clientHelloPayload with
  | .error err => .error s!"decode ClientHello transcript: {err}"
  | .ok clientHello =>
      match go.unmarshalServerHello serverHelloPayload with
      | .error err => .error s!"decode ServerHello transcript: {err}"
      | .ok serverHello =>
          match validateServerHelloForClient clientHello serverHello with
          | .error err => .error err
          | .ok () =>
              .ok (go.newCryptoContext serverHello.crypto.algorithm clientHelloPayload
                serverHelloPayload)

def deriveAEADControlKey (key : Bytes) (algorithm : String) (transcriptHash : Bytes)
    (direction : String) : Except String Bytes :=
  go.hkdf key transcriptHash (aeadControlInfo algorithm direction)

def deriveAEADControlKeys (key : Bytes) (algorithm : String) (transcriptHash : Bytes) :
    Except String (Bytes × Bytes) :=
  match go.deriveAEADControlKey key algorithm transcriptHash aeadDirectionClientToServer with
  | .error err => .error err
  | .ok clientToServerKey =>
      match go.deriveAEADControlKey key algorithm transcriptHash aeadDirectionServerToClient with
      | .error err => .error err
      | .ok serverToClientKey => .ok (clientToServerKey, serverToClientKey)

def newAEADCryptoReadWriter (key : Bytes) (role : AEADCryptoRole) (algorithm : String)
    (transcriptHash : Bytes) : Except String AEADReadWriter :=
  match go.deriveAEADControlKeys key algorithm transcriptHash with
  | .error err => .error err
  | .ok (clientToServerKey, serverToClientKey) =>
      let (readKey, writeKey) := role.keys clientToServerKey serverToClientKey
      match go.newAEADStreamReader algorithm readKey with
      | .error err => .error err
      | .ok () =>
          match go.newAEADStreamWriter algorithm writeKey with
          | .error err => .error err
          | .ok () => .ok ⟨algorithm, readKey, writeKey⟩

/-! ## Both sides of the exchange -/

def writeServerHello (serverHello : ServerHello) : Except String (Bytes × Bytes) :=
  match go.marshalServerHello serverHello with
  | .error err => .error s!"encode ServerHello: {err}"
  | .ok payload =>
      match newConn.writeFrame ⟨frameTypeServerHello, 0, payload⟩ with
      | .error _ => .error "write ServerHello"
      | .ok written => .ok (payload, written)

/-- `handleClientHello` of the server: the bytes written, if any, and the context. -/
def handleClientHello (random : CryptoRandom) (f : Frame) :
    Option Bytes × Except String CryptoContext :=
  match go.unmarshalClientHello f.payload with
  | .error err => (none, .error s!"decode ClientHello: {err}")
  | .ok hello =>
      match newServerHello random hello with
      | .error err =>
          -- the client is told why
          ((go.writeServerHello { defaultServerHello with error := err }).toOption.map Prod.snd,
            .error err)
      | .ok serverHello =>
          match go.writeServerHello serverHello with
          | .error err => (none, .error err)
          | .ok (payload, written) =>
              (some written,
                .ok (go.newCryptoContext serverHello.crypto.algorithm f.payload payload))

/-- The part of `exchangeLogin` of the client that waits for the server hello. -/
def receiveServerHello (clientHelloPayload : Bytes) (r : Reader) :
    Except String CryptoContext × Reader :=
  match newConn.readFrame r with
  | (.error _, r) => (.error "read ServerHello", r)
  | (.ok f, r) =>
      if f.type ≠ frameTypeServerHello then
        (.error s!"unexpected frame type {f.type}, want {frameTypeServerHello}", r)
      else
        match go.unmarshalServerHello f.payload with
        | .error err => (.error err, r)
        | .ok serverHello =>
            if serverHello.error ≠ "" then (.error serverHello.error, r)
            else (go.newClientCryptoContext clientHelloPayload f.payload, r)

end Go

/-! ## Agreement -/

def IsFirstSupported (algorithms : List String) (algorithm : String) : Prop :=
  ∃ before after, algorithms = before ++ algorithm :: after ∧
    isSupportedAEADAlgorithm algorithm = true ∧
      ∀ a ∈ before, isSupportedAEADAlgorithm a = false

theorem isFirstSupported_of_select {algorithms : List String} {algorithm : String}
    (h : selectAEADAlgorithm algorithms = some algorithm) :
    IsFirstSupported algorithms algorithm := by
  induction algorithms with
  | nil => cases h
  | cons a algorithms ih =>
    rw [selectAEADAlgorithm] at h
    by_cases ha : isSupportedAEADAlgorithm a = true
    · rw [if_pos ha] at h
      cases h
      exact ⟨[], algorithms, rfl, ha, fun _ hmem => absurd hmem List.not_mem_nil⟩
    · rw [if_neg ha] at h
      obtain ⟨before, after, rfl, hsupported, hbefore⟩ := ih h
      refine ⟨a :: before, after, rfl, hsupported, ?_⟩
      intro b hb
      rcases List.mem_cons.1 hb with rfl | hb
      · exact Bool.eq_false_iff.2 ha
      · exact hbefore b hb

section

variable {go : Go} {random : CryptoRandom} {clientHello : ClientHello} {serverHello : ServerHello}

theorem newServerHello_eq_ok (h : newServerHello random clientHello = .ok serverHello) :
    serverHello.codec = messageCodecJSON ∧ serverHello.error = "" ∧
      selectAEADAlgorithm clientHello.crypto.algorithms = some serverHello.crypto.algorithm ∧
        serverHello.crypto.serverRandom.length = cryptoRandomSize := by
  unfold newServerHello at h
  cases hvalid : validateClientHello clientHello with
  | error err => simp [hvalid] at h
  | ok _ =>
    cases hselect : selectAEADAlgorithm clientHello.crypto.algorithms with
    | none => simp [hvalid, hselect] at h
    | some algorithm =>
      cases hrandom : random with
      | error err => simp [hvalid, hselect, hrandom] at h
      | ok serverRandom =>
        simp only [hvalid, hselect, hrandom, Except.ok.injEq] at h
        subst h
        exact ⟨rfl, rfl, rfl, serverRandom.2⟩

theorem validateServerHelloForClient_of_accepted
    (h : newServerHello random clientHello = .ok serverHello) :
    validateServerHelloForClient clientHello serverHello = .ok () := by
  obtain ⟨hcodec, -, hselect, hrandom⟩ := newServerHello_eq_ok h
  obtain ⟨before, after, hlist, hsupported, -⟩ := isFirstSupported_of_select hselect
  have hadvertised :
      supports clientHello.crypto.algorithms serverHello.crypto.algorithm = true := by
    simp [supports, hlist]
  simp [validateServerHelloForClient, hcodec, hsupported, hadvertised, hrandom]

theorem newClientCryptoContext_of_accepted (hJ : go.RoundTrip)
    (h : newServerHello random clientHello = .ok serverHello) {clientPayload serverPayload : Bytes}
    (hclient : go.unmarshalClientHello clientPayload = .ok clientHello)
    (hserver : go.marshalServerHello serverHello = .ok serverPayload) :
    go.newClientCryptoContext clientPayload serverPayload =
      .ok (go.newCryptoContext serverHello.crypto.algorithm clientPayload serverPayload) := by
  simp [Go.newClientCryptoContext, hclient, hJ serverHello serverPayload hserver,
    validateServerHelloForClient_of_accepted h]

theorem receiveServerHello_of_handle (hJ : go.RoundTrip)
    (h : newServerHello random clientHello = .ok serverHello) {f : Frame}
    (hclient : go.unmarshalClientHello f.payload = .ok clientHello) {written : Bytes}
    {context : CryptoContext}
    (hhandle : go.handleClientHello random f = (some written, .ok context)) {r : Reader}
    {rest : Bytes} (hpending : r.pending = written ++ rest) :
    ∃ r' : Reader, go.receiveServerHello f.payload r = (.ok context, r') ∧ r'.pending = rest := by
  obtain ⟨-, herror, -, -⟩ := newServerHello_eq_ok h
  simp only [Go.handleClientHello, hclient, h, Go.writeServerHello] at hhandle
  cases hmarshal : go.marshalServerHello serverHello with
  | error err => simp [hmarshal] at hhandle
  | ok payload =>
    cases hwrite : newConn.writeFrame ⟨frameTypeServerHello, 0, payload⟩ with
    | error err => simp [hmarshal, hwrite] at hhandle
    | ok bytes =>
      simp only [hmarshal, hwrite, Prod.mk.injEq, Option.some.injEq, Except.ok.injEq] at hhandle
      obtain ⟨rfl, rfl⟩ := hhandle
      have hbegins := Conn.Begins.of_writeFrame hwrite rest
      rw [← hpending] at hbegins
      obtain ⟨r', hread, hrest, -⟩ := Conn.readFrame_of_begins hbegins
      refine ⟨r', ?_, hrest⟩
      simp [Go.receiveServerHello, hread, hJ serverHello payload hmarshal, herror,
        newClientCryptoContext_of_accepted hJ h hclient hmarshal]

end

theorem aeadControlInfo_ne (algorithm : String) :
    aeadControlInfo algorithm aeadDirectionClientToServer ≠
      aeadControlInfo algorithm aeadDirectionServerToClient := by
  intro h
  have hlist := congrArg String.toList h
  simp only [aeadControlInfo, String.toList_append, List.append_assoc,
    List.append_cancel_left_eq] at hlist
  exact absurd hlist (by decide)

theorem newAEADCryptoReadWriter_eq_ok {go : Go} {key : Bytes} {role : AEADCryptoRole}
    {algorithm : String} {transcriptHash : Bytes} {rw : AEADReadWriter}
    (h : go.newAEADCryptoReadWriter key role algorithm transcriptHash = .ok rw) :
    ∃ clientToServerKey serverToClientKey,
      go.deriveAEADControlKey key algorithm transcriptHash aeadDirectionClientToServer =
          .ok clientToServerKey ∧
        go.deriveAEADControlKey key algorithm transcriptHash aeadDirectionServerToClient =
          .ok serverToClientKey ∧
          rw.readKey = (role.keys clientToServerKey serverToClientKey).1 ∧
            rw.writeKey = (role.keys clientToServerKey serverToClientKey).2 := by
  unfold Go.newAEADCryptoReadWriter Go.deriveAEADControlKeys at h
  cases hc2s : go.deriveAEADControlKey key algorithm transcriptHash
      aeadDirectionClientToServer with
  | error err => simp [hc2s] at h
  | ok clientToServerKey =>
    cases hs2c : go.deriveAEADControlKey key algorithm transcriptHash
        aeadDirectionServerToClient with
    | error err => simp [hc2s, hs2c] at h
    | ok serverToClientKey =>
      simp only [hc2s, hs2c] at h
      refine ⟨clientToServerKey, serverToClientKey, rfl, rfl, ?_⟩
      cases hreader : go.newAEADStreamReader algorithm
          (role.keys clientToServerKey serverToClientKey).1 with
      | error err => simp [hreader] at h
      | ok _ =>
        cases hwriter : go.newAEADStreamWriter algorithm
            (role.keys clientToServerKey serverToClientKey).2 with
        | error err => simp [hreader, hwriter] at h
        | ok _ =>
          simp only [hreader, hwriter, Except.ok.injEq] at h
          subst h
          exact ⟨rfl, rfl⟩

structure Streams (go : Go) (key : Bytes) (context : CryptoContext)
    (client server : AEADReadWriter) : Prop where
  client : go.newAEADCryptoReadWriter key .client context.algorithm context.transcriptHash =
    .ok client
  server : go.newAEADCryptoReadWriter key .server context.algorithm context.transcriptHash =
    .ok server

theorem Streams.keys {go : Go} {key : Bytes} {context : CryptoContext}
    {client server : AEADReadWriter} (h : Streams go key context client server) :
    client.writeKey = server.readKey ∧ client.readKey = server.writeKey := by
  obtain ⟨c2s, s2c, hc2s, hs2c, hread, hwrite⟩ := newAEADCryptoReadWriter_eq_ok h.client
  obtain ⟨c2s', s2c', hc2s', hs2c', hread', hwrite'⟩ := newAEADCryptoReadWriter_eq_ok h.server
  rw [hc2s] at hc2s'
  rw [hs2c] at hs2c'
  cases hc2s'
  cases hs2c'
  exact ⟨by rw [hwrite, hread']; rfl, by rw [hread, hwrite']; rfl⟩

def sampleClientHello : ClientHello where
  bootstrap := ⟨"tcp", false, false⟩
  codecs := [messageCodecJSON]
  crypto := ⟨["rot13", "xchacha20-poly1305", "aes-256-gcm"], List.replicate 32 0⟩

def sampleClientText : Bytes := Bytes.ascii (
  "\x7b\"bootstrap\":\x7b\"transport\":\"tcp\"\x7d,\"capabilities\":\x7b\"message\":\x7b" ++
  "\"codecs\":[\"json\"]\x7d,\"crypto\":\x7b\"algorithms\":[\"rot13\",\"xchacha20-poly1305\"," ++
  "\"aes-256-gcm\"],\"clientRandom\":\"AAAAAAAAAAAAAAAAAAAAAAAAAAAAAAAAAAAAAAAAAAA=\"\x7d\x7d\x7d")

def sampleServerHello : ServerHello where
  codec := messageCodecJSON
  crypto := ⟨"xchacha20-poly1305", List.replicate 32 1⟩
  error := ""

def sampleServerText : Bytes := Bytes.ascii (
  "\x7b\"selected\":\x7b\"message\":\x7b\"codec\":\"json\"\x7d,\"crypto\":\x7b" ++
  "\"algorithm\":\"xchacha20-poly1305\"," ++
  "\"serverRandom\":\"AQEBAQEBAQEBAQEBAQEBAQEBAQEBAQEBAQEBAQEBAQE=\"\x7d\x7d\x7d")

def sampleHash : Bytes :=
  [29, 27, 78, 135, 32, 17, 73, 139, 51, 135, 146, 125, 22, 149, 179, 189, 105, 105, 248, 140, 130,
    47, 255, 165, 62, 234, 40, 246, 245, 19, 158, 170]

def sampleClientToServerKey : Bytes :=
  [229, 44, 41, 78, 93, 146, 172, 134, 176, 177, 253, 63, 132, 230, 114, 189, 142, 205, 174, 20, 1,
    118, 255, 237, 165, 171, 41, 191, 66, 149, 81, 149]

def sampleServerToClientKey : Bytes :=
  [192, 206, 132, 214, 67, 2, 215, 126, 184, 85, 244, 0, 154, 114, 131, 201, 114, 71, 141, 231, 75,
    98, 66, 75, 29, 149, 28, 208, 89, 229, 95, 147]

def sampleGo : Go where
  sha256 input :=
    if input = cryptoTranscript sampleClientText sampleServerText then sampleHash else []
  hkdf secret salt info :=
    if secret = Bytes.ascii "token" ∧ salt = sampleHash then
      if info = aeadControlInfo "xchacha20-poly1305" aeadDirectionClientToServer then
        .ok sampleClientToServerKey
      else if info = aeadControlInfo "xchacha20-poly1305" aeadDirectionServerToClient then
        .ok sampleServerToClientKey
      else .error "not in the sample"
    else .error "not in the sample"
  marshalServerHello serverHello :=
    if serverHello = sampleServerHello then .ok sampleServerText else .error "not in the sample"
  unmarshalClientHello text :=
    if text = sampleClientText then .ok sampleClientHello else .error "not in the sample"
  unmarshalServerHello text :=
    if text = sampleServerText then .ok sampleServerHello else .error "not in the sample"
  newAEADStreamReader _ key := if key.length = 32 then .ok () else .error "bad key"
  newAEADStreamWriter _ key := if key.length = 32 then .ok () else .error "bad key"

theorem sampleGo_roundTrip : sampleGo.RoundTrip := by
  intro serverHello text h
  simp only [sampleGo] at h ⊢
  split_ifs at h with hserver
  have htext : sampleServerText = text := Except.ok.inj h
  rw [if_pos htext.symm, hserver]

def sampleRandom : CryptoRandom := .ok ⟨List.replicate 32 1, rfl⟩

theorem sampleServerHello_accepted :
    newServerHello sampleRandom sampleClientHello = .ok sampleServerHello := rfl

theorem sampleGo_streams : Streams sampleGo (Bytes.ascii "token") ⟨"xchacha20-poly1305", sampleHash⟩
      ⟨"xchacha20-poly1305", sampleServerToClientKey, sampleClientToServerKey⟩
      ⟨"xchacha20-poly1305", sampleClientToServerKey, sampleServerToClientKey⟩ := by
  have hc2s : sampleGo.deriveAEADControlKey (Bytes.ascii "token") "xchacha20-poly1305" sampleHash
      aeadDirectionClientToServer = .ok sampleClientToServerKey := by
    simp [Go.deriveAEADControlKey, sampleGo]
  have hs2c : sampleGo.deriveAEADControlKey (Bytes.ascii "token") "xchacha20-poly1305" sampleHash
      aeadDirectionServerToClient = .ok sampleServerToClientKey := by
    simp [Go.deriveAEADControlKey, sampleGo, (aeadControlInfo_ne "xchacha20-poly1305").symm]
  constructor <;>
  · rfl

end FrpMeo.Wire.Crypto
