import Tlcp.Ntls.ClientKex
import Tlcp.Ntls.Statem

/-!
# Tlcp.Ntls.Client

The NTLS client machine (`ntls_statem_clnt.c`): its read and write
transitions, the processors of the server's messages with the two checks of
the server's certificates, and the constructors of its own messages.

What a step is told from outside comes in `ClientAnswers`.  The branches for
early data and for a HelloRetryRequest are for TLS 1.3 connections and are
left out, except for the one out of `TLS_ST_CR_SRVR_HELLO`.
-/

namespace Tlcp

open Octets Fallible

variable {X509 Pkey : Type}

/-! ## answers from outside -/

/-- The extension flags that the extensions of a ServerHello leave. -/
structure HelloFlags where
  ticketExpected : Bool := false
  statusExpected : Bool := false
  npnSeen : Bool := false
  deriving DecidableEq, Repr

/-- The answer of the client-certificate callback; it may configure
certificates. -/
inductive ClientCertAnswer (X509 Pkey : Type) where
  | retry
  | noCert
  | use (cert : Cert X509 Pkey)

/-- The answer of the OCSP callback to the client. -/
inductive OcspAnswer where
  | ok
  | invalid
  | failed
  deriving DecidableEq, Repr

/-- What the client is told from outside in one step. -/
structure ClientAnswers (X509 Pkey : Type) where
  /-- `new_session`: a renegotiation asked for a full handshake -/
  newSession : Bool := false
  clientRandom : Option (Buf 32) := some (Buf.fill 32 2)
  fallbackScsv : Bool := false
  clientHelloExts : Except Fatal Bytes := .ok []
  /-- `tls_collect_extensions_ntls` and `tls_validate_all_contexts_ntls` -/
  collectExtensions : Except Fatal Unit := .ok ()
  /-- the cipher code is in the rest of the table, behind the NTLS suites -/
  knownCipher : Bool := false
  /-- `session_secret_cb`: the master key and the preferred cipher -/
  sessionSecret : Option (Bytes × Option SslCipher) := none
  /-- `tls_parse_all_extensions_ntls` -/
  extensions : Except Fatal HelloFlags := .ok {}
  verifyEnc : VerifyAnswer := ⟨1, 0, false⟩
  verifySign : VerifyAnswer := ⟨1, 0, false⟩
  /-- `d2i_X509_NAME`: the bytes it did not consume -/
  d2iX509Name : Bytes → Option Bytes := fun _ => some []
  certCb : CbAnswer := .proceed
  /-- the slot in use holds a certificate and a key -/
  hasCert : Bool := false
  /-- the same after the client-certificate callback -/
  hasCertThen : Bool := false
  /-- `tls1_check_chain`, in strict mode -/
  checkChain : Bool := true
  clientCertCb : ClientCertAnswer X509 Pkey := .noCert
  /-- the key usage of an ECDSA certificate allows signing -/
  eccKeyUsage : Bool := true
  ocsp : OcspAnswer := .ok
  /-- the certificates sent behind the two leaves -/
  chain : List X509 := []
  cke : CkeRandom := { pms := Buf.zero 46 }
  signRandom : Bytes := []
  npn : Bytes := []
  /-- `SSL_OP_NO_RENEGOTIATION` -/
  noRenegotiation : Bool := false
  /-- no records are pending, `ssl3_renegotiate_check` -/
  renegotiateNow : Bool := false

/-! ## read transitions -/

variable (lib : Libcrypto X509 Pkey) (ans : ClientAnswers X509 Pkey)
  (s : SSL X509 Pkey)

/-- `cert_req_allowed` -/
def certReqAllowed : Prop :=
  ¬ ((ssl3Version < s.version ∧ hasBit s.auth Auth.aNULL) ∨ hasBit s.auth (Auth.aSRP ||| Auth.aPSK))

instance : Decidable (certReqAllowed s) := inferInstanceAs (Decidable (¬ _))

/-- A CertificateRequest or a ServerHelloDone, the end of the server's flight. -/
def readRequestOrDone : MsgType → Option HandState
  | .certificateRequest => if certReqAllowed s then some .crCertReq else none
  | .serverDone => some .crSrvrDone
  | _ => none

/-- A NewSessionTicket if one is expected, and a ChangeCipherSpec otherwise. -/
def readTicketOrChange (mt : MsgType) : Option HandState :=
  if s.ext.ticketExpected then
    if mt = .newSessionTicket then some .crSessionTicket else none
  else if mt = .changeCipherSpec then some .crChange
  else none

/-- The server may resume with the secret of the session-secret callback; only
its next message tells. -/
def secretResumption (mt : MsgType) : Prop :=
  s.statem.handState = .crSrvrHello ∧ s.hit = false ∧ ntlsVersion ≤ s.version ∧
    s.ext.sessionSecretCb ∧ s.session.tick ≠ [] ∧ mt = .changeCipherSpec

instance (mt : MsgType) : Decidable (secretResumption s mt) :=
  inferInstanceAs (Decidable (_ ∧ _))

/-- The state that `ossl_statem_client_read_transition_ntls` goes to.  A
ServerKeyExchange is always expected. -/
def clientReadNext (mt : MsgType) : Option HandState :=
  match s.statem.handState with
  | .cwClntHello => if mt = .serverHello then some .crSrvrHello else none
  | .crSrvrHello =>
    if s.hit then readTicketOrChange s mt
    else if secretResumption s mt then some .crChange
    else if hasBit s.auth (Auth.aNULL ||| Auth.aSRP ||| Auth.aPSK) then
      if mt = .serverKeyExchange then some .crKeyExch else none
    else if mt = .certificate then some .crCert
    else none
  | .crCert =>
    if s.ext.statusExpected ∧ mt = .certificateStatus then some .crCertStatus
    else if mt = .serverKeyExchange then some .crKeyExch
    else none
  | .crCertStatus => if mt = .serverKeyExchange then some .crKeyExch else none
  | .crKeyExch => readRequestOrDone s mt
  | .crCertReq => if mt = .serverDone then some .crSrvrDone else none
  | .cwFinished => readTicketOrChange s mt
  | .crSessionTicket => if mt = .changeCipherSpec then some .crChange else none
  | .crChange => if mt = .finished then some .crFinished else none
  | .ok => if mt = .helloRequest then some .crHelloReq else none
  | _ => none

/-- `ossl_statem_client_read_transition_ntls` -/
def clientReadTransition (mt : MsgType) : Handshake X509 Pkey Unit := do
  let s ← get
  let h ← orThrow ⟨.unexpectedMessage, .unexpectedMessage⟩ (clientReadNext s mt)
  modify fun s' =>
    { s' with hit := s'.hit || decide (secretResumption s mt), statem.handState := h }

/-! ## write transitions -/

/-- `ossl_statem_client_write_transition_ntls` in every state but
`TLS_ST_CR_HELLO_REQ`: the state of the next message, or none if it is the
server's turn. -/
def clientWriteNext : Except Fatal (Option HandState) :=
  match s.statem.handState with
  | .ok => .ok (if s.renegotiate then some .cwClntHello else none)
  | .before => .ok (some .cwClntHello)
  | .cwClntHello => .ok none
  | .crSrvrHello => .ok (some (if s.middleboxCompat then .cwChange else .cwClntHello))
  | .crSrvrDone => .ok (some (if s.s3.tmp.certReq ≠ 0 then .cwCert else .cwKeyExch))
  | .cwCert => .ok (some .cwKeyExch)
  | .cwKeyExch =>
    .ok (some (if s.s3.tmp.certReq = 1 ∧ s.s3.skipCertVerify = false then .cwCertVrfy
      else .cwChange))
  | .cwCertVrfy => .ok (some .cwChange)
  | .cwChange => .ok (some (if s.s3.npnSeen then .cwNextProto else .cwFinished))
  | .cwNextProto => .ok (some .cwFinished)
  | .cwFinished => .ok (if s.hit then some .ok else none)
  | .crFinished => .ok (some (if s.hit then .cwChange else .ok))
  | _ => .error ⟨.internalError, .internalError⟩

/-- `ossl_statem_client_write_transition_ntls`.  A HelloRequest is followed by
a new handshake if one can be started now. -/
def clientWriteTransition : Handshake X509 Pkey WriteTran := do
  let s ← get
  if s.statem.handState = .crHelloReq then
    if s.s3.renegotiate ∧ ans.renegotiateNow then
      modify fun s => { s with
        statem.inInit := true
        statem.requestState := .swHelloReq
        s3.renegotiate := false }
      tlsSetupHandshake
      modify fun s => { s with statem.handState := .cwClntHello }
      pure .cont
    else
      modify fun s => { s with statem.handState := .ok }
      pure .cont
  else
    match ← lift (clientWriteNext s) with
    | none => pure .finished
    | some h =>
      modify fun s => { s with statem.handState := h }
      pure .cont

/-! ## ClientHello -/

/-- `ssl_get_new_session` without a session id -/
def sslNewSession : Session X509 :=
  { sslVersion := s.version, sidCtx := s.sidCtx }

/-- `SSL_SESSION_is_resumable` -/
def Session.isResumable (sess : Session X509) : Prop :=
  sess.notResumable = false ∧ (sess.sessionId ≠ [] ∨ sess.tick ≠ [])

instance (sess : Session X509) : Decidable sess.isResumable := inferInstanceAs (Decidable (_ ∧ _))

/-- `SSL3_CK_SCSV` and `SSL3_CK_FALLBACK_SCSV` -/
def scsv : Nat := 0x00FF
def fallbackScsv : Nat := 0x5600

/-- `ssl_cipher_list_to_bytes`: the ciphers, then the signalling values. -/
def sslCipherListToBytes (ciphers : List NtlsCipher) (reneg fallback : Bool) : Bytes :=
  (ciphers.map fun c => putUint 2 c.1.id).flatten ++
    (if reneg then [] else putUint 2 scsv) ++ (if fallback then putUint 2 fallbackScsv else [])

/-- The layout of a ClientHello. -/
def clientHelloBody (version : Nat) (random sessionId suites exts : Bytes) : Bytes :=
  putUint 2 version ++ random ++ (putUint 1 sessionId.length ++ sessionId) ++
    (putUint 2 suites.length ++ suites) ++ [1, 0] ++ exts

/-- `tls_construct_client_hello_ntls` -/
def tlsConstructClientHello : Handshake X509 Pkey Bytes := do
  modify fun s =>
    { s with
      session := if s.session.sslVersion = ntlsVersion ∧ s.session.isResumable then s.session
        else sslNewSession s }
  let random ← orThrow ⟨.internalError, .internalError⟩ ans.clientRandom
  modify fun s => { s with s3.clientRandom := random.1 }
  let s ← get
  check (s.ciphers ≠ []) ⟨.internalError, .noCiphersAvailable⟩
  let suites := sslCipherListToBytes s.ciphers s.renegotiate ans.fallbackScsv
  check (suites.length < 2 ^ 16) ⟨.internalError, .internalError⟩
  let exts ← lift ans.clientHelloExts
  pure (clientHelloBody s.clientVersion random.1
    (if ans.newSession then [] else s.session.sessionId) suites exts)

/-! ## ServerHello -/

/-- The fields of a ServerHello in front of its extensions. -/
structure ServerHello where
  version : Nat
  random : Bytes
  sessionId : Bytes
  cipher : Nat
  compression : Nat
  deriving DecidableEq, Repr

/-- The first part of `tls_process_server_hello_ntls`. -/
def parseServerHello (pkt : Bytes) : Except Fatal ServerHello := do
  let (version, pkt) ← orFatal .decodeError .lengthMismatch (getUint 2 pkt)
  let (random, pkt) ← orFatal .decodeError .lengthMismatch (splitFront ssl3RandomSize pkt)
  let (sessionId, pkt) ← orFatal .decodeError .lengthMismatch (getPrefixed 1 pkt)
  require (sessionId.length ≤ sslMaxSslSessionIdLength) .illegalParameter .ssl3SessionIdTooLong
  let (cipher, pkt) ← orFatal .decodeError .lengthMismatch (getUint 2 pkt)
  let (compression, pkt) ← orFatal .decodeError .lengthMismatch (getUint 1 pkt)
  if pkt = [] then pure ⟨version, random, sessionId, cipher, compression⟩
  else
    let (_, pkt) ← orFatal .decodeError .badLength (getPrefixed 2 pkt)
    require (pkt = []) .decodeError .badLength
    pure ⟨version, random, sessionId, cipher, compression⟩

/-- The NTLS suite with a cipher code, `ssl_get_cipher_by_char`. -/
def cipherByCode (code : Nat) : Option SslCipher := ntlsCiphers.find? fun c => c.id % 65536 = code

/-- `set_client_ciphersuite_ntls` -/
def setClientCiphersuite (code : Nat) : Handshake X509 Pkey Unit := do
  let s ← get
  check (ans.knownCipher ∨ (cipherByCode code).isSome) ⟨.illegalParameter, .unknownCipherReturned⟩
  let c ← orThrow ⟨.illegalParameter, .wrongCipherReturned⟩
    (s.ciphers.find? fun c => c.1.id % 65536 = code)
  check (s.hit → s.session.cipher.map SslCipher.id = some c.1.id)
    ⟨.illegalParameter, .oldSessionCipherNotReturned⟩
  modify fun s => { s with s3.tmp.newCipher := some c.1 }

/-- Ask the session-secret callback for the secret of the offered ticket. -/
def useSessionSecret (code : Nat) : Handshake X509 Pkey Unit := do
  let s ← get
  onlyIf (ntlsVersion ≤ s.version ∧ s.ext.sessionSecretCb ∧ s.session.tick ≠ []) do
    let (masterKey, pref) ← orThrow ⟨.internalError, .internalError⟩ ans.sessionSecret
    modify fun s =>
      { s with session.masterKey := masterKey, session.cipher := pref <|> cipherByCode code }

/-- Keep the session that the server resumes, and otherwise give up one that
was offered by its id.  A session that was offered without an id is kept. -/
def adoptSession (sessionId : Bytes) : Handshake X509 Pkey Unit := do
  modify fun s => { s with hit := decide (sessionId ≠ [] ∧ sessionId = s.session.sessionId) }
  let s ← get
  if s.hit then
    check (s.sidCtx = s.session.sidCtx)
      ⟨.illegalParameter, .attemptToReuseSessionInDifferentContext⟩
  else
    modify fun s =>
      { s with session := if s.session.sessionId ≠ [] then sslNewSession s else s.session }
    modify fun s => { s with session.sslVersion := s.version, session.sessionId := sessionId }

/-- `tls_process_server_hello_ntls` -/
def tlsProcessServerHello (pkt : Bytes) : Handshake X509 Pkey MsgProcess := do
  let hello ← lift (parseServerHello pkt)
  modify fun s => { s with s3.serverRandom := hello.random }
  lift ans.collectExtensions
  check (hello.version = ntlsVersion) ⟨.protocolVersion, .wrongSslVersion⟩
  modify fun s => { s with version := hello.version, hit := false }
  useSessionSecret ans hello.cipher
  adoptSession hello.sessionId
  let s ← get
  check (s.version = s.session.sslVersion) ⟨.protocolVersion, .sslSessionVersionMismatch⟩
  setClientCiphersuite ans hello.cipher
  check (hello.compression = 0) ⟨.illegalParameter, .unsupportedCompressionAlgorithm⟩
  let s ← get
  check (s.session.compressMeth = 0) ⟨.handshakeFailure, .inconsistentCompression⟩
  let flags ← lift ans.extensions
  modify fun s =>
    { s with
      ext.ticketExpected := flags.ticketExpected
      ext.statusExpected := flags.statusExpected
      s3.npnSeen := flags.npnSeen }
  pure .continueReading

/-! ## the server's certificates -/

/-- The certificates in the body of a server's Certificate message. -/
def parseServerCertificate (pkt : Bytes) : Except Fatal (List X509) := do
  let (certListLen, pkt) ← orFatal .decodeError .lengthMismatch (getUint 3 pkt)
  require (pkt.length = certListLen ∧ pkt ≠ []) .decodeError .lengthMismatch
  certItems lib .badCertificate pkt

/-- `tls_process_server_certificate_ntls` -/
def tlsProcessServerCertificate (pkt : Bytes) : Handshake X509 Pkey MsgProcess := do
  modify fun s => { s with session.peerChain := [] }
  let certs ← lift (parseServerCertificate lib pkt)
  modify fun s => { s with session.peerChain := certs }
  pure .continueProcessing

/-- One of the two chains, with whether the verifier is to be called again
later.  The list is verified where it is, so it stays rotated. -/
def verifyServerChain (ans : VerifyAnswer) (sk : List X509) : Handshake X509 Pkey Bool := do
  modify fun s => { s with session.peerChain := sk }
  let i ← sslVerifyCertChain ans sk
  let s ← get
  if 0 < i ∧ ans.retry then pure true
  else
    check (s.verifyMode = Verify.none ∨ 0 < i)
      ⟨sslX509err2alert ans.verifyResult, .certificateVerifyFailed⟩
    pure false

/-- The end of `tls_post_process_server_certificate_ntls`: the first certificate
of the list becomes the peer. -/
def adoptPeer (sk : List X509) : Handshake X509 Pkey Work := do
  let s ← get
  let pkey ← orThrow ⟨.internalError, .unableToFindPublicKeyParameters⟩
    (sk.head?.bind lib.x509GetPubkey)
  check (lib.missingParameters pkey = false) ⟨.internalError, .unableToFindPublicKeyParameters⟩
  let clu ← orThrow ⟨.illegalParameter, .unknownCertificateType⟩ (sslCertLookupByPkey lib pkey)
  check (hasBit clu.amask s.auth) ⟨.illegalParameter, .wrongCertificateType⟩
  modify fun s => { s with session.peer := sk.head?, session.verifyResult := s.verifyResult }
  pure .finishedContinue

/-- `tls_post_process_server_certificate_ntls`.  With fewer than two
certificates nothing is verified and the peer stays what it was; only a client
that does not verify goes on from there. -/
def tlsPostProcessServerCertificate : Handshake X509 Pkey Work := do
  let s ← get
  let sk := s.session.peerChain
  if 2 ≤ sk.length then
    let again ← verifyServerChain ans.verifyEnc (pushShift sk)
    if again then pure .moreA
    else
      let again ← verifyServerChain ans.verifySign (unshiftPop (pushShift sk))
      if again then pure .moreA else adoptPeer lib (unshiftPop (pushShift sk))
  else
    check (s.verifyMode = Verify.none) ⟨sslX509err2alert s.verifyResult, .certificateVerifyFailed⟩
    modify fun s => { s with session.verifyResult := s.verifyResult }
    pure .finishedContinue

/-- `tls_process_cert_status_ntls` -/
def tlsProcessCertStatus (pkt : Bytes) : Handshake X509 Pkey MsgProcess := do
  let (type, pkt) ← orThrow ⟨.decodeError, .unsupportedStatusType⟩ (getUint 1 pkt)
  check (type = 1) ⟨.decodeError, .unsupportedStatusType⟩
  let (resplen, pkt) ← orThrow ⟨.decodeError, .lengthMismatch⟩ (getUint 3 pkt)
  check (pkt.length = resplen) ⟨.decodeError, .lengthMismatch⟩
  pure .continueReading

/-! ## the rest of the server's flight -/

/-- `tls_process_key_exchange_ntls` on the connection object. -/
def processServerKeyExchange (pkt : Bytes) : Handshake X509 Pkey MsgProcess := do
  let s ← get
  let s' ← lift (tlsProcessKeyExchange lib s pkt)
  modify fun s =>
    { s with
      s3.tmp.kex := s'.s3.tmp.kex
      s3.tmp.peerSigalg := s'.s3.tmp.peerSigalg
      session.kexGroup := s'.session.kexGroup }
  pure .continueReading

/-- One name of the list of certification authorities. -/
def caName (d2iX509Name : Bytes → Option Bytes) (cadns : Bytes) : Except Fatal (Unit × Bytes) := do
  let (name, rest) ← orFatal .decodeError .lengthMismatch (getPrefixed 2 cadns)
  let left ← orFatal .decodeError .asn1Lib (d2iX509Name name)
  require (left = []) .decodeError .caDnLengthMismatch
  pure ((), rest)

/-- `parse_ca_names_ntls`: what is left of the message behind the names. -/
def parseCaNames (d2iX509Name : Bytes → Option Bytes) (pkt : Bytes) : Except Fatal Bytes := do
  let (cadns, pkt) ← orFatal .decodeError .lengthMismatch (getPrefixed 2 pkt)
  let _ ← readAll (caName d2iX509Name) ⟨.internalError, .internalError⟩ cadns.length cadns
  pure pkt

/-- `tls_process_certificate_request_ntls` -/
def tlsProcessCertificateRequest (pkt : Bytes) : Handshake X509 Pkey MsgProcess := do
  let (_, pkt) ← orThrow ⟨.decodeError, .lengthMismatch⟩ (getPrefixed 1 pkt)
  let pkt ← lift (parseCaNames ans.d2iX509Name pkt)
  check (pkt = []) ⟨.decodeError, .lengthMismatch⟩
  modify fun s => { s with s3.tmp.certReq := 1 }
  pure .continueProcessing

/-- The signature algorithm that `tls_choose_sigalg_ntls` picks on the client:
none without a certificate. -/
def clientSigalg (hasCert : Bool) : Option SigAlg :=
  match s.s3.tmp.newCipher, hasCert with
  | some c, true => (tlsChooseSigalg c).toOption.join
  | _, _ => none

/-- `ssl3_check_client_certificate_ntls` -/
def ssl3CheckClientCertificate (hasCert : Bool) : Handshake X509 Pkey Bool := do
  modify fun s => { s with s3.tmp.sigalg := clientSigalg s hasCert }
  let s ← get
  pure (s.s3.tmp.sigalg.isSome && ans.checkChain)

/-- No certificate will be sent, and no CertificateVerify. -/
def sendNoCertificate : Handshake X509 Pkey Unit := do
  modify fun s => { s with s3.tmp.certReq := 2 }
  ssl3DigestCachedRecords false

/-- `tls_prepare_client_certificate_ntls` under `WORK_MORE_B` -/
def prepareFromCallback : Handshake X509 Pkey Work := do
  match ans.clientCertCb with
  | .retry => pure .moreB
  | .noCert =>
    sendNoCertificate
    pure .finishedContinue
  | .use cert =>
    modify fun s => { s with cert := cert }
    let good ← ssl3CheckClientCertificate ans ans.hasCertThen
    onlyIf (good = false) sendNoCertificate
    pure .finishedContinue

/-- `tls_prepare_client_certificate_ntls` -/
def tlsPrepareClientCertificate (wst : Work) : Handshake X509 Pkey Work := do
  match wst with
  | .moreA =>
    match ans.certCb with
    | .retry => pure .moreA
    | .failed _ => sslFatal .internalError .callbackFailed
    | .proceed =>
      let good ← ssl3CheckClientCertificate ans ans.hasCert
      if good then pure .finishedContinue else prepareFromCallback ans
  | .moreB => prepareFromCallback ans
  | _ => sslFatal .internalError .internalError

/-- `ssl3_check_cert_and_algorithm_ntls` -/
def ssl3CheckCertAndAlgorithm : Except Fatal Unit :=
  if ¬ hasBit s.auth Auth.aCERT then .ok ()
  else do
    let clu ← orFatal .handshakeFailure .missingSigningCert
      ((s.session.peer.bind lib.x509GetPubkey).bind (sslCertLookupByPkey lib))
    require (hasBit s.auth clu.amask) .handshakeFailure .missingSigningCert
    if hasBit clu.amask Auth.aECDSA then
      require (hasBit s.auth Auth.aECDSA → ans.eccKeyUsage) .handshakeFailure .badEccCert
    else
      require (hasBit s.mkey Mkey.kRSA → sslCertInfo.head? = some clu)
        .handshakeFailure .missingRsaEncryptingCert

/-- `tls_process_server_done_ntls` -/
def tlsProcessServerDone (pkt : Bytes) : Handshake X509 Pkey MsgProcess := do
  check (pkt = []) ⟨.decodeError, .lengthMismatch⟩
  let s ← get
  lift (ssl3CheckCertAndAlgorithm lib ans s)
  check (ans.ocsp ≠ .invalid) ⟨.badCertificateStatusResponse, .invalidStatusResponse⟩
  check (ans.ocsp ≠ .failed) ⟨.internalError, .ocspCallbackFailure⟩
  pure .finishedReading

/-- `tls_process_new_session_ticket_ntls`: the session is replaced by a
duplicate with the ticket and, as its id, the hash of the ticket. -/
def tlsProcessNewSessionTicket (pkt : Bytes) : Handshake X509 Pkey MsgProcess := do
  let (_, pkt) ← orThrow ⟨.decodeError, .lengthMismatch⟩ (getUint 4 pkt)
  let (ticklen, pkt) ← orThrow ⟨.decodeError, .lengthMismatch⟩ (getUint 2 pkt)
  check (pkt.length = ticklen) ⟨.decodeError, .lengthMismatch⟩
  onlyIf (pkt ≠ []) (modify fun s =>
    { s with
      session.tick := pkt
      session.sessionId := lib.digest .sha256 pkt
      session.notResumable := false })
  pure .continueReading

/-- `tls_process_hello_req_ntls` -/
def tlsProcessHelloReq (pkt : Bytes) : Handshake X509 Pkey MsgProcess := do
  check (pkt = []) ⟨.decodeError, .lengthMismatch⟩
  if ans.noRenegotiation then
    ssl3SendWarning .noRenegotiation
    pure .finishedReading
  else
    modify fun s => { s with renegotiate := true, s3.renegotiate := true }
    pure .finishedReading

/-! ## the client's messages -/

/-- `tls_construct_client_certificate_ntls`: an empty list if the client has no
certificate. -/
def tlsConstructClientCertificate : Except Fatal Bytes := do
  let body ←
    match s.s3.tmp.sigalg with
    | some sa =>
      if s.s3.tmp.certReq = 2 then .ok []
      else sslAddCertChain lib (sa.slots s.cert).1 (sa.slots s.cert).2 ans.chain
    | none => .ok []
  orFatal .internalError .internalError (putPrefixed 3 body)

/-- `tls_construct_client_key_exchange_ntls` on the connection object. -/
def constructClientKeyExchange : Handshake X509 Pkey Bytes := do
  let s ← get
  let (body, kex) ← lift (tlsConstructClientKeyExchange lib ans.cke s)
  modify fun s => { s with s3.tmp.kex := kex }
  pure body

/-- `tls_construct_cert_verify_ntls` -/
def tlsConstructCertVerify : Handshake X509 Pkey Bytes := do
  let s ← get
  let lu ← orThrow ⟨.internalError, .internalError⟩ s.s3.tmp.sigalg
  let pkey ← orThrow ⟨.internalError, .internalError⟩ (lu.slots s.cert).1.privatekey
  let hdata := s.s3.handshakeBuffer.getD []
  check (hdata ≠ []) ⟨.internalError, .internalError⟩
  -- ML-DSA has no digest to hash the transcript with
  let md ← orThrow ⟨.internalError, .evpLib⟩ lu.hash
  let sig ← orThrow ⟨.internalError, .evpLib⟩
    (lib.digestSign pkey (some md) ans.signRandom (lib.digest md hdata))
  let body ← orThrow ⟨.internalError, .internalError⟩ (putPrefixed 2 sig)
  ssl3DigestCachedRecords false
  pure body

/-- `tls_construct_next_proto_ntls`: the protocol and padding to a multiple of
32 bytes. -/
def tlsConstructNextProto : Except Fatal Bytes := do
  let padding := List.replicate (32 - (ans.npn.length + 2) % 32) 0
  let proto ← orFatal .internalError .internalError (putPrefixed 1 ans.npn)
  let pad ← orFatal .internalError .internalError (putPrefixed 1 padding)
  pure (proto ++ pad)

/-- `ossl_statem_client_construct_message_ntls` and the constructor it picks. -/
def clientConstructMessage : Handshake X509 Pkey (MsgType × Bytes) := do
  let s ← get
  match s.statem.handState with
  | .cwChange => pure (.changeCipherSpec, [])
  | .cwClntHello => do
      let body ← tlsConstructClientHello ans
      pure (.clientHello, body)
  | .cwCert => do
      let body ← lift (tlsConstructClientCertificate lib ans s)
      pure (.certificate, body)
  | .cwKeyExch => do
      let body ← constructClientKeyExchange lib ans
      pure (.clientKeyExchange, body)
  | .cwCertVrfy => do
      let body ← tlsConstructCertVerify lib ans
      pure (.certificateVerify, body)
  | .cwNextProto => do
      let body ← lift (tlsConstructNextProto ans)
      pure (.nextProto, body)
  | .cwFinished => do
      let body ← tlsConstructFinished lib
      pure (.finished, body)
  | _ => sslFatal .internalError .badHandshakeState

/-- `ossl_statem_client_pre_work_ntls` -/
def clientPreWork : Handshake X509 Pkey Work := do
  let s ← get
  if s.statem.handState = .ok then tlsFinishHandshake else pure .finishedContinue

/-- `ossl_statem_client_post_work_ntls` -/
def clientPostWork : Handshake X509 Pkey Unit := do
  let s ← get
  match s.statem.handState with
  | .cwKeyExch => tlsClientKeyExchangePostWork lib
  | .cwChange =>
    modify fun s => { s with session.cipher := s.s3.tmp.newCipher, session.compressMeth := 0 }
  | _ => pure ()

/-! ## the machine -/

/-- `ossl_statem_client_max_message_size_ntls` -/
def clientMaxMessageSize : Nat := match s.statem.handState with
  | .crSrvrHello => 65607
  | .crCert => s.maxCertList
  | .crCertStatus => ssl3RtMaxPlainLength
  | .crKeyExch => 102400
  | .crCertReq => s.maxCertList
  | .crSrvrDone => 0
  | .crChange => 1
  | .crSessionTicket => 65541
  | .crFinished => 64
  | _ => 0

/-- `ossl_statem_client_process_message_ntls` -/
def clientProcessMessage (pkt : Bytes) : Handshake X509 Pkey MsgProcess := do
  let s ← get
  match s.statem.handState with
  | .crSrvrHello => tlsProcessServerHello ans pkt
  | .crCert => tlsProcessServerCertificate lib pkt
  | .crCertStatus => tlsProcessCertStatus pkt
  | .crKeyExch => processServerKeyExchange lib pkt
  | .crCertReq => tlsProcessCertificateRequest ans pkt
  | .crSrvrDone => tlsProcessServerDone lib ans pkt
  | .crChange => tlsProcessChangeCipherSpec pkt
  | .crSessionTicket => tlsProcessNewSessionTicket lib pkt
  | .crFinished => tlsProcessFinished pkt
  | .crHelloReq => tlsProcessHelloReq ans pkt
  | _ => sslFatal .internalError .internalError

/-- `ossl_statem_client_post_process_message_ntls` -/
def clientPostProcess (wst : Work) : Handshake X509 Pkey Work := do
  let s ← get
  match s.statem.handState with
  | .crCert => tlsPostProcessServerCertificate lib ans
  | .crCertReq => tlsPrepareClientCertificate ans wst
  | _ => sslFatal .internalError .internalError

/-- The NTLS client. -/
def client : Machine X509 Pkey (ClientAnswers X509 Pkey) where
  isServer := false
  readTransition := clientReadTransition
  maxMessageSize := clientMaxMessageSize
  processMessage := clientProcessMessage lib
  postProcessMessage := clientPostProcess lib
  writeTransition := clientWriteTransition
  preWork _ _ := clientPreWork
  constructMessage := clientConstructMessage lib
  postWork _ := clientPostWork lib

end Tlcp
