import Tlcp.Ntls.ServerKex
import Tlcp.Ntls.Statem

/-!
# Tlcp.Ntls.Server

The NTLS server machine (`ntls_statem_srvr.c`): its read and write
transitions, the processors of ClientHello, Certificate, ClientKeyExchange
and NextProto, and the constructors of its own messages.

What a step is told from outside comes in `ServerAnswers`: the random bytes
it draws, the answers of the verifier and of the callbacks, the result of the
session lookup and of the extension parsers, and the bytes of extensions,
tickets and OCSP responses.
-/

namespace Tlcp

open Octets Fallible

variable {X509 Pkey : Type}

/-! ## answers from outside -/

/-- The answer of the OCSP callback, with whether it left a response. -/
inductive StatusAnswer where
  | noack
  | ok (resp : Bool)
  | fatal
  deriving DecidableEq, Repr

/-- The answer of the ALPN callback. -/
inductive AlpnAnswer where
  | noack
  | ok
  | fatal
  deriving DecidableEq, Repr

/-- What the server is told from outside in one step. -/
structure ServerAnswers (X509 : Type) where
  /-- the record layer saw an SSLv2 record -/
  isv2 : Bool := false
  /-- `tls_collect_extensions_ntls` -/
  collectExtensions : Except Fatal Unit := .ok ()
  clientHelloCb : CbAnswer := .proceed
  /-- resumption is switched off for this handshake -/
  noResumption : Bool := false
  /-- the session of the ticket or of the cache -/
  lookup : Except Fatal (Option (Session X509)) := .ok none
  timedOut : Bool := false
  /-- the session was in a ticket, or a ticket is to be sent -/
  ticketExpected : Bool := false
  /-- `ssl_generate_session_id` -/
  sessionId : Option Bytes := some []
  /-- `tls_parse_all_extensions_ntls`, with whether next-protocol was seen -/
  extensions : Except Fatal Bool := .ok false
  serverRandom : Option (Buf 32) := some (Buf.fill 32 1)
  certCb : CbAnswer := .proceed
  /-- `ssl3_choose_cipher`, which skips ciphers of other versions -/
  cipher : Option NtlsCipher := none
  notResumable : Bool := false
  status : StatusAnswer := .noack
  alpn : AlpnAnswer := .noack
  verifyEnc : VerifyAnswer := ⟨1, 0, false⟩
  verifySign : VerifyAnswer := ⟨1, 0, false⟩
  /-- what a fresh allocation holds -/
  heap : Bytes := []
  ske : SkeRandom := {}
  serverHelloExts : Except Fatal Bytes := .ok []
  /-- the certificates sent behind the two leaves -/
  chain : List X509 := []
  ocspResp : Bytes := []
  certTypes : Bytes := []
  caNames : Bytes := []
  ticket : Except Fatal Bytes := .ok []

/-! ## read transitions -/

/-- `ossl_statem_server_read_transition_ntls` -/
def serverReadTransition (s : SSL X509 Pkey) (mt : MsgType) : Except Fatal HandState :=
  match s.statem.handState, mt with
  | .before, .clientHello | .ok, .clientHello => .ok .srClntHello
  | .swSrvrDone, .clientKeyExchange =>
    if s.s3.tmp.certRequest then
      if s.version = ssl3Version then
        if hasBit s.verifyMode Verify.peer ∧ hasBit s.verifyMode Verify.failIfNoPeerCert then
          .error ⟨.handshakeFailure, .peerDidNotReturnACertificate⟩
        else .ok .srKeyExch
      else .error ⟨.unexpectedMessage, .unexpectedMessage⟩
    else .ok .srKeyExch
  | .swSrvrDone, .certificate =>
    if s.s3.tmp.certRequest then .ok .srCert
    else .error ⟨.unexpectedMessage, .unexpectedMessage⟩
  | .srCert, .clientKeyExchange => .ok .srKeyExch
  | .srKeyExch, .changeCipherSpec =>
    if s.session.peer.isNone ∨ s.statem.noCertVerify then .ok .srChange
    else .error ⟨.unexpectedMessage, .unexpectedMessage⟩
  | .srKeyExch, .certificateVerify =>
    if s.session.peer.isNone ∨ s.statem.noCertVerify then
      .error ⟨.unexpectedMessage, .unexpectedMessage⟩
    else .ok .srCertVrfy
  | .srCertVrfy, .changeCipherSpec => .ok .srChange
  | .srChange, .nextProto =>
    if s.s3.npnSeen then .ok .srNextProto
    else .error ⟨.unexpectedMessage, .unexpectedMessage⟩
  | .srChange, .finished =>
    if s.s3.npnSeen then .error ⟨.unexpectedMessage, .unexpectedMessage⟩
    else .ok .srFinished
  | .srNextProto, .finished => .ok .srFinished
  | .swFinished, .changeCipherSpec => .ok .srChange
  | _, _ => .error ⟨.unexpectedMessage, .unexpectedMessage⟩

/-! ## write transitions -/

/-- `send_certificate_request_ntls` -/
def sendCertificateRequest (s : SSL X509 Pkey) : Prop := hasBit s.verifyMode Verify.peer ∧
    (s.certreqsSent < 1 ∨ ¬ hasBit s.verifyMode Verify.clientOnce) ∧
    (¬ hasBit s.auth Auth.aNULL ∨ hasBit s.verifyMode Verify.failIfNoPeerCert) ∧
    ¬ hasBit s.auth Auth.aSRP ∧ ¬ hasBit s.auth Auth.aPSK

instance (s : SSL X509 Pkey) : Decidable (sendCertificateRequest s) :=
  inferInstanceAs (Decidable (_ ∧ _))

/-- `ossl_statem_server_write_transition_ntls` in every state but `TLS_ST_OK`:
the state of the next message, or none if it is the client's turn. -/
def serverWriteNext (s : SSL X509 Pkey) : Except Fatal (Option HandState) :=
  match s.statem.handState with
  | .before => .ok none
  | .swHelloReq => .ok (some .ok)
  | .srClntHello =>
    if s.renegotiate = false ∧ s.isFirstHandshake = false then .ok (some .ok)
    else .ok (some .swSrvrHello)
  | .swSrvrHello =>
    if s.hit then
      .ok (some (if s.ext.ticketExpected then .swSessionTicket else .swChange))
    else if hasBit s.auth (Auth.aNULL ||| Auth.aSRP ||| Auth.aPSK) then .ok (some .swKeyExch)
    else .ok (some .swCert)
  | .swCert => .ok (some (if s.ext.statusExpected then .swCertStatus else .swKeyExch))
  | .swCertStatus => .ok (some .swKeyExch)
  | .swKeyExch => .ok (some (if sendCertificateRequest s then .swCertReq else .swSrvrDone))
  | .swCertReq => .ok (some .swSrvrDone)
  | .swSrvrDone => .ok none
  | .srFinished =>
    if s.hit then .ok (some .ok)
    else .ok (some (if s.ext.ticketExpected then .swSessionTicket else .swChange))
  | .swSessionTicket => .ok (some .swChange)
  | .swChange => .ok (some .swFinished)
  | .swFinished => if s.hit then .ok none else .ok (some .ok)
  | _ => .error ⟨.internalError, .internalError⟩

/-- `ossl_statem_server_write_transition_ntls`.  In `TLS_ST_OK` the server
either sends the HelloRequest it was asked for or gets ready for an incoming
ClientHello. -/
def serverWriteTransition : Handshake X509 Pkey WriteTran := do
  let s ← get
  if s.statem.handState = .ok then
    if s.statem.requestState = .swHelloReq then
      modify fun s => { s with statem.handState := .swHelloReq, statem.requestState := .before }
      pure .cont
    else
      tlsSetupHandshake
      pure .finished
  else
    match ← lift (serverWriteNext s) with
    | none => pure .finished
    | some h =>
      modify fun s => { s with statem.handState := h }
      pure .cont

/-! ## ClientHello -/

/-- The random of a ClientHello in an SSLv2 record: the challenge, cut to 32
bytes or filled up with zeros in front. -/
def challengeRandom (challenge : Bytes) : Bytes :=
  List.replicate (ssl3RandomSize - challenge.length) 0 ++ challenge.take ssl3RandomSize

/-- The part of `tls_process_client_hello_ntls` for a ClientHello in an SSLv2
record. -/
def parseClientHelloV2 (pkt : Bytes) : Except Fatal ClientHello := do
  let (mt, pkt) ← orFatal .internalError .internalError (getUint 1 pkt)
  require (mt = 1) .internalError .internalError
  let (version, pkt) ← orFatal .decodeError .lengthTooShort (getUint 2 pkt)
  let (ciphersuiteLen, pkt) ← orFatal .decodeError .recordLengthMismatch (getUint 2 pkt)
  let (sessionIdLen, pkt) ← orFatal .decodeError .recordLengthMismatch (getUint 2 pkt)
  let (challengeLen, pkt) ← orFatal .decodeError .recordLengthMismatch (getUint 2 pkt)
  require (sessionIdLen ≤ sslMaxSslSessionIdLength) .illegalParameter .lengthMismatch
  let (ciphersuites, pkt) ← orFatal .decodeError .recordLengthMismatch
    (splitFront ciphersuiteLen pkt)
  let (sessionId, pkt) ← orFatal .decodeError .recordLengthMismatch (splitFront sessionIdLen pkt)
  let (challenge, pkt) ← orFatal .decodeError .recordLengthMismatch (splitFront challengeLen pkt)
  require (pkt = []) .decodeError .recordLengthMismatch
  pure ⟨true, version, challengeRandom challenge, sessionId, ciphersuites, [0]⟩

/-- The part of `tls_process_client_hello_ntls` for a regular ClientHello. -/
def parseClientHello (pkt : Bytes) : Except Fatal ClientHello := do
  let (version, pkt) ← orFatal .decodeError .lengthTooShort (getUint 2 pkt)
  let (random, pkt) ← orFatal .decodeError .lengthMismatch (splitFront ssl3RandomSize pkt)
  let (sessionId, pkt) ← orFatal .decodeError .lengthMismatch (getPrefixed 1 pkt)
  require (sessionId.length ≤ sslMaxSslSessionIdLength) .decodeError .lengthMismatch
  let (ciphersuites, pkt) ← orFatal .decodeError .lengthMismatch (getPrefixed 2 pkt)
  let (compression, pkt) ← orFatal .decodeError .lengthMismatch (getPrefixed 1 pkt)
  if pkt = [] then
    pure ⟨false, version, random, sessionId, ciphersuites, compression⟩
  else
    let (_, pkt) ← orFatal .decodeError .lengthMismatch (getPrefixed 2 pkt)
    require (pkt = []) .decodeError .lengthMismatch
    pure ⟨false, version, random, sessionId, ciphersuites, compression⟩

variable (lib : Libcrypto X509 Pkey) (ans : ServerAnswers X509)

/-- `tls_process_client_hello_ntls`.  A ClientHello after the first handshake
is not looked at. -/
def tlsProcessClientHello (pkt : Bytes) : Handshake X509 Pkey MsgProcess := do
  let s ← get
  if s.isFirstHandshake then
    let hello ← lift (if ans.isv2 then parseClientHelloV2 pkt else parseClientHello pkt)
    lift ans.collectExtensions
    modify fun s => { s with clienthello := some hello }
    pure .continueProcessing
  else
    ssl3SendWarning .noRenegotiation
    pure .finishedReading

/-- The cipher codes of a ClientHello, for `bytes_to_cipher_list`; an SSLv2
cipher has a leading byte that is not zero and is skipped. -/
def cipherCodes (isv2 : Bool) : Bytes → List Nat
  | a :: b :: c :: rest =>
    if isv2 then
      if a = 0 then ofUint [b, c] :: cipherCodes isv2 rest else cipherCodes isv2 rest
    else ofUint [a, b] :: cipherCodes isv2 (c :: rest)
  | [a, b] => if isv2 then [] else [ofUint [a, b]]
  | _ => []

/-- `ssl_cache_cipherlist`: the list is not empty and has whole entries. -/
def checkCipherList (hello : ClientHello) : Except Fatal Unit := do
  require (hello.ciphersuites ≠ []) .illegalParameter .noCiphersSpecified
  require (hello.ciphersuites.length % (if hello.isv2 then 3 else 2) = 0)
    .decodeError .errorInReceivedCipherList

/-- `ssl_get_new_session` with a session id -/
def sslGetNewSession : Handshake X509 Pkey Unit := do
  let sessionId ← orThrow ⟨.internalError, .internalError⟩ ans.sessionId
  modify fun s =>
    { s with session := { sslVersion := s.version, sessionId := sessionId, sidCtx := s.sidCtx } }

/-- `ssl_get_prev_session`: whether the session that was found is used.  NTLS
never reads the extended-master-secret extension, so a session made with it
is an error. -/
def sslGetPrevSession : Handshake X509 Pkey Bool := do
  modify fun s => { s with ext.ticketExpected := ans.ticketExpected }
  let s ← get
  match ← lift ans.lookup with
  | none => pure false
  | some ret =>
    if ret.sslVersion ≠ s.version ∨ ret.sidCtx ≠ s.sidCtx then pure false
    else
      check (¬ (hasBit s.verifyMode Verify.peer ∧ s.sidCtx = []))
        ⟨.internalError, .sessionIdContextUninitialized⟩
      if ans.timedOut then pure false
      else
        check (ret.extms = false) ⟨.illegalParameter, .inconsistentExtms⟩
        modify fun s => { s with session := ret, verifyResult := ret.verifyResult }
        pure true

/-- The version part of `tls_early_post_process_client_hello_ntls`, with
`ssl_choose_server_version_ntls`. -/
def checkHelloVersion (s : SSL X509 Pkey) (hello : ClientHello) : Except Fatal Unit := do
  require (hello.isv2 → hello.legacyVersion = ntlsVersion ∨
    (hello.legacyVersion ≠ 2 ∧ hello.legacyVersion / 256 = 3)) .protocolVersion .unknownProtocol
  require (s.version ≤ hello.legacyVersion) .protocolVersion .wrongSslVersion

/-- Resume a session or start a new one. -/
def chooseSession (hello : ClientHello) : Handshake X509 Pkey Unit := do
  if hello.isv2 ∨ ans.noResumption then sslGetNewSession ans
  else
    let found ← sslGetPrevSession ans
    if found then modify fun s => { s with hit := true } else sslGetNewSession ans

/-- The cipher of a resumed session has to be in the client's list. -/
def checkResumedCipher (hello : ClientHello) : Handshake X509 Pkey Unit := do
  let s ← get
  let c ← orThrow ⟨.internalError, .internalError⟩ s.session.cipher
  check (c.id % 65536 ∈ cipherCodes hello.isv2 hello.ciphersuites)
    ⟨.illegalParameter, .requiredCipherMissing⟩

/-- `tls_early_post_process_client_hello_ntls` behind the ClientHello callback.
The session-secret callback is for TLS 1.0 and later only. -/
def earlyPostProcess (hello : ClientHello) : Handshake X509 Pkey Unit := do
  modify fun s => { s with s3.clientRandom := hello.random, clientVersion := hello.legacyVersion }
  let s ← get
  lift (checkHelloVersion s hello)
  modify fun s => { s with hit := false }
  lift (checkCipherList hello)
  chooseSession ans hello
  let s ← get
  onlyIf s.hit (checkResumedCipher hello)
  check (0 ∈ hello.compressions) ⟨.decodeError, .noCompressionSpecified⟩
  let npnSeen ← lift ans.extensions
  modify fun s => { s with s3.npnSeen := npnSeen }
  let random ← orThrow ⟨.internalError, .internalError⟩ ans.serverRandom
  modify fun s => { s with s3.serverRandom := random.1 }
  let s ← get
  check (s.session.compressMeth = 0) ⟨.handshakeFailure, .inconsistentCompression⟩
  modify fun s => { s with clienthello := none }

/-- The choice of the cipher for a new session. -/
def chooseCipher : Handshake X509 Pkey Unit := do
  let c ← orThrow ⟨.handshakeFailure, .noSharedCipher⟩ ans.cipher
  modify fun s => { s with s3.tmp.newCipher := some c.1 }
  let sigalg ← lift (tlsChooseSigalg c.1)
  modify fun s =>
    { s with
      s3.tmp.sigalg := sigalg
      session.notResumable := ans.notResumable
      ext.ticketExpected := if ans.notResumable then false else s.ext.ticketExpected }

/-- `SSL_VERIFY_PEER | SSL_VERIFY_FAIL_IF_NO_PEER_CERT | SSL_VERIFY_CLIENT_ONCE` -/
def verifySm2dhe : Nat := Verify.peer ||| Verify.failIfNoPeerCert ||| Verify.clientOnce

/-- `tls_handle_status_request` -/
def tlsHandleStatusRequest (ans : StatusAnswer) : Handshake X509 Pkey Unit := do
  modify fun s => { s with ext.statusExpected := false }
  match ans with
  | .noack => pure ()
  | .ok resp => modify fun s => { s with ext.statusExpected := resp }
  | .fatal => sslFatal .internalError .clienthelloTlsext

/-- `tls_handle_alpn_ntls`: a selected protocol takes precedence over
next-protocol. -/
def tlsHandleAlpn (ans : AlpnAnswer) : Handshake X509 Pkey Unit := match ans with
  | .noack => pure ()
  | .ok => modify fun s => { s with s3.npnSeen := false }
  | .fatal => sslFatal .noApplicationProtocol .noApplicationProtocol

/-- The end of `tls_post_process_client_hello_ntls`.  A suite with `kSM2DHE`
replaces the verify mode of the connection. -/
def finishClientHello : Handshake X509 Pkey Work := do
  modify fun s =>
    { s with verifyMode := if hasBit s.mkey Mkey.kSM2DHE then verifySm2dhe else s.verifyMode }
  tlsHandleStatusRequest ans.status
  tlsHandleAlpn ans.alpn
  pure .finishedStop

/-- The part of `tls_post_process_client_hello_ntls` under `WORK_MORE_B`. -/
def chooseRound : Handshake X509 Pkey Work := do
  let s ← get
  if s.hit then
    modify fun s => { s with s3.tmp.newCipher := s.session.cipher }
    finishClientHello ans
  else
    match ans.certCb with
    | .failed _ => sslFatal .internalError .certCbError
    | .retry => pure .moreB
    | .proceed =>
      chooseCipher ans
      finishClientHello ans

/-- `tls_post_process_client_hello_ntls` -/
def tlsPostProcessClientHello (wst : Work) : Handshake X509 Pkey Work := do
  match wst with
  | .moreA =>
    let s ← get
    let hello ← orThrow ⟨.internalError, .internalError⟩ s.clienthello
    match ans.clientHelloCb with
    | .retry => pure .moreA
    | .failed al => sslFatal al .callbackFailed
    | .proceed =>
      earlyPostProcess ans hello
      chooseRound ans
  | .moreB => chooseRound ans
  | _ => pure .finishedStop

/-! ## the client's certificates -/

/-- One of the two chains that a client certificate message is checked for. -/
def verifyClientChain (ans : VerifyAnswer) (certs : List X509) : Handshake X509 Pkey Unit := do
  let i ← sslVerifyCertChain ans certs
  check (0 < i) ⟨sslX509err2alert ans.verifyResult, .certificateVerifyFailed⟩
  check ((certs.head?.bind lib.x509GetPubkey).isSome) ⟨.handshakeFailure, .unknownCertificateType⟩

/-- What `tls_process_client_certificate_ntls` checks on the certificates it
read. -/
def checkClientCerts (sk : List X509) : Handshake X509 Pkey Unit := do
  let s ← get
  match sk with
  | [] =>
    check (¬ hasBit s.mkey Mkey.kSM2DHE) ⟨.handshakeFailure, .noCertificatesReturned⟩
    check (¬ (hasBit s.verifyMode Verify.peer ∧ hasBit s.verifyMode Verify.failIfNoPeerCert))
      ⟨.certificateRequired, .peerDidNotReturnACertificate⟩
    onlyIf (s.s3.handshakeBuffer.isSome) (ssl3DigestCachedRecords false)
  | [_] => sslFatal .handshakeFailure .noCertificatesReturned
  | _ :: _ :: _ =>
    -- the encryption certificate is made the leaf, and then the signing one again
    verifyClientChain lib ans.verifyEnc (pushShift sk)
    verifyClientChain lib ans.verifySign (unshiftPop (pushShift sk))

/-- The certificates in the body of a client's Certificate message. -/
def parseClientCertificate (pkt : Bytes) : Except Fatal (List X509) := do
  let (spkt, pkt) ← orFatal .decodeError .lengthMismatch (getPrefixed 3 pkt)
  require (pkt = []) .decodeError .lengthMismatch
  certItems lib .decodeError spkt

/-- `tls_process_client_certificate_ntls` -/
def tlsProcessClientCertificate (pkt : Bytes) : Handshake X509 Pkey MsgProcess := do
  let sk ← lift (parseClientCertificate lib pkt)
  checkClientCerts lib ans sk
  modify fun s =>
    { s with
      session.peer := sk.head?
      session.verifyResult := s.verifyResult
      session.peerChain := sk.tail }
  pure .continueReading

/-! ## ClientKeyExchange and NextProto -/

/-- `tls_process_client_key_exchange_ntls` with the derivation of the master
secret. -/
def processClientKeyExchange (pkt : Bytes) : Handshake X509 Pkey MsgProcess := do
  let s ← get
  let (pms, kex) ← lift (tlsProcessClientKeyExchange lib ans.heap s pkt)
  modify fun s => { s with s3.tmp.kex := kex }
  sslGenerateMasterSecret lib pms
  pure .continueProcessing

/-- `tls_post_process_client_key_exchange_ntls` -/
def tlsPostProcessClientKeyExchange : Handshake X509 Pkey Work := do
  let s ← get
  if s.statem.noCertVerify ∨ s.session.peer.isNone then
    ssl3DigestCachedRecords false
    pure .finishedContinue
  else
    check (s.s3.handshakeBuffer.isSome) ⟨.internalError, .internalError⟩
    ssl3DigestCachedRecords true
    pure .finishedContinue

/-- `tls_process_next_proto_ntls` -/
def tlsProcessNextProto (pkt : Bytes) : Handshake X509 Pkey MsgProcess := do
  let (_, pkt) ← orThrow ⟨.decodeError, .lengthMismatch⟩ (getPrefixed 1 pkt)
  let (_, pkt) ← orThrow ⟨.decodeError, .lengthMismatch⟩ (getPrefixed 1 pkt)
  check (pkt = []) ⟨.decodeError, .lengthMismatch⟩
  pure .continueReading

/-! ## the server's messages -/

/-- `tls_construct_server_hello_ntls` -/
def tlsConstructServerHello : Handshake X509 Pkey Bytes := do
  modify fun s =>
    { s with
      session.sessionId :=
        if s.session.notResumable ∨ (s.sessionCacheServer = false ∧ s.hit = false) then []
        else s.session.sessionId }
  let s ← get
  check (s.session.sessionId.length ≤ sslMaxSslSessionIdLength) ⟨.internalError, .internalError⟩
  let c ← orThrow ⟨.internalError, .internalError⟩ s.s3.tmp.newCipher
  let exts ← lift ans.serverHelloExts
  onlyIf (¬ hasBit s.verifyMode Verify.peer) (ssl3DigestCachedRecords false)
  pure (putUint 2 s.version ++ s.s3.serverRandom ++ putUint 1 s.session.sessionId.length ++
    s.session.sessionId ++ putUint 2 c.id ++ [0] ++ exts)

/-- `tls_construct_server_certificate_ntls` -/
def tlsConstructServerCertificate (s : SSL X509 Pkey) : Except Fatal Bytes := do
  let sa ← orFatal .internalError .internalError s.s3.tmp.sigalg
  let body ← sslAddCertChain lib (sa.slots s.cert).1 (sa.slots s.cert).2 ans.chain
  orFatal .internalError .internalError (putPrefixed 3 body)

/-- `tls_construct_certificate_request_ntls` -/
def tlsConstructCertificateRequest : Handshake X509 Pkey Bytes := do
  let types ← orThrow ⟨.internalError, .internalError⟩ (putPrefixed 1 ans.certTypes)
  let names ← orThrow ⟨.internalError, .internalError⟩ (putPrefixed 2 ans.caNames)
  modify fun s => { s with certreqsSent := s.certreqsSent + 1, s3.tmp.certRequest := true }
  pure (types ++ names)

/-- `tls_construct_server_done_ntls` -/
def tlsConstructServerDone : Handshake X509 Pkey Bytes := do
  let s ← get
  onlyIf (s.s3.tmp.certRequest = false) (ssl3DigestCachedRecords false)
  pure []

/-- `tls_construct_server_key_exchange_ntls` on the connection object. -/
def constructServerKeyExchange : Handshake X509 Pkey Bytes := do
  let s ← get
  let (body, s') ← lift (tlsConstructServerKeyExchange lib ans.ske s)
  modify fun s => { s with s3.tmp.kex := s'.s3.tmp.kex, session.kexGroup := s'.session.kexGroup }
  pure body

/-- `ossl_statem_server_construct_message_ntls` and the constructor it picks. -/
def serverConstructMessage : Handshake X509 Pkey (MsgType × Bytes) := do
  let s ← get
  match s.statem.handState with
  | .swChange => pure (.changeCipherSpec, [])
  | .swHelloReq => pure (.helloRequest, [])
  | .swSrvrHello => do
      let body ← tlsConstructServerHello ans
      pure (.serverHello, body)
  | .swCert => do
      let body ← lift (tlsConstructServerCertificate lib ans s)
      pure (.certificate, body)
  | .swKeyExch => do
      let body ← constructServerKeyExchange lib ans
      pure (.serverKeyExchange, body)
  | .swCertReq => do
      let body ← tlsConstructCertificateRequest ans
      pure (.certificateRequest, body)
  | .swSrvrDone => do
      let body ← tlsConstructServerDone
      pure (.serverDone, body)
  | .swSessionTicket => do
      let body ← lift ans.ticket
      pure (.newSessionTicket, body)
  | .swCertStatus => do
      let resp ← orThrow ⟨.internalError, .internalError⟩ (putPrefixed 3 ans.ocspResp)
      pure (.certificateStatus, 1 :: resp)
  | .swFinished => do
      let body ← tlsConstructFinished lib
      pure (.finished, body)
  | _ => sslFatal .internalError .badHandshakeState

/-- `ossl_statem_server_pre_work_ntls`.  The cipher of a session is written
once. -/
def serverPreWork : Handshake X509 Pkey Work := do
  let s ← get
  match s.statem.handState with
  | .swChange =>
    check (s.session.cipher = none ∨ s.session.cipher = s.s3.tmp.newCipher)
      ⟨.internalError, .internalError⟩
    modify fun s => { s with session.cipher := s.s3.tmp.newCipher }
    pure .finishedContinue
  | .ok => tlsFinishHandshake
  | _ => pure .finishedContinue

/-- `ossl_statem_server_post_work_ntls`: a HelloRequest is not part of the
transcript. -/
def serverPostWork : Handshake X509 Pkey Unit := do
  let s ← get
  if s.statem.handState = .swHelloReq then ssl3InitFinishedMac else pure ()

/-! ## the machine -/

/-- `ossl_statem_server_max_message_size_ntls` -/
def serverMaxMessageSize (s : SSL X509 Pkey) : Nat := match s.statem.handState with
  | .srClntHello => 131396
  | .srCert => s.maxCertList
  | .srKeyExch => 2048
  | .srCertVrfy => ssl3RtMaxPlainLength
  | .srNextProto => 514
  | .srChange => 1
  | .srFinished => 64
  | _ => 0

/-- `ossl_statem_server_process_message_ntls` -/
def serverProcessMessage (pkt : Bytes) : Handshake X509 Pkey MsgProcess := do
  let s ← get
  match s.statem.handState with
  | .srClntHello => tlsProcessClientHello ans pkt
  | .srCert => tlsProcessClientCertificate lib ans pkt
  | .srKeyExch => processClientKeyExchange lib ans pkt
  | .srCertVrfy => tlsProcessCertVerify lib pkt
  | .srNextProto => tlsProcessNextProto pkt
  | .srChange => tlsProcessChangeCipherSpec pkt
  | .srFinished => tlsProcessFinished pkt
  | _ => sslFatal .internalError .internalError

/-- `ossl_statem_server_post_process_message_ntls` -/
def serverPostProcess (wst : Work) : Handshake X509 Pkey Work := do
  let s ← get
  match s.statem.handState with
  | .srClntHello => tlsPostProcessClientHello ans wst
  | .srKeyExch => tlsPostProcessClientKeyExchange
  | _ => sslFatal .internalError .internalError

/-- The NTLS server. -/
def server : Machine X509 Pkey (ServerAnswers X509) where
  isServer := true
  readTransition mt := do
    let s ← get
    let h ← lift (serverReadTransition s mt)
    modify fun s => { s with statem.handState := h }
  maxMessageSize := serverMaxMessageSize
  processMessage := serverProcessMessage lib
  postProcessMessage := serverPostProcess
  writeTransition _ := serverWriteTransition
  preWork _ _ := serverPreWork
  constructMessage := serverConstructMessage lib
  postWork _ := serverPostWork

end Tlcp
