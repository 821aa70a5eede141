import Tlcp.Ssl.KeyTypes

/-!
# Tlcp.Ntls.Common

The parts of the handshake that the NTLS client and server share
(`ntls_statem_lib.c`): the certificate list, the transcript entry of a
received message, ChangeCipherSpec, CertificateVerify and Finished, and the
byte string that a ServerKeyExchange signature covers.

Each processor comes with the lemma that says what it did when it accepted.
-/

namespace Tlcp

open Octets Fallible

variable {X509 Pkey : Type}
variable {lib : Libcrypto X509 Pkey} {u : Unit} {mt : MsgType} {body pkt T data : Bytes}
  {r : MsgProcess} {dg bf : Option Bytes}

/-- `MSG_PROCESS_RETURN` of a processor that did not fail. -/
inductive MsgProcess where
  | finishedReading
  | continueProcessing
  | continueReading
  deriving DecidableEq, Repr

/-- The answer of a callback that may ask to be called again. -/
inductive CbAnswer where
  | proceed
  | retry
  | failed (al : Alert)
  deriving DecidableEq, Repr

/-! ## alerts -/

/-- `ntls_alert_code`: what an alert is on the wire, if NTLS has it. -/
def ntlsAlertCode : Alert → Option Nat
  | .unexpectedMessage => some 10
  | .recordOverflow => some 22
  | .handshakeFailure | .certificateRequired => some 40
  | .badCertificate => some 42
  | .unsupportedCertificate => some 43
  | .certificateRevoked => some 44
  | .certificateExpired => some 45
  | .certificateUnknown => some 46
  | .illegalParameter => some 47
  | .unknownCa => some 48
  | .decodeError => some 50
  | .decryptError => some 51
  | .protocolVersion => some 70
  | .internalError => some 80
  | .unsupportedExtension => some 110
  | .badCertificateStatusResponse => some 113
  | .noApplicationProtocol => some 120
  | .missingExtension | .noRenegotiation | .noAlert => none

/-- `ssl3_send_alert` with `SSL3_AL_WARNING`: an alert that has no code is not sent. -/
def ssl3SendWarning (desc : Alert) : Handshake X509 Pkey Unit := match ntlsAlertCode desc with
  | some code => modify fun s => { s with warnings := s.warnings ++ [code] }
  | none => pure ()

@[simp] theorem ssl3SendWarning_noRenegotiation :
    (ssl3SendWarning .noRenegotiation : Handshake X509 Pkey Unit) = pure () := rfl

/-! ## certificates -/

/-- What one call of the certificate verifier answered: its return value, the
error it left in `verify_result`, and whether the callback asked to be called
again later (`SSL_RETRY_VERIFY`). -/
structure VerifyAnswer where
  i : Int
  verifyResult : Int := 0
  retry : Bool := false
  deriving DecidableEq, Repr

/-- `ssl_x509err2alert` -/
def sslX509err2alert (err : Int) : Alert := if err = 50 then .handshakeFailure
  else if err ∈ [10, 12] then .certificateExpired
  else if err = 23 then .certificateRevoked
  else if err = 26 then .unsupportedCertificate
  else if err ∈ [7, 8] then .decryptError
  else if err ∈ [1, 17, 69, 70] then .internalError
  else if err ∈ [2, 3, 18, 19, 20, 21, 22, 25, 33, 79] then .unknownCa
  else if err ∈ [4, 5, 6, 9, 11, 13, 14, 15, 16, 27, 28, 62, 63, 64, 65, 66, 67, 68, 94] then
    .badCertificate
  else .certificateUnknown

/-- `ssl_verify_cert_chain` -/
def sslVerifyCertChain (ans : VerifyAnswer) (certs : List X509) : Handshake X509 Pkey Int := do
  record (.chain certs ans.i)
  modify fun s => { s with verifyResult := ans.verifyResult }
  pure ans.i

variable (lib)

/-- One certificate of a list: its length in three bytes and its DER form. -/
def certItem (badDer : Alert) (buf : Bytes) : Except Fatal (X509 × Bytes) :=
  match getPrefixed 3 buf with
  | none => .error ⟨.decodeError, .certLengthMismatch⟩
  | some (der, rest) =>
    match lib.d2iX509 der with
    | none => .error ⟨badDer, .asn1Lib⟩
    | some (x, []) => .ok (x, rest)
    | some (_, _ :: _) => .error ⟨.decodeError, .certLengthMismatch⟩

/-- The certificates of a list, in order. -/
def certItems (badDer : Alert) (buf : Bytes) : Except Fatal (List X509) :=
  readAll (certItem lib badDer) ⟨.internalError, .internalError⟩ buf.length buf

/-- `sk_X509_push(sk, sk_X509_shift(sk))`: the first certificate goes last. -/
def pushShift : List X509 → List X509
  | [] => []
  | x :: xs => xs ++ [x]

/-- `sk_X509_unshift(sk, sk_X509_pop(sk))`: the last certificate goes first. -/
def unshiftPop (xs : List X509) : List X509 := match xs.getLast? with
  | none => []
  | some x => x :: xs.dropLast

@[simp] theorem unshiftPop_pushShift (xs : List X509) : unshiftPop (pushShift xs) = xs := by
  cases xs with
  | nil => rfl
  | cons x xs => simp [pushShift, unshiftPop]

/-- `x509_to_asn1_ntls`: a certificate behind its length in three bytes. -/
def x509ToAsn1 (x : X509) : Option Bytes := match lib.i2dX509 x with
  | none => none
  | some [] => none
  | some der => some (putUint 3 der.length ++ der)

/-- `construct_key_exchange_tbs_ntls` -/
def constructKeyExchangeTbs (s3 : S3 Pkey) (param : Bytes) : Bytes :=
  s3.clientRandom ++ s3.serverRandom ++ param

/-! ## the certificates of one's own -/

/-- The signature algorithm of `tls_choose_sigalg_ntls` for a cipher. -/
def tlsChooseSigalg (c : SslCipher) : Except Fatal (Option SigAlg) :=
  if ¬ hasBit c.algorithmAuth Auth.aCERT then .ok none
  else if hasBit c.algorithmMkey (Mkey.kKyber ||| Mkey.kKyberAigisEnc) then .ok (some .ntlsMldsa)
  else if hasBit c.algorithmMkey
      (Mkey.kSM2 ||| Mkey.kSM2DHE ||| Mkey.kECCKyber ||| Mkey.kECDHEKyber) then
    .ok (some .ntlsSm2)
  else if hasBit c.algorithmMkey Mkey.kRSA then .ok (some .ntlsRsa)
  else .error ⟨.illegalParameter, .unknownKeyExchangeType⟩

/-- `ssl_add_cert_to_wpacket_ntls` -/
def sslAddCertToWpacket (x : X509) : Except Fatal Bytes :=
  orFatal .internalError .bufLib ((lib.i2dX509 x).bind (putPrefixed 3))

/-- The slots of a signature algorithm: `pkeys[sig_idx]` and the next one. -/
def SigAlg.slots (sa : SigAlg) (cert : Cert X509 Pkey) : CertPkey X509 Pkey × CertPkey X509 Pkey :=
  match sa with
  | .ntlsRsa => (cert.rsaSign, cert.rsaEnc)
  | .ntlsSm2 | .ntlsMldsa => (cert.sm2Sign, cert.sm2Enc)

/-- `ssl_add_cert_chain_ntls`: the signing certificate, the encryption
certificate, then the rest of the chain; nothing if one of the two is not
there. -/
def sslAddCertChain (sign enc : CertPkey X509 Pkey) (chain : List X509) : Except Fatal Bytes :=
  match sign.x509, enc.x509 with
  | some a, some k => do
      let ders ← (a :: k :: chain).mapM (sslAddCertToWpacket lib)
      pure ders.flatten
  | _, _ => .ok []

/-! ## the master secret -/

/-- `tls1_generate_master_secret`: over the transcript if the extended master
secret was agreed, over the two randoms otherwise. -/
def tls1GenerateMasterSecret (pms : Bytes) : Handshake X509 Pkey Bytes := do
  let s ← get
  let c ← orThrow ⟨.internalError, .internalError⟩ s.s3.tmp.newCipher
  if s.session.extms then
    ssl3DigestCachedRecords true
    let s ← get
    pure (lib.prf c.handshakeMac "extended master secret"
      (lib.digest c.handshakeMac s.transcript) pms sslMaxMasterKeyLength)
  else
    pure (lib.prf c.handshakeMac "master secret" (s.s3.clientRandom ++ s.s3.serverRandom) pms
      sslMaxMasterKeyLength)

/-- `ssl_generate_master_secret`; the client forgets the premaster secret. -/
def sslGenerateMasterSecret (pms : Bytes) : Handshake X509 Pkey Unit := do
  let masterKey ← tls1GenerateMasterSecret lib pms
  modify fun s =>
    { s with
      session.masterKey := masterKey
      s3.tmp.kex.pms := if s.server then s.s3.tmp.kex.pms else none }

variable {lib}

variable {s t : SSL X509 Pkey}

theorem tls1GenerateMasterSecret_ok {pms mk : Bytes}
    (h : (tls1GenerateMasterSecret lib pms).run s = .ok mk t) :
    t = s ∨ t = { s with s3.handshakeDgst := some s.transcript } := by
  rw [tls1GenerateMasterSecret, run_get_bind_ok, run_orThrow_bind_ok] at h
  obtain ⟨c, _, h⟩ := h
  split at h
  · obtain ⟨_, s', hdigest, h⟩ := run_bind_ok.mp h
    rw [run_get_bind_ok, run_pure_ok] at h
    have hs' := ssl3DigestCachedRecords_ok hdigest
    exact .inr (by rw [← h.2, hs']; rfl)
  · rw [run_pure_ok] at h
    exact .inl h.2.symm

/-- The derivation writes the master key, and may start the running hash; the
buffer stays. -/
theorem sslGenerateMasterSecret_ok {pms : Bytes}
    (h : (sslGenerateMasterSecret lib pms).run s = .ok u t) :
    ∃ mk dg, (dg = s.s3.handshakeDgst ∨ dg = some s.transcript) ∧ t = { s with
        session.masterKey := mk, s3.handshakeDgst := dg,
        s3.tmp.kex.pms := if s.server then s.s3.tmp.kex.pms else none } := by
  obtain ⟨mk, s', hmk, h⟩ := run_bind_ok.mp h
  rw [run_modify_ok] at h
  cases tls1GenerateMasterSecret_ok hmk with
  | inl hs' => exact ⟨mk, s.s3.handshakeDgst, .inl rfl, by rw [← h, hs']⟩
  | inr hs' => exact ⟨mk, some s.transcript, .inr rfl, by rw [← h, hs']⟩

/-! ## Finished -/

/-- The label in a Finished MAC, by its sender. -/
def finishedLabel (fromServer : Bool) : String :=
  if fromServer then "server finished" else "client finished"

variable (lib)

/-- `tls1_final_finish_mac`, as a function of the master key and the
transcript. -/
def finishMac (md : Md) (masterKey : Bytes) (label : String) (transcript : Bytes) : Bytes :=
  lib.prf md label (lib.digest md transcript) masterKey 12

/-- `final_finish_mac`: the transcript is hashed and the buffer dropped. -/
def finalFinishMac (label : String) : Handshake X509 Pkey Bytes := do
  ssl3DigestCachedRecords false
  let s ← get
  let c ← orThrow ⟨.internalError, .internalError⟩ s.s3.tmp.newCipher
  pure (finishMac lib c.handshakeMac s.session.masterKey label s.transcript)

/-- `ssl3_take_mac_ntls`: the MAC that the peer's Finished has to carry. -/
def ssl3TakeMac : Handshake X509 Pkey Unit := do
  let s ← get
  let mac ← finalFinishMac lib (finishedLabel (!s.server))
  modify fun s => { s with s3.tmp.peerFinishMd := some mac }

variable {lib}

theorem finalFinishMac_ok {label : String} {mac : Bytes}
    (h : (finalFinishMac lib label).run s = .ok mac t) :
    ∃ c, s.s3.tmp.newCipher = some c ∧
      mac = finishMac lib c.handshakeMac s.session.masterKey label s.transcript ∧
      t = { s with s3.handshakeDgst := some s.transcript, s3.handshakeBuffer := none } := by
  obtain ⟨_, s', hdigest, h⟩ := run_bind_ok.mp h
  have hs' := ssl3DigestCachedRecords_ok hdigest
  rw [run_get_bind_ok, run_orThrow_bind_ok] at h
  obtain ⟨c, hc, h⟩ := h
  rw [run_pure_ok] at h
  obtain ⟨hmac, ht⟩ := h
  subst ht hmac hs'
  exact ⟨c, hc, rfl, rfl⟩

theorem ssl3TakeMac_ok
    (h : (ssl3TakeMac lib).run s = .ok u t) :
    ∃ c, s.s3.tmp.newCipher = some c ∧ t = { s with
        s3.handshakeDgst := some s.transcript
        s3.handshakeBuffer := none
        s3.tmp.peerFinishMd := some (finishMac lib c.handshakeMac s.session.masterKey
          (finishedLabel (!s.server)) s.transcript) } := by
  rw [ssl3TakeMac, run_get_bind_ok] at h
  obtain ⟨mac, s', hmac, h⟩ := run_bind_ok.mp h
  obtain ⟨c, hc, hm, hs'⟩ := finalFinishMac_ok hmac
  rw [run_modify_ok] at h
  exact ⟨c, hc, by rw [← h, hs', hm]⟩

/-- `tls_construct_finished_ntls` -/
def tlsConstructFinished (lib : Libcrypto X509 Pkey) : Handshake X509 Pkey Bytes := do
  let s ← get
  modify fun s => { s with statem.cleanuphand := !s.server || s.statem.cleanuphand }
  let mac ← finalFinishMac lib (finishedLabel s.server)
  modify fun s => { s with s3.tmp.finishMd := some mac }
  pure mac

/-- `tls_process_finished_ntls` -/
def tlsProcessFinished (pkt : Bytes) : Handshake X509 Pkey MsgProcess := do
  let s ← get
  modify fun s => { s with statem.cleanuphand := s.server || s.statem.cleanuphand }
  check (s.s3.changeCipherSpec) ⟨.unexpectedMessage, .gotAFinBeforeACcs⟩
  modify fun s => { s with s3.changeCipherSpec := false }
  let md := s.s3.tmp.peerFinishMd.getD []
  check (md.length = pkt.length) ⟨.decodeError, .badDigestLength⟩
  check (pkt = md) ⟨.decryptError, .digestCheckFailed⟩
  pure .finishedReading

theorem tlsConstructFinished_ok {mac : Bytes}
    (h : (tlsConstructFinished lib).run s = .ok mac t) :
    ∃ c, s.s3.tmp.newCipher = some c ∧
      mac = finishMac lib c.handshakeMac s.session.masterKey (finishedLabel s.server)
        s.transcript ∧
      t = { s with
        s3.handshakeDgst := some s.transcript, s3.handshakeBuffer := none,
        s3.tmp.finishMd := some mac, statem.cleanuphand := !s.server || s.statem.cleanuphand } := by
  rw [tlsConstructFinished, run_get_bind_ok, run_modify_bind_ok] at h
  obtain ⟨mac', s₂, hmac, h⟩ := run_bind_ok.mp h
  rw [run_modify_bind_ok, run_pure_ok] at h
  obtain ⟨hm, ht⟩ := h
  subst hm ht
  obtain ⟨c, hc, hmac', hs₂⟩ := finalFinishMac_ok hmac
  subst hs₂
  exact ⟨c, hc, hmac', rfl⟩

/-- A Finished is accepted only if it is the expected MAC. -/
theorem tlsProcessFinished_ok
    (h : (tlsProcessFinished pkt).run s = .ok r t) :
    r = .finishedReading ∧ pkt = s.s3.tmp.peerFinishMd.getD [] ∧ t = { s with
        s3.changeCipherSpec := false, statem.cleanuphand := s.server || s.statem.cleanuphand } := by
  rw [tlsProcessFinished, run_get_bind_ok, run_modify_bind_ok] at h
  rw [run_check_bind_ok, run_modify_bind_ok, run_check_bind_ok, run_check_bind_ok, run_pure_ok] at h
  obtain ⟨_, _, hpkt, hr, ht⟩ := h
  subst ht
  exact ⟨hr.symm, hpkt, rfl⟩

/-! ## reading a message -/

/-- The random of a HelloRetryRequest. -/
def hrrrandom : Bytes :=
  [ 0xcf, 0x21, 0xad, 0x74, 0xe5, 0x9a, 0x61, 0x11, 0xbe, 0x1d, 0x8c, 0x02, 0x1e, 0x65, 0xb8, 0x91,
    0xc2, 0xa2, 0x11, 0x16, 0x7a, 0xbb, 0x8c, 0x5e, 0x07, 0x9e, 0x09, 0xe2, 0xc8, 0xa8, 0x33, 0x9c ]

/-- A ServerHello body that carries the random of a HelloRetryRequest. -/
def isHrr (mt : MsgType) (body : Bytes) : Prop :=
  mt = .serverHello ∧ 2 + ssl3RandomSize + 4 ≤ body.length ∧
    (body.drop 2).take ssl3RandomSize = hrrrandom

instance (mt : MsgType) (body : Bytes) : Decidable (isHrr mt body) :=
  inferInstanceAs (Decidable (_ ∧ _ ∧ _))

theorem not_isHrr (body : Bytes) (h : mt ≠ .serverHello) : ¬ isHrr mt body := fun hh => h hh.1

/-- The end of `tls_get_message_body_ntls`: take the MAC before a Finished,
then add the message to the transcript.  ChangeCipherSpec is no handshake
message, and a HelloRetryRequest is left to its processor. -/
def tlsGetMessageBody (lib : Libcrypto X509 Pkey) (mt : MsgType) (body : Bytes) :
    Handshake X509 Pkey Unit := do
  onlyIf (mt = .finished) (ssl3TakeMac lib)
  onlyIf (mt ≠ .changeCipherSpec ∧ ¬ isHrr mt body) (ssl3FinishMac (handshakeBytes mt body))

theorem tlsGetMessageBody_changeCipherSpec
    (h : (tlsGetMessageBody lib .changeCipherSpec body).run s = .ok u t) : t = s := by
  obtain ⟨_, s₁, hmac, h⟩ := run_bind_ok.mp h
  have h₁ : s = s₁ := by simpa [run_onlyIf_ok] using hmac
  have h₂ : s₁ = t := by simpa [run_onlyIf_ok] using h
  rw [h₁, h₂]

theorem tlsGetMessageBody_finished
    (h : (tlsGetMessageBody lib .finished body).run s = .ok u t) :
    ∃ c, s.s3.tmp.newCipher = some c ∧ t = { s with
        s3.handshakeDgst := some (s.transcript ++ handshakeBytes .finished body)
        s3.handshakeBuffer := none
        s3.tmp.peerFinishMd := some (finishMac lib c.handshakeMac s.session.masterKey
          (finishedLabel (!s.server)) s.transcript) } := by
  obtain ⟨_, s₁, hmac, h⟩ := run_bind_ok.mp h
  have hmac' : (ssl3TakeMac lib).run s = .ok () s₁ := by simpa [run_onlyIf_ok] using hmac
  have h' : (ssl3FinishMac (handshakeBytes .finished body)).run s₁ = .ok u t := by
    simpa [run_onlyIf_ok, not_isHrr] using h
  obtain ⟨c, hc, hs₁⟩ := ssl3TakeMac_ok hmac'
  subst hs₁
  cases ssl3FinishMac_ok h' with
  | inl hd =>
    obtain ⟨d, hd, ht⟩ := hd
    injection hd with hd
    subst hd
    exact ⟨c, hc, ht⟩
  | inr hb => simp at hb

/-- Any message but a ChangeCipherSpec, a Finished and a HelloRetryRequest is
added to the transcript and changes nothing else. -/
theorem tlsGetMessageBody_other
    (hccs : mt ≠ .changeCipherSpec) (hfin : mt ≠ .finished) (hhrr : ¬ isHrr mt body)
    (h : (tlsGetMessageBody lib mt body).run s = .ok u t) :
    (ssl3FinishMac (handshakeBytes mt body)).run s = .ok u t := by
  obtain ⟨_, s₁, hmac, h⟩ := run_bind_ok.mp h
  have h₁ : s = s₁ := by simpa [run_onlyIf_ok, hfin] using hmac
  subst h₁
  simpa [run_onlyIf_ok, hccs, hhrr] using h

/-! ## the transcript and the history -/

/-- What an entry of the history adds to the transcript. -/
def Obs.bytes : Obs X509 → Bytes
  | .accepted mt body =>
    if mt ≠ .changeCipherSpec ∧ ¬ isHrr mt body then handshakeBytes mt body else []
  | .sent mt body => if mt ≠ .changeCipherSpec then handshakeBytes mt body else []
  | .chain _ _ => []

@[simp] theorem Obs.bytes_chain (certs : List X509) (i : Int) : (Obs.chain certs i).bytes = [] :=
  rfl

@[simp] theorem Obs.bytes_change (body : Bytes) :
    (.accepted .changeCipherSpec body : Obs X509).bytes = [] := by
  simp [Obs.bytes]

/-- The handshake messages of a history, in order. -/
def transcriptOf (tr : List (Obs X509)) : Bytes := tr.flatMap Obs.bytes

@[simp] theorem transcriptOf_nil : transcriptOf ([] : List (Obs X509)) = [] := rfl

@[simp] theorem transcriptOf_append (tr tr' : List (Obs X509)) :
    transcriptOf (tr ++ tr') = transcriptOf tr ++ transcriptOf tr' :=
  List.flatMap_append

@[simp] theorem transcriptOf_cons (o : Obs X509) (tr : List (Obs X509)) :
    transcriptOf (o :: tr) = o.bytes ++ transcriptOf tr :=
  rfl

/-- The running hash `dg` and the buffer `bf` stand for the transcript `T`: the
hash if there is one, the buffer otherwise. -/
structure Hashes (dg bf : Option Bytes) (T : Bytes) : Prop where
  dgst : ∀ d, dg = some d → d = T
  buffer : dg = none → bf = some T

/-- The transcript that an object hashes is the one of its history. -/
def Synced (s : SSL X509 Pkey) : Prop :=
  Hashes s.s3.handshakeDgst s.s3.handshakeBuffer (transcriptOf s.trace)

theorem Hashes.transcript (h : Hashes s.s3.handshakeDgst s.s3.handshakeBuffer T) :
    s.transcript = T := by
  unfold SSL.transcript
  split
  · next d hd => exact h.dgst d hd
  · next hd => rw [h.buffer hd]; rfl

theorem Hashes.feed
    (h : Hashes s.s3.handshakeDgst s.s3.handshakeBuffer T)
    (hmac : (ssl3FinishMac data).run s = .ok u t) :
    Hashes t.s3.handshakeDgst t.s3.handshakeBuffer (T ++ data) := by
  cases ssl3FinishMac_ok hmac with
  | inl hd =>
    obtain ⟨d, hd, ht⟩ := hd
    subst ht
    exact ⟨by simp [h.dgst d hd], by simp⟩
  | inr hb =>
    obtain ⟨b, hd, hb, ht⟩ := hb
    have hT := h.buffer hd
    rw [hb] at hT
    injection hT with hT
    subst ht hT
    exact ⟨by simp [hd], by simp⟩

/-- The pair that `ssl3_digest_cached_records` leaves, or the one from before. -/
def Digested (s : SSL X509 Pkey) (dg bf : Option Bytes) : Prop :=
  (dg = s.s3.handshakeDgst ∧ bf = s.s3.handshakeBuffer) ∨
    (dg = some s.transcript ∧ (bf = s.s3.handshakeBuffer ∨ bf = none))

theorem Hashes.digested
    (h : Hashes s.s3.handshakeDgst s.s3.handshakeBuffer T) (hd : Digested s dg bf) :
    Hashes dg bf T := by
  cases hd with
  | inl hsame => rw [hsame.1, hsame.2]; exact h
  | inr hdone =>
    rw [hdone.1, h.transcript]
    exact ⟨by simp, by simp⟩

/-- The pair of running hash and buffer after a message was fed to it. -/
structure Fed (s : SSL X509 Pkey) (data : Bytes) (dg bf : Option Bytes) : Prop where
  hashes : ∀ T, Hashes s.s3.handshakeDgst s.s3.handshakeBuffer T → Hashes dg bf (T ++ data)
  unstarted : dg = none ↔ s.s3.handshakeDgst = none
  started : s.s3.handshakeDgst ≠ none → bf = s.s3.handshakeBuffer

theorem Fed.of_ssl3FinishMac
    (h : (ssl3FinishMac data).run s = .ok u t) :
    Fed s data t.s3.handshakeDgst t.s3.handshakeBuffer ∧ t = { s with
        s3.handshakeDgst := t.s3.handshakeDgst, s3.handshakeBuffer := t.s3.handshakeBuffer } := by
  have hfeed : ∀ T, Hashes s.s3.handshakeDgst s.s3.handshakeBuffer T → _ := fun T hT =>
    Hashes.feed hT h
  cases ssl3FinishMac_ok h with
  | inl hd =>
    obtain ⟨d, hd, ht⟩ := hd
    subst ht
    exact ⟨⟨hfeed, by simp [hd], fun _ => rfl⟩, rfl⟩
  | inr hb =>
    obtain ⟨b, hd, _, ht⟩ := hb
    subst ht
    exact ⟨⟨hfeed, Iff.rfl, by simp [hd]⟩, rfl⟩

theorem synced_accepted {tr : List (Obs X509)}
    (hccs : mt ≠ .changeCipherSpec) (hsrv : mt ≠ .serverHello)
    (h : Hashes dg bf (transcriptOf tr ++ handshakeBytes mt body)) :
    Hashes dg bf (transcriptOf (tr ++ [.accepted mt body])) := by
  simpa [Obs.bytes, hccs, not_isHrr body hsrv] using h

/-- While there is no running hash, the buffer holds what it held and the
message. -/
theorem Fed.buffer (h : Fed s data dg bf)
    (hdg : s.s3.handshakeDgst = none) (hT : Hashes s.s3.handshakeDgst s.s3.handshakeBuffer T) :
    bf = some (T ++ data) :=
  (h.hashes T hT).buffer (h.unstarted.mpr hdg)

/-- A message that is neither a ChangeCipherSpec nor a Finished was added to the
transcript before it was processed. -/
theorem fed_of_read {hs : HandState}
    (hmt : mt ≠ .changeCipherSpec ∧ mt ≠ .finished ∧ mt ≠ .serverHello)
    (h : (tlsGetMessageBody lib mt pkt).run { s with statem.handState := hs } = .ok u t) :
    ∃ dg bf, Fed s (handshakeBytes mt pkt) dg bf ∧ t = { s with
        statem.handState := hs, s3.handshakeDgst := dg, s3.handshakeBuffer := bf } := by
  have hfeed := tlsGetMessageBody_other hmt.1 hmt.2.1 (not_isHrr pkt hmt.2.2) h
  obtain ⟨hfed, ht⟩ := Fed.of_ssl3FinishMac hfeed
  exact ⟨_, _, ⟨hfed.hashes, hfed.unstarted, hfed.started⟩, ht⟩

/-- A constructor that only returned its body. -/
theorem constructed_of_pure {mt' : MsgType} {body' : Bytes}
    (h : (pure (mt', body') : Handshake X509 Pkey (MsgType × Bytes)).run s = .ok (mt, body) t) :
    mt = mt' ∧ body = body' ∧ t = s := by
  obtain ⟨hpair, ht⟩ := run_pure_ok.mp h
  injection hpair with hmt hbody
  exact ⟨hmt.symm, hbody.symm, ht.symm⟩

/-- A constructor that returned the body that `x` made. -/
theorem constructed_of_bind {mt' : MsgType} {x : Handshake X509 Pkey Bytes}
    (h : (x >>= fun b => pure (mt', b)).run s = .ok (mt, body) t) :
    mt = mt' ∧ x.run s = .ok body t := by
  obtain ⟨body', s₁, hx, h⟩ := run_bind_ok.mp h
  obtain ⟨hmt, hbody, ht⟩ := constructed_of_pure h
  subst hmt hbody ht
  exact ⟨rfl, hx⟩

/-! ## ChangeCipherSpec and CertificateVerify -/

/-- `tls_process_change_cipher_spec_ntls` -/
def tlsProcessChangeCipherSpec (pkt : Bytes) : Handshake X509 Pkey MsgProcess := do
  let s ← get
  check (pkt = []) ⟨.decodeError, .badChangeCipherSpec⟩
  check (s.s3.tmp.newCipher.isSome) ⟨.unexpectedMessage, .ccsReceivedEarly⟩
  modify fun s => { s with s3.changeCipherSpec := true }
  pure .continueReading

/-- `tls_process_cert_verify_ntls`.  The handshake buffer is freed whether the
signature is good or not. -/
def tlsProcessCertVerify (lib : Libcrypto X509 Pkey) (pkt : Bytes) :
    Handshake X509 Pkey MsgProcess := do
  let s ← get
  modify fun s => { s with s3.handshakeBuffer := none }
  let pkey ← orThrow ⟨.internalError, .internalError⟩ (s.session.peer.bind lib.x509GetPubkey)
  check ((sslCertLookupByPkey lib pkey).isSome)
    ⟨.illegalParameter, .signatureForNonSigningCertificate⟩
  let lu ← orThrow ⟨.internalError, .internalError⟩ (tls1SetPeerLegacySigalg lib pkey)
  modify fun s => { s with s3.tmp.peerSigalg := some lu }
  let (len, pkt) ← orThrow ⟨.decodeError, .lengthMismatch⟩ (getUint 2 pkt)
  let (data, _) ← orThrow ⟨.decodeError, .lengthMismatch⟩ (splitFront len pkt)
  let hdata := s.s3.handshakeBuffer.getD []
  check (hdata ≠ []) ⟨.internalError, .internalError⟩
  check (lib.digestVerifyInit pkey lu.hash) ⟨.internalError, .evpLib⟩
  -- ML-DSA has no digest to hash the transcript with
  let md ← orThrow ⟨.internalError, .evpLib⟩ lu.hash
  check (lib.digestVerify pkey (some md) data (lib.digest md hdata)) ⟨.decryptError, .badSignature⟩
  pure .continueReading

theorem tlsProcessChangeCipherSpec_ok
    (h : (tlsProcessChangeCipherSpec pkt).run s = .ok r t) :
    r = .continueReading ∧ pkt = [] ∧ t = { s with s3.changeCipherSpec := true } := by
  rw [tlsProcessChangeCipherSpec, run_get_bind_ok, run_check_bind_ok, run_check_bind_ok,
    run_modify_bind_ok, run_pure_ok] at h
  obtain ⟨hpkt, _, hr, ht⟩ := h
  exact ⟨hr.symm, hpkt, ht.symm⟩

/-- The body of a CertificateVerify signs `hdata` under the key of a
certificate. -/
def SignedBy (lib : Libcrypto X509 Pkey) (cert : X509) (body hdata : Bytes) : Prop :=
  ∃ key md len rest sig rest', lib.x509GetPubkey cert = some key ∧
      getUint 2 body = some (len, rest) ∧ splitFront len rest = some (sig, rest') ∧
      lib.digestVerify key (some md) sig (lib.digest md hdata) = true

/-- A CertificateVerify is accepted only under the key of the peer's
certificate, over what the buffer holds. -/
theorem tlsProcessCertVerify_ok
    (h : (tlsProcessCertVerify lib pkt).run s = .ok r t) :
    ∃ peer lu, r = .continueReading ∧ s.session.peer = some peer ∧
      SignedBy lib peer pkt (s.s3.handshakeBuffer.getD []) ∧
      t = { s with s3.handshakeBuffer := none, s3.tmp.peerSigalg := some lu } := by
  rw [tlsProcessCertVerify, run_get_bind_ok, run_modify_bind_ok, run_orThrow_bind_ok] at h
  obtain ⟨key, hkey, h⟩ := h
  rw [run_check_bind_ok, run_orThrow_bind_ok] at h
  obtain ⟨_, lu, _, h⟩ := h
  rw [run_modify_bind_ok, run_orThrow_bind_ok] at h
  obtain ⟨⟨len, rest⟩, hlen, h⟩ := h
  rw [run_orThrow_bind_ok] at h
  obtain ⟨⟨sig, rest'⟩, hsig, h⟩ := h
  rw [run_check_bind_ok, run_check_bind_ok, run_orThrow_bind_ok] at h
  obtain ⟨_, _, md, _, h⟩ := h
  rw [run_check_bind_ok, run_pure_ok] at h
  obtain ⟨hverify, hr, ht⟩ := h
  cases hpeer : s.session.peer with
  | none => simp [hpeer] at hkey
  | some peer =>
    have hpub : lib.x509GetPubkey peer = some key := by simpa [hpeer] using hkey
    exact ⟨peer, lu, hr.symm, rfl, ⟨key, md, len, rest, sig, rest', hpub, hlen, hsig, hverify⟩,
      ht.symm⟩

end Tlcp
