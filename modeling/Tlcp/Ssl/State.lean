import Tlcp.Lib.Fallible
import Tlcp.Ssl.Basic

/-!
# Tlcp.Ssl.State

The connection object of the NTLS handshake and the transcript it keeps.

`SSL` holds the fields of the source's `SSL` that the two NTLS machines read
or write, under the source's names and grouped as there (`statem`, `session`,
`s3`, `ext`).  Handshake code is an `EStateM` program over it: `SSLfatal` is
a `throw`, and what was written before it stays written.

libcrypto is a parameter, `Libcrypto`; certificates and keys are abstract
types.  What the handshake asks the application or the clock comes with each
step instead (the answers of the certificate verifier, random bytes,
callbacks).

`SSL.trace` is a history variable: no function reads it.  It lists what the
peer sent and the machine accepted, what the machine sent, and which chains
the verifier was asked about, in order, since the transcript was started.
-/

namespace Tlcp

open Octets Fallible

/-! ## libcrypto -/

/-- The functions of libcrypto that the handshake calls.  A function that
draws random bytes takes them as an argument; `none` is its error return. -/
structure Libcrypto (X509 Pkey : Type) where
  /-- `d2i_X509`: the certificate and the bytes it did not consume. -/
  d2iX509 : Bytes → Option (X509 × Bytes)
  i2dX509 : X509 → Option Bytes
  x509GetPubkey : X509 → Option Pkey
  /-- `EVP_PKEY_missing_parameters` -/
  missingParameters : Pkey → Bool
  /-- `EVP_PKEY_is_a` -/
  isA : Pkey → String → Bool
  /-- `EVP_PKEY_get0_type_name` -/
  typeName : Pkey → Option String
  digest : Md → Bytes → Bytes
  /-- `EVP_DigestVerifyInit_ex`, and for an SM2 key the default identifier, can
  be set up for the key and the digest -/
  digestVerifyInit : Pkey → Option Md → Bool
  /-- `EVP_DigestVerify(key, md, signature, data)` -/
  digestVerify : Pkey → Option Md → Bytes → Bytes → Bool
  /-- `EVP_DigestSign(key, md, random, data)` -/
  digestSign : Pkey → Option Md → Bytes → Bytes → Option Bytes
  /-- `tls1_PRF(md, label, seed, secret, length)` -/
  prf : Md → String → Bytes → Bytes → Nat → Bytes
  /-- `ssl_generate_pkey_group(curve, random)` -/
  generatePkeyGroup : Nat → Bytes → Option Pkey
  /-- `ssl_generate_param_group` -/
  generateParamGroup : Nat → Option Pkey
  /-- `ssl_generate_pkey(parameters, random)` -/
  generatePkey : Pkey → Bytes → Option Pkey
  /-- `EVP_PKEY_get1_encoded_public_key`; empty if it failed -/
  encodedPublicKey : Pkey → Bytes
  /-- `EVP_PKEY_set1_encoded_public_key` on a key with the parameters of the
  first argument -/
  setEncodedPublicKey : Pkey → Bytes → Option Pkey
  /-- `EVP_PKEY_derive(private, public)` of two EC keys: for `kECDHEKyber`
  `ssl_derive_ntls` makes EC keys of SM2 keys first -/
  derive : Pkey → Pkey → Option Bytes
  /-- the same of two SM2 keys, which they stay for `kSM2DHE`, without parameters -/
  deriveSm2 : Pkey → Pkey → Option Bytes
  /-- `EVP_PKEY_encrypt(key, random, plaintext)`; RSA with PKCS #1 padding -/
  encrypt : Pkey → Bytes → Bytes → Option Bytes
  decrypt : Pkey → Bytes → Option Bytes
  /-- what `EVP_PKEY_decrypt` asks for when it is called without a buffer; 0 if it
  fails -/
  decryptSize : Pkey → Bytes → Nat
  /-- RSA decryption with `RSA_PKCS1_WITH_TLS_PADDING` for a client version -/
  decryptTlsPadding : Pkey → Nat → Bytes → Option Bytes
  /-- `EVP_PKEY_encapsulate(key, random)`: ciphertext and secret -/
  encapsulate : Pkey → Bytes → Option (Bytes × Bytes)
  decapsulate : Pkey → Bytes → Option Bytes
  /-- Key generation, `OSSL_PKEY_PARAM_ENCODED_PUBLIC_KEY` and
  `EVP_PKEY_fromdata` of Aigis-Enc-2 -/
  aigisGenerate : Bytes → Option Pkey
  aigisPublic : Pkey → Option Bytes
  aigisFromdata : Bytes → Option Pkey
  /-- The private key and the uncompressed public point of an `EC_KEY` -/
  ecPrivate : Pkey → Option (Buf 32)
  ecPublic : Pkey → Option (Buf 65)
  /-- `pqcrystals_kyber768_ref_*`: keys (public, secret), ciphertext and secret -/
  kyberKeypair : Bytes → Option (Buf 1184 × Buf 2400)
  kyberEnc : Buf 1184 → Bytes → Option (Buf 1088 × Buf 32)
  kyberDec : Buf 2400 → Buf 1088 → Option (Buf 32)

/-! ## signature algorithms -/

/-- The signature algorithms of NTLS: `ntls_sm2_sigalg`, `ntls_rsa_sigalg`,
`ntls_mldsa_sigalg`. -/
inductive SigAlg where
  | ntlsSm2
  | ntlsRsa
  | ntlsMldsa
  deriving DecidableEq, Repr

/-- The digest of a signature algorithm; ML-DSA has none. -/
def SigAlg.hash : SigAlg → Option Md
  | .ntlsSm2 => some .sm3
  | .ntlsRsa => some .sha256
  | .ntlsMldsa => none

/-! ## configured certificates -/

/-- `CERT_PKEY` -/
structure CertPkey (X509 Pkey : Type) where
  x509 : Option X509 := none
  privatekey : Option Pkey := none

/-- The certificate slots of NTLS: a signing and an encryption slot for SM2
(which the ML-DSA and ML-KEM certificates share) and for RSA. -/
structure Cert (X509 Pkey : Type) where
  sm2Sign : CertPkey X509 Pkey := {}
  sm2Enc : CertPkey X509 Pkey := {}
  rsaSign : CertPkey X509 Pkey := {}
  rsaEnc : CertPkey X509 Pkey := {}

/-! ## the connection object -/

/-- `SSL_SESSION` -/
structure Session (X509 : Type) where
  sslVersion : Nat := 0
  sessionId : Bytes := []
  sidCtx : Bytes := []
  cipher : Option SslCipher := none
  compressMeth : Nat := 0
  masterKey : Bytes := []
  /-- `SSL_SESS_FLAG_EXTMS` -/
  extms : Bool := false
  peer : Option X509 := none
  peerChain : List X509 := []
  verifyResult : Int := 0
  kexGroup : Nat := 0
  notResumable : Bool := false
  tick : Bytes := []

/-- `MSG_FLOW_*`; an error keeps what was reported. -/
inductive MsgFlow where
  | uninited
  | reading
  | writing
  | finished
  | error (e : Fatal)
  deriving DecidableEq, Repr

/-- `WORK_STATE` -/
inductive Work where
  | error
  | finishedStop
  | finishedContinue
  | moreA
  | moreB
  | moreC
  deriving DecidableEq, Repr

/-- `READ_STATE_*`: between two messages, or working on the last one. -/
inductive ReadState where
  | header
  | postProcess (wst : Work)
  deriving DecidableEq, Repr

/-- `WRITE_STATE_*`: before the next message, or preparing it. -/
inductive WriteState where
  | transition
  | preWork (wst : Work)
  deriving DecidableEq, Repr

/-- `OSSL_STATEM` -/
structure Statem where
  state : MsgFlow := .uninited
  handState : HandState := .before
  requestState : HandState := .before
  readState : ReadState := .header
  writeState : WriteState := .transition
  inInit : Bool := true
  noCertVerify : Bool := false
  cleanuphand : Bool := false
  deriving DecidableEq, Repr

/-- The temporaries of the key exchange, `s3.tmp.pms`, `s3.tmp.pkey`,
`s3.tmp.aigis_kem_pkey` and `s3.peer_tmp`. -/
structure Kex (Pkey : Type) where
  pms : Option Bytes := none
  pkey : Option Pkey := none
  aigisKemPkey : Option Pkey := none
  peerTmp : Option Pkey := none

/-- `s3.tmp`.  A MAC that was not computed yet has length 0 in the source and
is `none` here. -/
structure Tmp (Pkey : Type) where
  certRequest : Bool := false
  certReq : Nat := 0
  newCipher : Option SslCipher := none
  finishMd : Option Bytes := none
  peerFinishMd : Option Bytes := none
  sigalg : Option SigAlg := none
  peerSigalg : Option SigAlg := none
  kex : Kex Pkey := {}

/-- `s3`.  `handshakeDgst` is the running hash, by the bytes it was fed. -/
structure S3 (Pkey : Type) where
  clientRandom : Bytes := List.replicate 32 0
  serverRandom : Bytes := List.replicate 32 0
  handshakeBuffer : Option Bytes := none
  handshakeDgst : Option Bytes := none
  changeCipherSpec : Bool := false
  npnSeen : Bool := false
  /-- `TLS1_FLAGS_SKIP_CERT_VERIFY` -/
  skipCertVerify : Bool := false
  /-- a renegotiation was asked for and is not started yet -/
  renegotiate : Bool := false
  tmp : Tmp Pkey := {}

/-- The extension flags that steer the machines. -/
structure Ext where
  ticketExpected : Bool := false
  statusExpected : Bool := false
  sessionSecretCb : Bool := false
  deriving DecidableEq, Repr

/-- `CLIENTHELLO_MSG`, kept from the parser to the post-processing. -/
structure ClientHello where
  isv2 : Bool
  legacyVersion : Nat
  random : Bytes
  sessionId : Bytes
  ciphersuites : Bytes
  compressions : Bytes
  deriving DecidableEq, Repr

/-- An entry of the history. -/
inductive Obs (X509 : Type) where
  /-- a message of the peer that its processor accepted -/
  | accepted (mt : MsgType) (body : Bytes)
  /-- a message that was constructed and sent -/
  | sent (mt : MsgType) (body : Bytes)
  /-- `ssl_verify_cert_chain` on `certs`, leaf first, returned `i` -/
  | chain (certs : List X509) (i : Int)
  deriving DecidableEq, Repr

/-- The connection object. -/
structure SSL (X509 Pkey : Type) where
  server : Bool := true
  version : Nat := ntlsVersion
  clientVersion : Nat := ntlsVersion
  statem : Statem := {}
  hit : Bool := false
  renegotiate : Bool := false
  verifyMode : Nat := Verify.none
  certreqsSent : Nat := 0
  verifyResult : Int := 0
  maxCertList : Nat := 1024 * 100
  sidCtx : Bytes := []
  /-- some configured cipher is for the highest configured version -/
  ciphersAvailable : Bool := true
  /-- the configured ciphers that are not disabled for NTLS -/
  ciphers : List NtlsCipher := []
  /-- `SSL_OP_ENABLE_MIDDLEBOX_COMPAT` -/
  middleboxCompat : Bool := true
  /-- `SSL_SESS_CACHE_SERVER` -/
  sessionCacheServer : Bool := true
  clienthello : Option ClientHello := none
  cert : Cert X509 Pkey := {}
  session : Session X509 := {}
  s3 : S3 Pkey := {}
  ext : Ext := {}
  /-- the codes of the warnings that were handed to the record layer -/
  warnings : List Nat := []
  trace : List (Obs X509) := []

variable {X509 Pkey : Type}

/-- Handshake code: it works on the connection object and stops at a fatal
error. -/
abbrev Handshake (X509 Pkey α : Type) := EStateM Fatal (SSL X509 Pkey) α

/-- `SSLfatal` -/
def sslFatal {α : Type} (al : Alert) (reason : Reason) : Handshake X509 Pkey α :=
  throw ⟨al, reason⟩

/-- The value of an option, or a fatal error. -/
def orFatal {α : Type} (al : Alert) (reason : Reason) : Option α → Except Fatal α
  | some a => .ok a
  | none => .error ⟨al, reason⟩

@[simp] theorem orFatal_eq_ok {α : Type} {al : Alert} {reason : Reason} {o : Option α} {a : α} :
    orFatal al reason o = .ok a ↔ o = some a := by
  cases o <;> simp [orFatal]

/-- Go on only if `p` holds. -/
def require (p : Prop) [Decidable p] (al : Alert) (reason : Reason) : Except Fatal Unit :=
  if p then .ok () else .error ⟨al, reason⟩

@[simp] theorem require_eq_ok {p : Prop} [Decidable p] {al : Alert} {reason : Reason} {u : Unit} :
    require p al reason = .ok u ↔ p := by
  unfold require
  split <;> simp_all

/-- `SSL_IS_FIRST_HANDSHAKE` -/
def SSL.isFirstHandshake (s : SSL X509 Pkey) : Bool :=
  s.s3.tmp.finishMd.isNone || s.s3.tmp.peerFinishMd.isNone

/-- `algorithm_mkey` of the cipher under negotiation. -/
def SSL.mkey (s : SSL X509 Pkey) : Nat := (s.s3.tmp.newCipher.map SslCipher.algorithmMkey).getD 0

/-- `algorithm_auth` of the cipher under negotiation. -/
def SSL.auth (s : SSL X509 Pkey) : Nat := (s.s3.tmp.newCipher.map SslCipher.algorithmAuth).getD 0

/-- Append to the history. -/
def record (o : Obs X509) : Handshake X509 Pkey Unit :=
  modify fun s => { s with trace := s.trace ++ [o] }

/-! ## the transcript -/

/-- `ssl3_init_finished_mac`: start over with an empty buffer. -/
def ssl3InitFinishedMac : Handshake X509 Pkey Unit :=
  modify fun s => { s with s3.handshakeBuffer := some [], s3.handshakeDgst := none, trace := [] }

/-- `ssl3_finish_mac`: feed bytes to the running hash if there is one, and to
the buffer otherwise. -/
def ssl3FinishMac (data : Bytes) : Handshake X509 Pkey Unit := do
  let s ← get
  match s.s3.handshakeDgst, s.s3.handshakeBuffer with
  | some d, _ => modify fun s => { s with s3.handshakeDgst := some (d ++ data) }
  | none, some b => modify fun s => { s with s3.handshakeBuffer := some (b ++ data) }
  | none, none => sslFatal .internalError .internalError

/-- The first half of `ssl3_digest_cached_records`: start the running hash
from the buffer, unless it was started already. -/
def startHandshakeDgst : Handshake X509 Pkey Unit := do
  let s ← get
  match s.s3.handshakeDgst with
  | some _ => pure ()
  | none =>
    let hdata := s.s3.handshakeBuffer.getD []
    check (hdata ≠ []) ⟨.internalError, .badHandshakeLength⟩
    check (s.s3.tmp.newCipher.isSome) ⟨.internalError, .noSuitableDigestAlgorithm⟩
    modify fun s => { s with s3.handshakeDgst := some hdata }

/-- `ssl3_digest_cached_records`: start the running hash, and drop the buffer
unless it is kept. -/
def ssl3DigestCachedRecords (keep : Bool) : Handshake X509 Pkey Unit := do
  startHandshakeDgst
  onlyIf (keep = false) (modify fun s => { s with s3.handshakeBuffer := none })

/-- The handshake messages so far: those in the running hash, or in the
buffer while there is no running hash. -/
def SSL.transcript (s : SSL X509 Pkey) : Bytes := match s.s3.handshakeDgst with
  | some d => d
  | none => s.s3.handshakeBuffer.getD []

variable {s t : SSL X509 Pkey}

theorem ssl3FinishMac_ok {data : Bytes} {u : Unit} (h : (ssl3FinishMac data).run s = .ok u t) :
    (∃ d, s.s3.handshakeDgst = some d ∧ t = { s with s3.handshakeDgst := some (d ++ data) }) ∨
      (∃ b, s.s3.handshakeDgst = none ∧ s.s3.handshakeBuffer = some b ∧
        t = { s with s3.handshakeBuffer := some (b ++ data) }) := by
  rw [ssl3FinishMac, run_get_bind_ok] at h
  split at h
  · next d hd => exact .inl ⟨d, hd, (run_modify_ok.mp h).symm⟩
  · next b hd hb => exact .inr ⟨b, hd, hb, (run_modify_ok.mp h).symm⟩
  · exact (run_throw_ok.mp h).elim

/-- Feeding the transcript touches nothing else, and starts no running hash. -/
theorem ssl3FinishMac_frame {data : Bytes} {u : Unit} (h : (ssl3FinishMac data).run s = .ok u t) :
    ∃ dg bf, t = { s with s3.handshakeDgst := dg, s3.handshakeBuffer := bf } ∧
      (s.s3.handshakeDgst = none → dg = none) := by
  cases ssl3FinishMac_ok h with
  | inl hd =>
    obtain ⟨d, hd, ht⟩ := hd
    exact ⟨_, s.s3.handshakeBuffer, ht, by simp [hd]⟩
  | inr hb =>
    obtain ⟨b, hd, _, ht⟩ := hb
    exact ⟨s.s3.handshakeDgst, _, ht, id⟩

theorem startHandshakeDgst_ok {u : Unit} (h : startHandshakeDgst.run s = .ok u t) :
    t = { s with s3.handshakeDgst := some s.transcript } := by
  rw [startHandshakeDgst, run_get_bind_ok] at h
  split at h
  · next d hd =>
    obtain ⟨_, ht⟩ := run_pure_ok.mp h
    rw [← ht, SSL.transcript, hd, ← hd]
  · next hd =>
    obtain ⟨_, h⟩ := run_check_bind_ok.mp h
    obtain ⟨_, h⟩ := run_check_bind_ok.mp h
    rw [← run_modify_ok.mp h, SSL.transcript, hd]

theorem ssl3DigestCachedRecords_ok {keep : Bool} {u : Unit}
    (h : (ssl3DigestCachedRecords keep).run s = .ok u t) :
    t = { s with
      s3.handshakeDgst := some s.transcript
      s3.handshakeBuffer := if keep then s.s3.handshakeBuffer else none } := by
  obtain ⟨_, r, hstart, h⟩ := run_bind_ok.mp h
  have hr := startHandshakeDgst_ok hstart
  cases keep with
  | true =>
    have ht : r = t := by simpa [run_onlyIf_ok] using h
    rw [← ht, hr]
    rfl
  | false =>
    have ht : { r with s3.handshakeBuffer := none } = t := by simpa [run_onlyIf_ok] using h
    rw [← ht, hr]
    rfl

end Tlcp
