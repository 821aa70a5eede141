import Tlcp.Ntls.ServerKex

/-!
# Tlcp.Ntls.ClientKex

The client's half of the NTLS key exchange: how it reads ServerKeyExchange
and checks its signature, and what it writes in ClientKeyExchange
(`tls_process_key_exchange_ntls`, `tls_construct_cke_*_ntls`).  The layouts
are those of `Tlcp.Ntls.ServerKex`.

Between the two messages the client keeps the server's ephemeral keys in the
temporaries of the key exchange: the point in `peerTmp`, the Aigis-Enc key in
`aigisKemPkey`, and the Kyber key in `pms`, which later holds the premaster
secret.
-/

namespace Tlcp

open Octets

variable {X509 Pkey : Type}

variable (lib : Libcrypto X509 Pkey) (rnd : CkeRandom) (s : SSL X509 Pkey)

/-- `sk_X509_value(s->session->peer_chain, 1)`: the encryption certificate. -/
def SSL.peerEncCert : Option X509 := s.session.peerChain[1]?

/-! ## ServerKeyExchange -/

/-- What is left of a ServerKeyExchange behind its parameters, with the
temporaries and the group taken from them. -/
structure SkeRead (Pkey : Type) where
  kex : Kex Pkey
  kexGroup : Nat
  rest : Bytes

/-- `tls_process_ske_ecckyber_ntls` -/
def tlsProcessSkeEcckyber (kex : Kex Pkey) (pkt : Bytes) : Except Fatal (SkeRead Pkey) := do
  let (kyberPkLen, pkt) ← orFatal .decodeError .lengthMismatch (getUint 2 pkt)
  require (kyberPkLen = kyberPkSize) .decodeError .lengthMismatch
  let (kyberPk, pkt) ← orFatal .decodeError .lengthTooShort (splitFront kyberPkLen pkt)
  let encCert ← orFatal .internalError .missingEncCertificate s.peerEncCert
  let eccPkey ← orFatal .internalError .internalError (lib.x509GetPubkey encCert)
  let eccPk ← orFatal .internalError .internalError (lib.ecPublic eccPkey)
  pure ⟨{ kex with pms := some (eccPk.1 ++ kyberPk) }, 23, pkt⟩

/-- `tls_process_ske_ecdhekyber_ntls` -/
def tlsProcessSkeEcdhekyber (kex : Kex Pkey) (pkt : Bytes) : Except Fatal (SkeRead Pkey) := do
  let (_, pkt) ← orFatal .decodeError .lengthTooShort (getUint 1 pkt)
  let (curveId, pkt) ← orFatal .decodeError .lengthTooShort (getUint 2 pkt)
  let param ← orFatal .internalError .unableToFindEcdhParameters (lib.generateParamGroup curveId)
  let (encodedPt, pkt) ← orFatal .decodeError .lengthMismatch (getPrefixed 1 pkt)
  let peerTmp ← orFatal .illegalParameter .badEcpoint (lib.setEncodedPublicKey param encodedPt)
  let (kyberPkLen, pkt) ← orFatal .decodeError .lengthMismatch (getUint 2 pkt)
  require (kyberPkLen = kyberPkSize) .decodeError .lengthMismatch
  let (kyberPk, pkt) ← orFatal .decodeError .lengthTooShort (splitFront kyberPkLen pkt)
  pure ⟨{ kex with peerTmp := some peerTmp, pms := some kyberPk }, curveId, pkt⟩

/-- `tls_process_ske_sm2dhe_ntls`: the curve on the wire is cached but the
point is read as one of SM2. -/
def tlsProcessSkeSm2dhe (kex : Kex Pkey) (pkt : Bytes) : Except Fatal (SkeRead Pkey) := do
  let (_, pkt) ← orFatal .decodeError .lengthTooShort (getUint 1 pkt)
  let (curveId, pkt) ← orFatal .decodeError .lengthTooShort (getUint 2 pkt)
  let param ← orFatal .internalError .unableToFindEcdhParameters (lib.generateParamGroup curveSM2)
  let (encodedPt, pkt) ← orFatal .decodeError .lengthMismatch (getPrefixed 1 pkt)
  let peerTmp ← orFatal .illegalParameter .badEcpoint (lib.setEncodedPublicKey param encodedPt)
  pure ⟨{ kex with peerTmp := some peerTmp }, curveId, pkt⟩

/-- The branch of `tls_process_key_exchange_ntls` for `kKyberAigisEnc`. -/
def processSkeKyberAigisEnc (kex : Kex Pkey) (pkt : Bytes) : Except Fatal (SkeRead Pkey) := do
  let (aigisPk, pkt) ← orFatal .decodeError .lengthMismatch (getPrefixed 2 pkt)
  let aigisPub ← orFatal .internalError .evpLib (lib.aigisFromdata aigisPk)
  pure ⟨{ kex with aigisKemPkey := some aigisPub }, s.session.kexGroup, pkt⟩

/-- The first half of `tls_process_key_exchange_ntls`: the parameters. -/
def processSkeParams (pkt : Bytes) : Except Fatal (SkeRead Pkey) :=
  let kex := { s.s3.tmp.kex with peerTmp := none, aigisKemPkey := none }
  if hasBit s.mkey Mkey.kECCKyber then tlsProcessSkeEcckyber lib s kex pkt
  else if hasBit s.mkey Mkey.kECDHEKyber then tlsProcessSkeEcdhekyber lib kex pkt
  else if hasBit s.mkey Mkey.kKyberAigisEnc then processSkeKyberAigisEnc lib s kex pkt
  else if hasBit s.mkey Mkey.kKyber then .ok ⟨kex, s.session.kexGroup, pkt⟩
  else if hasBit s.mkey Mkey.kSM2DHE then tlsProcessSkeSm2dhe lib kex pkt
  else .ok ⟨kex, s.session.kexGroup, pkt⟩

/-- `PACKET_get_sub_packet` up to where the parameters ended: `whole` is the
message and `rest` what the parameters left of it. -/
def consumedParams (whole rest : Bytes) : Except Fatal Bytes := do
  let (params, _) ← orFatal .decodeError .internalError
    (splitFront (whole.length - rest.length) whole)
  pure params

/-- `x509_to_asn1_ntls` of the encryption certificate. -/
def peerEncCertAsn1 : Except Fatal Bytes :=
  orFatal .internalError .mallocFailure (s.peerEncCert.bind (x509ToAsn1 lib))

/-- What the signature has to cover after the randoms. -/
def skeVerifiedParams (whole rest : Bytes) : Except Fatal Bytes :=
  if hasBit s.mkey Mkey.kECCKyber then do
    let pqKemParams ← consumedParams whole rest
    let buf ← peerEncCertAsn1 lib s
    pure (buf ++ pqKemParams)
  else if hasBit s.mkey Mkey.kECDHEKyber then consumedParams whole rest
  else if hasBit s.mkey Mkey.kKyberAigisEnc then consumedParams whole rest
  else if hasBit s.mkey Mkey.kKyber then peerEncCertAsn1 lib s
  else if hasBit s.mkey Mkey.kSM2DHE then consumedParams whole rest
  else if hasBit s.mkey (Mkey.kSM2 ||| Mkey.kRSA) then peerEncCertAsn1 lib s
  else .error ⟨.internalError, .internalError⟩

/-- The byte string that the client verifies the signature over. -/
def skeVerifiedTbs (whole rest : Bytes) : Except Fatal Bytes := do
  let params ← skeVerifiedParams lib s whole rest
  pure (constructKeyExchangeTbs s.s3 params)

/-- The second half of `tls_process_key_exchange_ntls`: the signature, which
is all that is left of the message. -/
def verifySkeSignature (whole rest : Bytes) : Except Fatal SigAlg := do
  let pkey ← orFatal .decodeError .missingSigningCert (s.session.peer.bind lib.x509GetPubkey)
  let tbs ← skeVerifiedTbs lib s whole rest
  let lu ← orFatal .internalError .internalError (tls1SetPeerLegacySigalg lib pkey)
  let (signature, pkt) ← orFatal .decodeError .lengthMismatch (getPrefixed 2 rest)
  require (pkt = []) .decodeError .lengthMismatch
  require (lib.digestVerifyInit pkey lu.hash) .internalError .evpLib
  require (lib.digestVerify pkey lu.hash signature tbs) .decryptError .badSignature
  pure lu

/-- `tls_process_key_exchange_ntls` -/
def tlsProcessKeyExchange (pkt : Bytes) : Except Fatal (SSL X509 Pkey) := do
  let p ← processSkeParams lib s pkt
  let lu ← verifySkeSignature lib s pkt p.rest
  pure { s with
    s3.tmp.kex := p.kex
    s3.tmp.peerSigalg := some lu
    session.kexGroup := p.kexGroup }

/-! ## ClientKeyExchange -/

/-- The random bytes one ClientKeyExchange draws. -/
structure CkeRandom where
  pms : Buf 46
  encrypt : Bytes := []
  ephemeral : Bytes := []
  kyber : Bytes := []
  aigis : Bytes := []

/-- A fresh premaster secret: the version of the ClientHello and 46 random
bytes. -/
def CkeRandom.premaster (clientVersion : Nat) : Bytes :=
  putUint 2 clientVersion ++ rnd.pms.1

/-- `tls_construct_cke_pms_ntls` -/
def tlsConstructCkePms (s : SSL X509 Pkey) : Except Fatal (Bytes × Kex Pkey) := do
  let x509 ← orFatal .internalError .internalError s.peerEncCert
  let pkey ← orFatal .internalError .internalError (lib.x509GetPubkey x509)
  require ((hasBit s.mkey Mkey.kRSA → lib.isA pkey "RSA") ∧
    (hasBit s.mkey Mkey.kSM2 → lib.isA pkey "SM2")) .internalError .internalError
  let pms := rnd.premaster s.clientVersion
  let body ← orFatal .internalError .badRsaEncrypt
    ((lib.encrypt pkey rnd.encrypt pms).bind (putPrefixed 2))
  pure (body, { s.s3.tmp.kex with pms := some pms })

/-- `tls_construct_cke_ecckyber_ntls` -/
def tlsConstructCkeEcckyber (s : SSL X509 Pkey) : Except Fatal (Bytes × Kex Pkey) := do
  let hybridPk ← orFatal .internalError .internalError s.s3.tmp.kex.pms
  require (hybridPk.length = hybridPkSize) .internalError .internalError
  let x509 ← orFatal .internalError .internalError s.peerEncCert
  let pkey ← orFatal .internalError .internalError (lib.x509GetPubkey x509)
  require (lib.isA pkey "SM2") .internalError .internalError
  let pms := rnd.premaster s.clientVersion
  let enc ← orFatal .internalError .badRsaEncrypt
    ((lib.encrypt pkey rnd.encrypt pms).bind (putPrefixed 2))
  let (kyberCt, kyberSs) ← orFatal .internalError .internalError
    (eccKyberHybridEncaps lib hybridPk rnd.kyber)
  pure (enc ++ putUint 2 kyberCtSize ++ kyberCt.1,
    { s.s3.tmp.kex with pms := some (pms ++ kyberSs.1) })

/-- `tls_construct_cke_ecdhekyber_ntls` -/
def tlsConstructCkeEcdhekyber (s : SSL X509 Pkey) : Except Fatal (Bytes × Kex Pkey) := do
  let skey ← orFatal .internalError .internalError s.s3.tmp.kex.peerTmp
  let kyberPk ← orFatal .internalError .internalError s.s3.tmp.kex.pms
  require (kyberPk.length = kyberPkSize) .internalError .internalError
  let ckey ← orFatal .internalError .mallocFailure
    (lib.generatePkeyGroup tls1SharedGroup rnd.ephemeral)
  -- the server's point, moved to a key with the client's parameters
  let serverPt := lib.encodedPublicKey skey
  require (serverPt ≠ []) .internalError .ecLib
  let skeyEc ← orFatal .internalError .copyParametersFailed
    (lib.setEncodedPublicKey ckey serverPt)
  let ecdheSs ← orFatal .internalError .internalError (lib.derive ckey skeyEc)
  require (ecdheSs ≠ []) .internalError .internalError
  let point := lib.encodedPublicKey ckey
  require (point ≠ []) .internalError .ecLib
  let encoded ← subMemcpy 1 point
  let encCert ← orFatal .internalError .internalError s.peerEncCert
  let encPkey ← orFatal .internalError .internalError (lib.x509GetPubkey encCert)
  let encPub := lib.encodedPublicKey encPkey
  require (encPub.length = eccPkSize) .internalError .internalError
  let (kyberCt, kyberSs) ← orFatal .internalError .internalError
    (eccKyberHybridEncaps lib (encPub ++ kyberPk) rnd.kyber)
  pure (putUint 1 namedCurveType ++ putUint 2 tls1SharedGroup ++ encoded ++
      putUint 2 kyberCtSize ++ kyberCt.1,
    { s.s3.tmp.kex with pms := some (ecdheSs ++ kyberSs.1) })

/-- `tls_construct_cke_sm2dhe_ntls` -/
def tlsConstructCkeSm2dhe (s : SSL X509 Pkey) : Except Fatal (Bytes × Kex Pkey) := do
  let skey ← orFatal .internalError .internalError s.s3.tmp.kex.peerTmp
  let ckey ← orFatal .internalError .mallocFailure (lib.generatePkey skey rnd.ephemeral)
  let secret ← orFatal .internalError .internalError (lib.deriveSm2 ckey skey)
  let point := lib.encodedPublicKey ckey
  require (point ≠ []) .internalError .ecLib
  let encoded ← subMemcpy 1 point
  pure (putUint 1 namedCurveType ++ putUint 1 0 ++ putUint 1 tls1SharedGroup ++ encoded,
    { s.s3.tmp.kex with pms := some secret })

/-- `EVP_PKEY_encapsulate` as the client calls it: an empty ciphertext or
secret is an error too. -/
def encapsulateTo (pkey : Pkey) (rnd : Bytes) : Except Fatal (Bytes × Bytes) := do
  let (ct, ss) ← orFatal .internalError .evpLib (lib.encapsulate pkey rnd)
  require (ct ≠ [] ∧ ss ≠ []) .internalError .evpLib
  pure (ct, ss)

/-- `tls_construct_cke_kyber_aigis_enc_dilithium_ntls` -/
def tlsConstructCkeKyberAigisEncDilithium
    (s : SSL X509 Pkey) : Except Fatal (Bytes × Kex Pkey) := do
  let encCert ← orFatal .internalError .missingEncCertificate s.peerEncCert
  let encPub ← orFatal .internalError .internalError (lib.x509GetPubkey encCert)
  let aigisPub ← orFatal .internalError .internalError s.s3.tmp.kex.aigisKemPkey
  let (ctK, ssK) ← encapsulateTo lib encPub rnd.kyber
  let (ctA, ssA) ← encapsulateTo lib aigisPub rnd.aigis
  let encodedK ← subMemcpy 2 ctK
  let encodedA ← subMemcpy 2 ctA
  pure (encodedK ++ encodedA, { s.s3.tmp.kex with pms := some (ssK ++ ssA) })

/-- `tls_construct_cke_kyber_dilithium_ntls` -/
def tlsConstructCkeKyberDilithium (s : SSL X509 Pkey) : Except Fatal (Bytes × Kex Pkey) := do
  let encCert ← orFatal .internalError .missingEncCertificate s.peerEncCert
  let encPub ← orFatal .internalError .internalError (lib.x509GetPubkey encCert)
  let (ct, ss) ← encapsulateTo lib encPub rnd.kyber
  let encoded ← subMemcpy 2 ct
  pure (encoded, { s.s3.tmp.kex with pms := some ss })

/-- `tls_construct_client_key_exchange_ntls`: the body and the temporaries,
with the premaster secret in `pms`. -/
def tlsConstructClientKeyExchange (s : SSL X509 Pkey) : Except Fatal (Bytes × Kex Pkey) :=
  if hasBit s.mkey (Mkey.kRSA ||| Mkey.kSM2) then tlsConstructCkePms lib rnd s
  else if hasBit s.mkey Mkey.kECCKyber then tlsConstructCkeEcckyber lib rnd s
  else if hasBit s.mkey Mkey.kECDHEKyber then tlsConstructCkeEcdhekyber lib rnd s
  else if hasBit s.mkey Mkey.kKyberAigisEnc then tlsConstructCkeKyberAigisEncDilithium lib rnd s
  else if hasBit s.mkey Mkey.kKyber then tlsConstructCkeKyberDilithium lib rnd s
  else if hasBit s.mkey Mkey.kSM2DHE then tlsConstructCkeSm2dhe lib rnd s
  else .error ⟨.handshakeFailure, .internalError⟩

/-- `tls_client_key_exchange_post_work_ntls` -/
def tlsClientKeyExchangePostWork : Handshake X509 Pkey Unit := do
  let s ← get
  let pms ← Fallible.orThrow ⟨.internalError, .internalError⟩ s.s3.tmp.kex.pms
  sslGenerateMasterSecret lib pms

end Tlcp
