import Tlcp.Ntls.Common

/-!
# Tlcp.Ntls.ServerKex

The server's half of the NTLS key exchange: what it writes and signs in
ServerKeyExchange, and how it reads ClientKeyExchange
(`tls_construct_server_key_exchange_ntls`, `tls_process_cke_*_ntls`).

```
kSM2, kRSA        signature over  randoms || ASN.1Cert
kSM2DHE           03 00 curve | u8 point | signature over  randoms || params
kECCKyber         u16 1184 | Kyber key   | signature over  randoms || ASN.1Cert || params
kECDHEKyber       03 curve | u8 point | u16 1184 | Kyber key | signature over  randoms || params
kKyber            signature over  randoms || ASN.1Cert
kKyberAigisEnc    u16 len | Aigis-Enc key | signature over  randoms || params
```

The functions read the connection object and return what they change: the
temporaries of the key exchange and the group of the session.  A processor
of ClientKeyExchange returns the premaster secret that it hands to the
master-secret derivation.
-/

namespace Tlcp

open Octets

variable {X509 Pkey : Type}

/-! ## sizes and groups -/

def eccPkSize : Nat := 65
def kyberPkSize : Nat := 1184
def kyberCtSize : Nat := 1088
def hybridSkSize : Nat := 2432
def hybridPkSize : Nat := 1249
def hybridSsSize : Nat := 80

/-- `NAMED_CURVE_TYPE` -/
def namedCurveType : Nat := 3

/-- `tls1_shared_group` on an NTLS connection: always SM2, on both sides. -/
def tls1SharedGroup : Nat := curveSM2

/-! ## the hybrid KEM -/

variable (lib : Libcrypto X509 Pkey)

/-- `ecc_kyber_hybrid_keygen`: the keys of the certificate followed by fresh
Kyber keys, public and secret. -/
def eccKyberHybridKeygen (eccPkey : Pkey) (rnd : Bytes) : Option (Bytes × Bytes) := do
  let sk ← lib.ecPrivate eccPkey
  let pk ← lib.ecPublic eccPkey
  let (kyberPk, kyberSk) ← lib.kyberKeypair rnd
  some (pk.1 ++ kyberPk.1, sk.1 ++ kyberSk.1)

/-- A byte string as a buffer of `n` bytes. -/
def asBuf (n : Nat) (bs : Bytes) : Option (Buf n) :=
  if h : bs.length = n then some ⟨bs, h⟩ else none

@[simp] theorem asBuf_val (n : Nat) (b : Buf n) : asBuf n b.1 = some b := by
  simp [asBuf, b.2]

theorem asBuf_eq_some_iff {n : Nat} {bs : Bytes} {b : Buf n} : asBuf n bs = some b ↔ bs = b.1 := by
  constructor
  · intro h
    unfold asBuf at h
    split at h
    · injection h with hb; rw [← hb]
    · contradiction
  · intro h
    subst h
    exact asBuf_val n b

/-- `ecc_kyber_hybrid_encaps`: only the Kyber part of the key is used. -/
def eccKyberHybridEncaps (pk : Bytes) (rnd : Bytes) : Option (Buf 1088 × Buf 32) := do
  let _ ← asBuf hybridPkSize pk
  let kyberPk ← asBuf kyberPkSize (pk.drop eccPkSize)
  lib.kyberEnc kyberPk rnd

/-- `ecc_kyber_hybrid_decaps` -/
def eccKyberHybridDecaps (ct : Bytes) (sk : Bytes) : Option (Buf 32) := do
  let _ ← asBuf hybridSkSize sk
  let kyberCt ← asBuf kyberCtSize ct
  let kyberSk ← asBuf 2400 (sk.drop 32)
  lib.kyberDec kyberSk kyberCt

/-! ## ServerKeyExchange -/

/-- The random bytes one ServerKeyExchange draws. -/
structure SkeRandom where
  ephemeral : Bytes := []
  kyber : Bytes := []
  aigis : Bytes := []
  sign : Bytes := []

/-- `WPACKET_sub_memcpy_u8`, `WPACKET_sub_memcpy_u16` -/
def subMemcpy (w : Nat) (bs : Bytes) : Except Fatal Bytes :=
  orFatal .internalError .internalError (putPrefixed w bs)

/-- What a ServerKeyExchange carries before its signature, with the
temporaries and the group it leaves behind. -/
structure SkeParams (Pkey : Type) where
  params : Bytes
  kex : Kex Pkey
  kexGroup : Nat

/-- The parameters of `kKyberAigisEnc`: a fresh Aigis-Enc key. -/
def constructSkeKyberAigisEnc (rnd : SkeRandom)
    (s : SSL X509 Pkey) : Except Fatal (SkeParams Pkey) := do
  let kp ← orFatal .internalError .evpLib (lib.aigisGenerate rnd.aigis)
  let pub ← orFatal .internalError .evpLib (lib.aigisPublic kp)
  require (pub ≠ []) .internalError .evpLib
  let params ← subMemcpy 2 pub
  pure ⟨params, { s.s3.tmp.kex with aigisKemPkey := some kp }, s.session.kexGroup⟩

/-- The parameters of `kECCKyber`: a fresh Kyber key; the hybrid secret key
waits in `pms`. -/
def constructSkeEcckyber (rnd : SkeRandom) (s : SSL X509 Pkey) : Except Fatal (SkeParams Pkey) := do
  require (s.s3.tmp.kex.pkey.isNone) .internalError .internalError
  require (s.cert.sm2Enc.x509.isSome) .internalError .missingEncCertificate
  let eccPkey ← orFatal .internalError .missingEncCertificate s.cert.sm2Enc.privatekey
  let (hybridPk, hybridSk) ← orFatal .internalError .internalError
    (eccKyberHybridKeygen lib eccPkey rnd.kyber)
  let params ← subMemcpy 2 (hybridPk.drop eccPkSize)
  pure ⟨params, { s.s3.tmp.kex with pms := some hybridSk }, tls1SharedGroup⟩

/-- The parameters of `kECDHEKyber`: a fresh point and a fresh Kyber key. -/
def constructSkeEcdhekyber (rnd : SkeRandom)
    (s : SSL X509 Pkey) : Except Fatal (SkeParams Pkey) := do
  require (s.s3.tmp.kex.pkey.isNone) .internalError .internalError
  let eccPkey ← orFatal .internalError .missingEncCertificate s.cert.sm2Enc.privatekey
  let pkey ← orFatal .internalError .internalError
    (lib.generatePkeyGroup tls1SharedGroup rnd.ephemeral)
  let point := lib.encodedPublicKey pkey
  require (point ≠ []) .internalError .evpLib
  let encoded ← subMemcpy 1 point
  let (hybridPk, hybridSk) ← orFatal .internalError .internalError
    (eccKyberHybridKeygen lib eccPkey rnd.kyber)
  let kyber ← subMemcpy 2 (hybridPk.drop eccPkSize)
  pure ⟨putUint 1 namedCurveType ++ putUint 2 tls1SharedGroup ++ encoded ++ kyber,
    { s.s3.tmp.kex with pkey := some pkey, pms := some hybridSk }, tls1SharedGroup⟩

/-- The parameters of `kSM2DHE`: a fresh point. -/
def constructSkeSm2dhe (rnd : SkeRandom) (s : SSL X509 Pkey) : Except Fatal (SkeParams Pkey) := do
  require (s.s3.tmp.kex.pkey.isNone) .internalError .internalError
  let pkey ← orFatal .internalError .internalError
    (lib.generatePkeyGroup tls1SharedGroup rnd.ephemeral)
  let point := lib.encodedPublicKey pkey
  require (point ≠ []) .internalError .evpLib
  let encoded ← subMemcpy 1 point
  pure ⟨putUint 1 namedCurveType ++ putUint 1 0 ++ putUint 1 tls1SharedGroup ++ encoded,
    { s.s3.tmp.kex with pkey := some pkey }, tls1SharedGroup⟩

/-- The first half of `tls_construct_server_key_exchange_ntls`. -/
def constructSkeParams (rnd : SkeRandom) (s : SSL X509 Pkey) : Except Fatal (SkeParams Pkey) :=
  if hasBit s.mkey Mkey.kKyberAigisEnc then constructSkeKyberAigisEnc lib rnd s
  else if hasBit s.mkey Mkey.kECCKyber then constructSkeEcckyber lib rnd s
  else if hasBit s.mkey Mkey.kECDHEKyber then constructSkeEcdhekyber lib rnd s
  else if hasBit s.mkey Mkey.kSM2DHE then constructSkeSm2dhe lib rnd s
  else .ok ⟨[], s.s3.tmp.kex, s.session.kexGroup⟩

variable (s : SSL X509 Pkey)

/-- The key that signs a ServerKeyExchange. -/
def skeSignKey : Option Pkey :=
  if hasBit s.mkey Mkey.kRSA then s.cert.rsaSign.privatekey
  else if hasBit s.mkey (Mkey.kSM2 ||| Mkey.kSM2DHE ||| Mkey.kECCKyber ||| Mkey.kECDHEKyber |||
      Mkey.kKyber ||| Mkey.kKyberAigisEnc) then s.cert.sm2Sign.privatekey
  else none

/-- The encryption certificate of the suite. -/
def skeEncCert : Option X509 :=
  if hasBit s.mkey Mkey.kRSA then s.cert.rsaEnc.x509 else s.cert.sm2Enc.x509

/-- What the signature covers after the randoms: the encryption certificate,
the parameters, or both. -/
def skeSignedParams (params : Bytes) : Except Fatal Bytes :=
  if hasBit s.mkey (Mkey.kRSA ||| Mkey.kSM2 ||| Mkey.kECCKyber ||| Mkey.kKyber) then do
    let buf ← orFatal .internalError .mallocFailure ((skeEncCert s).bind (x509ToAsn1 lib))
    pure (if hasBit s.mkey Mkey.kECCKyber then buf ++ params else buf)
  else .ok params

/-- The byte string that the server signs in a ServerKeyExchange with these
parameters. -/
def skeTbs (params : Bytes) : Except Fatal Bytes := do
  let signed ← skeSignedParams lib s params
  pure (constructKeyExchangeTbs s.s3 signed)

/-- The signature of a ServerKeyExchange, behind its length; no signature
algorithm, no signature. -/
def skeSignature (rnd : SkeRandom) (s : SSL X509 Pkey) (params : Bytes) : Except Fatal Bytes :=
  match s.s3.tmp.sigalg with
  | none => .ok []
  | some lu => do
      let pkey ← orFatal .internalError .internalError (skeSignKey s)
      let tbs ← skeTbs lib s params
      let sig ← orFatal .internalError .internalError (lib.digestSign pkey lu.hash rnd.sign tbs)
      subMemcpy 2 sig

/-- `tls_construct_server_key_exchange_ntls`: the body, and what it leaves in
the connection object. -/
def tlsConstructServerKeyExchange (rnd : SkeRandom)
    (s : SSL X509 Pkey) : Except Fatal (Bytes × SSL X509 Pkey) := do
  let p ← constructSkeParams lib rnd s
  let sig ← skeSignature lib rnd s p.params
  pure (p.params ++ sig, { s with s3.tmp.kex := p.kex, session.kexGroup := p.kexGroup })

/-! ## ClientKeyExchange -/

/-- `tls_process_cke_pms_ntls` -/
def tlsProcessCkePms (pkt : Bytes) : Except Fatal (Bytes × Kex Pkey) := do
  let pkey ← orFatal .internalError .missingEncCertificate
    (if hasBit s.mkey Mkey.kRSA then s.cert.rsaEnc.privatekey else s.cert.sm2Enc.privatekey)
  let (enc, pkt) ← orFatal .decodeError .lengthMismatch (getPrefixed 2 pkt)
  require (pkt = []) .decodeError .lengthMismatch
  let pms ← orFatal .decryptError .decryptionFailed
    (if hasBit s.mkey Mkey.kRSA then lib.decryptTlsPadding pkey s.clientVersion enc
      else lib.decrypt pkey enc)
  require (pms.length = sslMaxMasterKeyLength) .decryptError .decryptionFailed
  pure (pms, s.s3.tmp.kex)

/-- `tls_process_cke_ecckyber_ntls`.  The decrypted premaster and the Kyber
secret are copied into a buffer of 80 bytes, and all 80 are used; `heap` is
what an allocation holds before it is written. -/
def tlsProcessCkeEcckyber (heap : Bytes) (s : SSL X509 Pkey)
    (pkt : Bytes) : Except Fatal (Bytes × Kex Pkey) := do
  require (pkt ≠ []) .handshakeFailure .missingTmpEcdhKey
  let (enc, pkt) ← orFatal .decodeError .lengthMismatch (getPrefixed 2 pkt)
  require (enc ≠ []) .decodeError .lengthMismatch
  let (ctLen, pkt) ← orFatal .decodeError .lengthMismatch (getUint 2 pkt)
  require (ctLen = kyberCtSize) .decodeError .lengthMismatch
  let (ct, pkt) ← orFatal .decodeError .lengthTooShort (splitFront ctLen pkt)
  require (pkt = []) .decodeError .lengthMismatch
  let pkey ← orFatal .internalError .missingEncCertificate s.cert.sm2Enc.privatekey
  let dec ← orFatal .internalError .evpLib (lib.decrypt pkey enc)
  let hybridSk ← orFatal .internalError .internalError s.s3.tmp.kex.pms
  require (hybridSk.length = hybridSkSize) .internalError .internalError
  let kyberSs ← orFatal .internalError .internalError (eccKyberHybridDecaps lib ct hybridSk)
  pure ((dec ++ kyberSs.1 ++ heap).take hybridSsSize, s.s3.tmp.kex)

/-- `tls_process_cke_sm2dhe_ntls` -/
def tlsProcessCkeSm2dhe (pkt : Bytes) : Except Fatal (Bytes × Kex Pkey) := do
  require (pkt ≠ []) .handshakeFailure .missingTmpEcdhKey
  let (_, pkt) ← orFatal .decodeError .lengthTooShort (splitFront 3 pkt)
  let (point, pkt) ← orFatal .decodeError .lengthMismatch (getPrefixed 1 pkt)
  require (pkt = []) .decodeError .lengthMismatch
  let skey ← orFatal .internalError .missingTmpEcdhKey s.s3.tmp.kex.pkey
  let ckey ← orFatal .internalError .ecLib (lib.setEncodedPublicKey skey point)
  let secret ← orFatal .internalError .internalError (lib.deriveSm2 skey ckey)
  pure (secret, { s.s3.tmp.kex with pkey := none })

/-- `tls_process_cke_ecdhekyber_ntls` -/
def tlsProcessCkeEcdhekyber (pkt : Bytes) : Except Fatal (Bytes × Kex Pkey) := do
  require (pkt ≠ []) .handshakeFailure .missingTmpEcdhKey
  let hybridSk ← orFatal .internalError .internalError s.s3.tmp.kex.pms
  require (hybridSk.length = hybridSkSize) .internalError .internalError
  let (_, pkt) ← orFatal .decodeError .lengthTooShort (splitFront 3 pkt)
  let (point, pkt) ← orFatal .decodeError .lengthMismatch (getPrefixed 1 pkt)
  let skey ← orFatal .internalError .missingTmpEcdhKey s.s3.tmp.kex.pkey
  let ckey ← orFatal .internalError .ecLib (lib.setEncodedPublicKey skey point)
  let ecdheSs ← orFatal .internalError .internalError (lib.derive skey ckey)
  require (ecdheSs ≠ []) .internalError .internalError
  let (ctLen, pkt) ← orFatal .decodeError .lengthMismatch (getUint 2 pkt)
  require (ctLen = kyberCtSize) .decodeError .lengthMismatch
  let (ct, pkt) ← orFatal .decodeError .lengthTooShort (splitFront ctLen pkt)
  require (pkt = []) .decodeError .lengthMismatch
  let kyberSs ← orFatal .internalError .internalError (eccKyberHybridDecaps lib ct hybridSk)
  pure (ecdheSs ++ kyberSs.1,
    { s.s3.tmp.kex with pkey := none, pms := some (ecdheSs ++ kyberSs.1) })

/-- `tls_process_cke_kyber_aigis_enc_dilithium_ntls` -/
def tlsProcessCkeKyberAigisEncDilithium (pkt : Bytes) : Except Fatal (Bytes × Kex Pkey) := do
  let (ctK, pkt) ← orFatal .decodeError .lengthMismatch (getPrefixed 2 pkt)
  let (ctA, pkt) ← orFatal .decodeError .lengthMismatch (getPrefixed 2 pkt)
  require (pkt = []) .decodeError .lengthMismatch
  let encPkey ← orFatal .internalError .internalError s.cert.sm2Enc.privatekey
  let aigisKp ← orFatal .internalError .internalError s.s3.tmp.kex.aigisKemPkey
  let ssK ← orFatal .internalError .evpLib (lib.decapsulate encPkey ctK)
  require (ssK ≠ []) .internalError .evpLib
  let ssA ← orFatal .internalError .evpLib (lib.decapsulate aigisKp ctA)
  require (ssA ≠ []) .internalError .evpLib
  pure (ssK ++ ssA, s.s3.tmp.kex)

/-- `tls_process_cke_kyber_dilithium_ntls` -/
def tlsProcessCkeKyberDilithium (pkt : Bytes) : Except Fatal (Bytes × Kex Pkey) := do
  let (ct, pkt) ← orFatal .decodeError .lengthMismatch (getPrefixed 2 pkt)
  require (pkt = []) .decodeError .lengthMismatch
  let pkey ← orFatal .internalError .missingEncCertificate s.cert.sm2Enc.privatekey
  let ss ← orFatal .internalError .evpLib (lib.decapsulate pkey ct)
  require (ss ≠ []) .internalError .evpLib
  pure (ss, s.s3.tmp.kex)

/-- `tls_process_client_key_exchange_ntls`, up to the derivation of the master
secret: the premaster secret and the temporaries. -/
def tlsProcessClientKeyExchange (heap : Bytes)
    (s : SSL X509 Pkey) (pkt : Bytes) : Except Fatal (Bytes × Kex Pkey) :=
  if hasBit s.mkey (Mkey.kRSA ||| Mkey.kSM2) then tlsProcessCkePms lib s pkt
  else if hasBit s.mkey Mkey.kSM2DHE then tlsProcessCkeSm2dhe lib s pkt
  else if hasBit s.mkey Mkey.kECDHEKyber then tlsProcessCkeEcdhekyber lib s pkt
  else if hasBit s.mkey Mkey.kKyberAigisEnc then tlsProcessCkeKyberAigisEncDilithium lib s pkt
  else if hasBit s.mkey Mkey.kKyber then tlsProcessCkeKyberDilithium lib s pkt
  else if hasBit s.mkey Mkey.kECCKyber then tlsProcessCkeEcckyber lib heap s pkt
  else .error ⟨.internalError, .unknownCipherType⟩

end Tlcp
