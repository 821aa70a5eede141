import Mathlib.Data.List.Infix
import Tlcp.Ssl.State

/-!
# Tlcp.Ssl.KeyTypes

What kind of certificate a public key makes: the certificate-type table
(`ssl_cert_info`), the lookup of a key in it with the fallbacks for keys that
a provider knows under another name, and the signature algorithm that NTLS
uses for a key of the peer.  libcrypto answers two questions about a key,
whether it goes by a name and what its type is called.
-/

namespace Tlcp

open Octets

variable {X509 Pkey : Type}

/-- The text occurs in the type name, `strstr`. -/
def strstr (haystack needle : String) : Bool := decide (needle.toList <:+: haystack.toList)

/-- `SSL_CERT_LOOKUP`, with the two names of its key type. -/
structure CertLookup where
  sn : String
  ln : String
  amask : Nat
  deriving DecidableEq, Repr

/-- `ssl_cert_info`; the position is the `SSL_PKEY_*` index. -/
def sslCertInfo : List CertLookup := [ ⟨"rsaEncryption", "rsaEncryption", Auth.aRSA⟩,
    ⟨"RSASSA-PSS", "rsassaPss", Auth.aRSA⟩,
    ⟨"DSA", "dsaEncryption", Auth.aDSS⟩,
    ⟨"id-ecPublicKey", "id-ecPublicKey", Auth.aECDSA ||| Auth.aSM2⟩,
    ⟨"ED25519", "ED25519", Auth.aECDSA⟩,
    ⟨"ED448", "ED448", Auth.aECDSA⟩,
    ⟨"SM2", "sm2", Auth.aSM2⟩,
    ⟨"SM2", "sm2", Auth.aSM2⟩,
    ⟨"SM2", "sm2", Auth.aSM2⟩,
    ⟨"rsaEncryption", "rsaEncryption", Auth.aRSA⟩,
    ⟨"rsaEncryption", "rsaEncryption", Auth.aRSA⟩ ]

/-- The entry at `SSL_PKEY_SM2_SIGN`. -/
def sm2SignLookup : CertLookup := ⟨"SM2", "sm2", Auth.aSM2⟩

/-- The entry at `SSL_PKEY_SM2_ENC`. -/
def sm2EncLookup : CertLookup := ⟨"SM2", "sm2", Auth.aSM2⟩

variable (lib : Libcrypto X509 Pkey)

/-- A key by one of the names of ML-DSA. -/
def Libcrypto.namedMldsa (pk : Pkey) : Bool :=
  lib.isA pk "ML-DSA" || lib.isA pk "ML-DSA-44-SPKI" || lib.isA pk "id-ML-DSA-44-SPKI"

/-- The type name of a key has the text in it. -/
def Libcrypto.typeNameHas (pk : Pkey) (text : String) : Bool :=
  match lib.typeName pk with
  | some tn => strstr tn text
  | none => false

/-- `ssl_cert_lookup_by_pkey` -/
def sslCertLookupByPkey (pk : Pkey) : Option CertLookup :=
  match sslCertInfo.find? fun lu => lib.isA pk lu.sn || lib.isA pk lu.ln with
  | some lu => some lu
  | none =>
    if lib.namedMldsa pk then some sm2SignLookup
    else if lib.isA pk "ML-KEM-512-SPKI" || lib.isA pk "id-ML-KEM-512-SPKI" then some sm2EncLookup
    else if lib.typeNameHas pk "ML-DSA" then some sm2SignLookup
    else if lib.typeNameHas pk "ML-KEM" then some sm2EncLookup
    else none

/-- `tls1_set_peer_legacy_sigalg` on an NTLS connection. -/
def tls1SetPeerLegacySigalg (pk : Pkey) : Option SigAlg :=
  if lib.isA pk "SM2" then some .ntlsSm2
  else if lib.isA pk "RSA" then some .ntlsRsa
  else if lib.namedMldsa pk then some .ntlsMldsa
  else if lib.typeNameHas pk "ML-DSA" then some .ntlsMldsa
  else none

/-! ## a libcrypto without cryptography -/

/-- The type of a key in a `plain` certificate, from its first byte. -/
def plainKeyName (b : UInt8) : String := if b = 0 then "SM2"
  else if b = 1 then "RSA"
  else if b = 2 then "ML-DSA-65"
  else if b = 3 then "ML-KEM-768"
  else "EC"

/-- A libcrypto in which a certificate is its key, a signature names the
signer, and encryption and encapsulation hide nothing.  It meets what the
results below assume of libcrypto, and concrete runs can be computed with it.
A key is the name of its type and its bytes. -/
def Libcrypto.plain : Libcrypto Bytes (String × Bytes) where
  d2iX509 der := some (der, [])
  i2dX509 x := some x
  x509GetPubkey x := x.head?.map fun b => (plainKeyName b, x.tail)
  missingParameters _ := false
  isA k name := k.1 == name || (k.1 == "RSA" && name == "rsaEncryption")
  typeName k := some k.1
  digest _ data := data
  digestVerifyInit _ _ := true
  digestVerify k _ sig _ := sig == k.2
  digestSign k _ _ _ := some k.2
  prf _ _ seed secret n := (seed.foldr (· + ·) 0 :: secret).take n
  generatePkeyGroup _ rnd := some ("SM2", rnd)
  generateParamGroup _ := some ("SM2", [])
  generatePkey _ rnd := some ("SM2", rnd)
  encodedPublicKey k := k.2
  setEncodedPublicKey _ bs := some ("SM2", bs)
  derive a b := some (List.zipWith (· + ·) a.2 b.2)
  deriveSm2 _ _ := none
  encrypt _ _ pt := some pt
  decrypt _ ct := some ct
  decryptSize _ ct := ct.length
  decryptTlsPadding _ _ ct := some ct
  encapsulate k rnd := some (0 :: (k.2 ++ rnd), 0 :: (k.2 ++ rnd))
  decapsulate _ ct := some ct
  aigisGenerate rnd := some ("Aigis-Enc-2", 0 :: rnd)
  aigisPublic k := some k.2
  aigisFromdata bs := some ("Aigis-Enc-2", bs)
  ecPrivate _ := some (Buf.zero 32)
  ecPublic _ := some (Buf.zero 65)
  kyberKeypair _ := some (Buf.zero 1184, Buf.zero 2400)
  kyberEnc pk _ := some (Buf.fill 1088 (pk.1.headD 0), Buf.fill 32 (pk.1.headD 0))
  kyberDec _ ct := some (Buf.fill 32 (ct.1.headD 0))

end Tlcp
