import Tlcp.Lib.Octets

/-!
# Tlcp.Ssl.Basic

The vocabulary of the handshake: protocol versions, message types, the
states of the two NTLS machines, alerts and error reasons, and the NTLS part
of the cipher table with the bits of its key-exchange and authentication
masks.  Names follow the source: `TLS_ST_SW_SRVR_DONE` is
`HandState.swSrvrDone`, `SSL3_MT_CERTIFICATE` is `MsgType.certificate`,
`SSL_kSM2DHE` is `Mkey.kSM2DHE`.
-/

namespace Tlcp

open Octets

/-! ## versions and sizes -/

def ssl3Version : Nat := 0x0300
def ntlsVersion : Nat := 0x0101

def ssl3RandomSize : Nat := 32
def sslMaxMasterKeyLength : Nat := 48
def sslMaxSslSessionIdLength : Nat := 32
def ssl3RtMaxPlainLength : Nat := 16384

/-! ## message types -/

/-- `SSL3_MT_*`.  The change cipher spec is a record of its own and no
handshake message; the reader hands it on under a type outside the range of
one byte. -/
inductive MsgType where
  | helloRequest
  | clientHello
  | serverHello
  | newSessionTicket
  | certificate
  | serverKeyExchange
  | certificateRequest
  | serverDone
  | certificateVerify
  | clientKeyExchange
  | finished
  | certificateStatus
  | nextProto
  | changeCipherSpec
  | other (code : UInt8)
  deriving DecidableEq, Repr

/-- The type byte of a handshake message. -/
def MsgType.code : MsgType → Nat
  | .helloRequest => 0
  | .clientHello => 1
  | .serverHello => 2
  | .newSessionTicket => 4
  | .certificate => 11
  | .serverKeyExchange => 12
  | .certificateRequest => 13
  | .serverDone => 14
  | .certificateVerify => 15
  | .clientKeyExchange => 16
  | .finished => 20
  | .certificateStatus => 22
  | .nextProto => 67
  | .changeCipherSpec => 0x0101
  | .other code => code.toNat

/-- A handshake message as it goes into the transcript: type, length in three
bytes, body. -/
def handshakeBytes (mt : MsgType) (body : Bytes) : Bytes :=
  putUint 1 mt.code ++ putUint 3 body.length ++ body

/-! ## handshake states -/

/-- `OSSL_HANDSHAKE_STATE`, the values the NTLS machines use. -/
inductive HandState where
  | before
  | ok
  | crSrvrHello
  | crCert
  | crCertStatus
  | crKeyExch
  | crCertReq
  | crSrvrDone
  | crSessionTicket
  | crChange
  | crFinished
  | crHelloReq
  | cwClntHello
  | cwCert
  | cwKeyExch
  | cwCertVrfy
  | cwChange
  | cwNextProto
  | cwFinished
  | swHelloReq
  | srClntHello
  | swSrvrHello
  | swCert
  | swCertStatus
  | swKeyExch
  | swCertReq
  | swSrvrDone
  | srCert
  | srKeyExch
  | srCertVrfy
  | srNextProto
  | srChange
  | srFinished
  | swSessionTicket
  | swChange
  | swFinished
  deriving DecidableEq, Repr

/-! ## errors -/

/-- `SSL_AD_*`. -/
inductive Alert where
  | unexpectedMessage
  | recordOverflow
  | handshakeFailure
  | badCertificate
  | unsupportedCertificate
  | certificateRevoked
  | certificateExpired
  | certificateUnknown
  | unknownCa
  | certificateRequired
  | illegalParameter
  | decodeError
  | decryptError
  | protocolVersion
  | internalError
  | noApplicationProtocol
  | badCertificateStatusResponse
  | unsupportedExtension
  | missingExtension
  | noRenegotiation
  | noAlert
  deriving DecidableEq, Repr

/-- `SSL_R_*` and `ERR_R_*`. -/
inductive Reason where
  | unexpectedMessage
  | peerDidNotReturnACertificate
  | noCertificatesReturned
  | excessiveMessageSize
  | lengthTooShort
  | lengthTooLong
  | lengthMismatch
  | recordLengthMismatch
  | certLengthMismatch
  | certificateVerifyFailed
  | unknownCertificateType
  | wrongCertificateType
  | unableToFindPublicKeyParameters
  | signatureForNonSigningCertificate
  | badSignature
  | badHandshakeLength
  | badHandshakeState
  | badChangeCipherSpec
  | ccsReceivedEarly
  | dataBetweenCcsAndFinished
  | recordTooSmall
  | dataLengthTooLong
  | gotAFinBeforeACcs
  | badDigestLength
  | digestCheckFailed
  | missingEncCertificate
  | missingSigningCert
  | copyParametersFailed
  | badRsaEncrypt
  | mallocFailure
  | missingTmpEcdhKey
  | badEcpoint
  | unableToFindEcdhParameters
  | unsupportedEllipticCurve
  | wrongCurve
  | badPacket
  | badEncryptedData
  | decryptionFailed
  | unknownCipherType
  | unknownCipherReturned
  | unknownProtocol
  | wrongVersion
  | wrongSslVersion
  | wrongCipherReturned
  | oldSessionCipherNotReturned
  | unsupportedCompressionAlgorithm
  | attemptToReuseSessionInDifferentContext
  | ssl3SessionIdTooLong
  | requiredCipherMissing
  | noCompressionSpecified
  | inconsistentCompression
  | noSharedCipher
  | noCiphersAvailable
  | noCiphersSpecified
  | errorInReceivedCipherList
  | sessionIdContextUninitialized
  | inconsistentExtms
  | unknownKeyExchangeType
  | noSuitableSignatureAlgorithm
  | noSuitableDigestAlgorithm
  | callbackFailed
  | certCbError
  | clienthelloTlsext
  | noApplicationProtocol
  | badExtension
  | badLength
  | badEccCert
  | caDnLengthMismatch
  | missingRsaEncryptingCert
  | unsupportedStatusType
  | invalidStatusResponse
  | ocspCallbackFailure
  | sslSessionVersionMismatch
  | bioNotSet
  | evpLib
  | ecLib
  | asn1Lib
  | rsaLib
  | bufLib
  | passedNullParameter
  | notOnRecordBoundary
  | sslv3AlertBadRecordMac
  | badData
  | invalidContext
  | badCertificateSignatureType
  | badCertificateUsage
  | missingSupportedGroupsExtension
  | badKeyShare
  | extensionNotReceived
  | unsolicitedExtension
  | noSuitableKeyShare
  | cannotChangeCipher
  | missingFatal
  | internalError
  deriving DecidableEq, Repr

/-- What `SSLfatal` reports. -/
structure Fatal where
  alert : Alert
  reason : Reason
  deriving DecidableEq, Repr

/-! ## groups -/

/-- `TLSEXT_curve_SM2` -/
def curveSM2 : Nat := 41

/-! ## verify mode -/

namespace Verify

def none : Nat := 0
def peer : Nat := 1
def failIfNoPeerCert : Nat := 2
def clientOnce : Nat := 4

end Verify

/-- A bit of a mask is set. -/
abbrev hasBit (mask bit : Nat) : Prop := mask &&& bit ≠ 0

/-! ## ciphers -/

/- Bits of `algorithm_mkey`. -/
namespace Mkey

def kRSA : Nat := 0x00000001
def kSM2 : Nat := 0x00000400
def kSM2DHE : Nat := 0x00000800
def kECCKyber : Nat := 0x00001000
def kECDHEKyber : Nat := 0x00002000
def kKyber : Nat := 0x00004000
def kKyberAigisEnc : Nat := 0x00008000

end Mkey

/- Bits of `algorithm_auth`.  The Dilithium bit is the SM2 bit. -/
namespace Auth

def aRSA : Nat := 0x00000001
def aDSS : Nat := 0x00000002
def aNULL : Nat := 0x00000004
def aECDSA : Nat := 0x00000008
def aPSK : Nat := 0x00000010
def aSRP : Nat := 0x00000040
def aSM2 : Nat := 0x00000100
def aDilithium : Nat := aSM2
def aCERT : Nat := aRSA ||| aDSS ||| aECDSA ||| aSM2

end Auth

/-- The hashes of the NTLS suites. -/
inductive Md where
  | sm3
  | sha256
  deriving DecidableEq, Repr

/-- The fields of `SSL_CIPHER` that the handshake reads. -/
structure SslCipher where
  id : Nat
  algorithmMkey : Nat
  algorithmAuth : Nat
  minTls : Nat
  maxTls : Nat
  handshakeMac : Md
  deriving DecidableEq, Repr

/-- A suite of the NTLS part of the table. -/
def ntlsCipher (id mkey auth : Nat) (mac : Md) : SslCipher :=
  ⟨id, mkey, auth, ntlsVersion, ntlsVersion, mac⟩

/-- The NTLS part of `ssl3_ciphers`. -/
def ntlsCiphers : List SslCipher := [ ntlsCipher 0x0300E011 Mkey.kSM2DHE Auth.aSM2 .sm3,
    ntlsCipher 0x0300E051 Mkey.kSM2DHE Auth.aSM2 .sm3,
    ntlsCipher 0x0300E013 Mkey.kSM2 Auth.aSM2 .sm3,
    ntlsCipher 0x0300E053 Mkey.kSM2 Auth.aSM2 .sm3,
    ntlsCipher 0x0300E019 Mkey.kRSA Auth.aRSA .sm3,
    ntlsCipher 0x0300E059 Mkey.kRSA Auth.aRSA .sm3,
    ntlsCipher 0x0300E01C Mkey.kRSA Auth.aRSA .sha256,
    ntlsCipher 0x0300E05a Mkey.kRSA Auth.aRSA .sha256,
    ntlsCipher 0x0300E01D Mkey.kECCKyber Auth.aSM2 .sm3,
    ntlsCipher 0x0300E01B Mkey.kECDHEKyber Auth.aSM2 .sm3,
    ntlsCipher 0x0300E063 Mkey.kKyber Auth.aDilithium .sm3,
    ntlsCipher 0x0300E065 Mkey.kKyberAigisEnc Auth.aDilithium .sm3 ]

/-- A cipher that an NTLS connection can negotiate: every other entry of the
table is for later protocol versions only. -/
abbrev NtlsCipher := {c : SslCipher // c ∈ ntlsCiphers}

/-- The suite `ECC-SM2-SM4-CBC-SM3`. -/
def sm2Suite : NtlsCipher := ⟨ntlsCipher 0x0300E013 Mkey.kSM2 Auth.aSM2 .sm3, by decide⟩

/-- No NTLS suite is anonymous or authenticated by SRP or a pre-shared key. -/
theorem NtlsCipher.auth_certificate (c : NtlsCipher) :
    ¬ hasBit c.1.algorithmAuth Auth.aNULL ∧ ¬ hasBit c.1.algorithmAuth Auth.aSRP ∧
      ¬ hasBit c.1.algorithmAuth Auth.aPSK ∧
      ¬ hasBit c.1.algorithmAuth (Auth.aNULL ||| Auth.aSRP ||| Auth.aPSK) := by
  have h : ∀ c ∈ ntlsCiphers, ¬ hasBit c.algorithmAuth Auth.aNULL ∧
      ¬ hasBit c.algorithmAuth Auth.aSRP ∧ ¬ hasBit c.algorithmAuth Auth.aPSK ∧
      ¬ hasBit c.algorithmAuth (Auth.aNULL ||| Auth.aSRP ||| Auth.aPSK) := by decide
  exact h c.1 c.2

end Tlcp
