import Mathlib.Data.List.Nodup
import Tlcp.Lib.Fallible
import Tlcp.Ssl.Basic

/-!
# Tlcp.Tls13.Extensions

The table of the built-in extensions (`ext_defs`), the enumeration of its
indexes (`TLSEXT_INDEX`), and the functions that find an extension through
one or the other.

```text
   tls_collect_extensions   type  ->  index   by searching ext_defs
   tls_parse_extension      index ->  parser  by ext_defs[index]
   its callers              name  ->  index   by TLSEXT_INDEX
```

The table has an entry for kyber768_ciphertext behind key_share and the
enumeration has not, so that the names behind key_share stand for the entry
before their own: `TLSEXT_IDX_psk` is the index of padding.  Its two callers
go on without pre_shared_key having been parsed.
-/

namespace Tlcp.Tls13

open Octets Fallible

variable {p : Parser} {context : Nat}

/-! ## table and enumeration -/

/-- The extensions that have a place in `ext_defs`. -/
inductive Extension where
  | renegotiate | serverName | maxFragmentLength | srp | ecPointFormats | supportedGroups
  | sessionTicket | statusRequest | nextProtoNeg | applicationLayerProtocolNegotiation | useSrtp
  | encryptThenMac | signedCertificateTimestamp | delegatedCredential | extendedMasterSecret
  | signatureAlgorithmsCert | postHandshakeAuth | signatureAlgorithms | supportedVersions
  | pskKexModes | keyShare | kyber768Ciphertext | cookie | earlyData | certificateAuthorities
  | quicTransportParamsDraft | quicTransportParams | compressCertificate | tls13GmDualCert
  | padding | psk
  deriving DecidableEq, Repr

/-- The functions that the entries name. -/
inductive Parser where
  | tlsParseCtosRenegotiate | tlsParseStocRenegotiate | tlsParseCtosServerName
  | tlsParseStocServerName | tlsParseCtosMaxfragmentlen | tlsParseStocMaxfragmentlen
  | tlsParseCtosSrp | tlsParseCtosEcPtFormats | tlsParseStocEcPtFormats
  | tlsParseCtosSupportedGroups | tlsParseCtosSessionTicket | tlsParseStocSessionTicket
  | tlsParseCtosStatusRequest | tlsParseStocStatusRequest | tlsParseCtosNpn | tlsParseStocNpn
  | tlsParseCtosAlpn | tlsParseStocAlpn | tlsParseCtosUseSrtp | tlsParseStocUseSrtp
  | tlsParseCtosEtm | tlsParseStocEtm | tlsParseStocSct | tlsParseCtosDelegatedCredential
  | tlsParseStocDelegatedCredential | tlsParseCtosEms | tlsParseStocEms | tlsParseCtosSigAlgsCert
  | tlsParseCtosPostHandshakeAuth | tlsParseCtosSigAlgs | tlsParseStocSupportedVersions
  | tlsParseCtosPskKexModes | tlsParseCtosKeyShare | tlsParseStocKeyShare
  | tlsParseStocKyber768Ciphertext | tlsParseCtosCookie | tlsParseStocCookie
  | tlsParseCtosEarlyData | tlsParseStocEarlyData | tlsParseCertificateAuthorities
  | tlsParseCtosQuicTransportParamsDraft | tlsParseStocQuicTransportParamsDraft
  | tlsParseCtosQuicTransportParams | tlsParseStocQuicTransportParams | tlsParseCompressCert
  | tlsParseCtosTls13GmDualCert | tlsParseStocTls13GmDualCert | tlsParseCtosPsk | tlsParseStocPsk
  deriving DecidableEq, Repr

/-- What can be configured out with `OPENSSL_NO_*`. -/
inductive Feature where
  | srp | ocsp | nextprotoneg | srtp | ct | delegatedCredential | sm2 | quic | certCompression
  deriving DecidableEq, Repr

/-! ### contexts -/

namespace ExtContext

/-- `SSL_EXT_*` -/
def tlsOnly : Nat := 0x0001
def dtlsOnly : Nat := 0x0002
def tlsImplementationOnly : Nat := 0x0004
def ssl3Allowed : Nat := 0x0008
def tls12AndBelowOnly : Nat := 0x0010
def tls13Only : Nat := 0x0020
def ignoreOnResumption : Nat := 0x0040
def clientHello : Nat := 0x0080
def tls12ServerHello : Nat := 0x0100
def tls13ServerHello : Nat := 0x0200
def tls13EncryptedExtensions : Nat := 0x0400
def tls13HelloRetryRequest : Nat := 0x0800
def tls13Certificate : Nat := 0x1000
def tls13NewSessionTicket : Nat := 0x2000
def tls13CertificateRequest : Nat := 0x4000

end ExtContext

open ExtContext

/-! ### the table -/

/-- `EXTENSION_DEFINITION`; the initialisers, constructors and finalisers are not
modelled here. -/
structure ExtensionDefinition where
  type : Nat
  context : Nat
  parseCtos : Option Parser
  parseStoc : Option Parser
  deriving DecidableEq, Repr

/-- `INVALID_EXTENSION` -/
def invalidExtension : ExtensionDefinition := ⟨0x10000, 0, none, none⟩

/-- The entry for an extension, in a build with the given features. -/
def extDef (cfg : Feature → Bool) : Extension → ExtensionDefinition
  | .renegotiate =>
    ⟨0xff01, clientHello ||| tls12ServerHello ||| ssl3Allowed ||| tls12AndBelowOnly,
      some .tlsParseCtosRenegotiate, some .tlsParseStocRenegotiate⟩
  | .serverName =>
    ⟨0, clientHello ||| tls12ServerHello ||| tls13EncryptedExtensions,
      some .tlsParseCtosServerName, some .tlsParseStocServerName⟩
  | .maxFragmentLength =>
    ⟨1, clientHello ||| tls12ServerHello ||| tls13EncryptedExtensions,
      some .tlsParseCtosMaxfragmentlen, some .tlsParseStocMaxfragmentlen⟩
  | .srp =>
    if cfg .srp then
      ⟨12, clientHello ||| tls12AndBelowOnly, some .tlsParseCtosSrp, none⟩
    else invalidExtension
  | .ecPointFormats =>
    ⟨11, clientHello ||| tls12ServerHello ||| tls12AndBelowOnly,
      some .tlsParseCtosEcPtFormats, some .tlsParseStocEcPtFormats⟩
  | .supportedGroups =>
    ⟨10, clientHello ||| tls13EncryptedExtensions ||| tls12ServerHello,
      some .tlsParseCtosSupportedGroups, none⟩
  | .sessionTicket =>
    ⟨35, clientHello ||| tls12ServerHello ||| tls12AndBelowOnly,
      some .tlsParseCtosSessionTicket, some .tlsParseStocSessionTicket⟩
  | .statusRequest =>
    if cfg .ocsp then
      ⟨5, clientHello ||| tls12ServerHello ||| tls13Certificate ||| tls13CertificateRequest,
        some .tlsParseCtosStatusRequest, some .tlsParseStocStatusRequest⟩
    else invalidExtension
  | .nextProtoNeg =>
    if cfg .nextprotoneg then
      ⟨13172, clientHello ||| tls12ServerHello ||| tls12AndBelowOnly,
        some .tlsParseCtosNpn, some .tlsParseStocNpn⟩
    else invalidExtension
  | .applicationLayerProtocolNegotiation =>
    ⟨16, clientHello ||| tls12ServerHello ||| tls13EncryptedExtensions,
      some .tlsParseCtosAlpn, some .tlsParseStocAlpn⟩
  | .useSrtp =>
    if cfg .srtp then
      ⟨14, clientHello ||| tls12ServerHello ||| tls13EncryptedExtensions ||| dtlsOnly,
        some .tlsParseCtosUseSrtp, some .tlsParseStocUseSrtp⟩
    else invalidExtension
  | .encryptThenMac =>
    ⟨22, clientHello ||| tls12ServerHello ||| tls12AndBelowOnly,
      some .tlsParseCtosEtm, some .tlsParseStocEtm⟩
  | .signedCertificateTimestamp =>
    if cfg .ct then
      ⟨18, clientHello ||| tls12ServerHello ||| tls13Certificate ||| tls13CertificateRequest,
        none, some .tlsParseStocSct⟩
    else invalidExtension
  | .delegatedCredential =>
    if cfg .delegatedCredential then
      ⟨34, clientHello ||| tls13CertificateRequest ||| tls13Only ||| tls13Certificate,
        some .tlsParseCtosDelegatedCredential, some .tlsParseStocDelegatedCredential⟩
    else invalidExtension
  | .extendedMasterSecret =>
    ⟨23, clientHello ||| tls12ServerHello ||| tls12AndBelowOnly,
      some .tlsParseCtosEms, some .tlsParseStocEms⟩
  | .signatureAlgorithmsCert =>
    ⟨50, clientHello ||| tls13CertificateRequest,
      some .tlsParseCtosSigAlgsCert, some .tlsParseCtosSigAlgsCert⟩
  | .postHandshakeAuth =>
    ⟨49, clientHello ||| tls13Only, some .tlsParseCtosPostHandshakeAuth, none⟩
  | .signatureAlgorithms =>
    ⟨13, clientHello ||| tls13CertificateRequest,
      some .tlsParseCtosSigAlgs, some .tlsParseCtosSigAlgs⟩
  | .supportedVersions =>
    ⟨43, clientHello ||| tls13ServerHello ||| tls13HelloRetryRequest ||| tlsImplementationOnly,
      none, some .tlsParseStocSupportedVersions⟩
  | .pskKexModes =>
    ⟨45, clientHello ||| tlsImplementationOnly ||| tls13Only, some .tlsParseCtosPskKexModes, none⟩
  | .keyShare =>
    ⟨51, clientHello ||| tls13ServerHello ||| tls13HelloRetryRequest ||| tlsImplementationOnly ||| tls13Only,
      some .tlsParseCtosKeyShare, some .tlsParseStocKeyShare⟩
  | .kyber768Ciphertext =>
    if cfg .sm2 then
      ⟨0xff05, tls13ServerHello ||| tls13Only, none, some .tlsParseStocKyber768Ciphertext⟩
    else invalidExtension
  | .cookie =>
    ⟨44, clientHello ||| tls13HelloRetryRequest ||| tlsImplementationOnly ||| tls13Only,
      some .tlsParseCtosCookie, some .tlsParseStocCookie⟩
  | .earlyData =>
    ⟨42, clientHello ||| tls13EncryptedExtensions ||| tls13NewSessionTicket ||| tls13Only,
      some .tlsParseCtosEarlyData, some .tlsParseStocEarlyData⟩
  | .certificateAuthorities =>
    ⟨47, clientHello ||| tls13CertificateRequest ||| tls13Only,
      some .tlsParseCertificateAuthorities, some .tlsParseCertificateAuthorities⟩
  | .quicTransportParamsDraft =>
    if cfg .quic then
      ⟨0xffa5, clientHello ||| tls13EncryptedExtensions ||| tlsImplementationOnly ||| tls13Only,
        some .tlsParseCtosQuicTransportParamsDraft, some .tlsParseStocQuicTransportParamsDraft⟩
    else invalidExtension
  | .quicTransportParams =>
    if cfg .quic then
      ⟨0x0039, clientHello ||| tls13EncryptedExtensions ||| tlsImplementationOnly ||| tls13Only,
        some .tlsParseCtosQuicTransportParams, some .tlsParseStocQuicTransportParams⟩
    else invalidExtension
  | .compressCertificate =>
    if cfg .certCompression then
      ⟨27, tls13Only ||| clientHello ||| tls13CertificateRequest,
        some .tlsParseCompressCert, some .tlsParseCompressCert⟩
    else invalidExtension
  | .tls13GmDualCert =>
    if cfg .sm2 then
      ⟨0xff04, clientHello ||| tls13EncryptedExtensions ||| tls13Only,
        some .tlsParseCtosTls13GmDualCert, some .tlsParseStocTls13GmDualCert⟩
    else invalidExtension
  | .padding => ⟨21, clientHello, none, none⟩
  | .psk =>
    ⟨41, clientHello ||| tls13ServerHello ||| tlsImplementationOnly ||| tls13Only,
      some .tlsParseCtosPsk, some .tlsParseStocPsk⟩

/-- The type of an extension, whether it is configured in or not. -/
def Extension.code (e : Extension) : Nat := (extDef (fun _ => true) e).type

/-- The order of `ext_defs`: a place is kept where a feature is configured out. -/
def extSlots : List Extension :=
  [.renegotiate, .serverName, .maxFragmentLength, .srp, .ecPointFormats, .supportedGroups,
    .sessionTicket, .statusRequest, .nextProtoNeg, .applicationLayerProtocolNegotiation,
    .useSrtp, .encryptThenMac, .signedCertificateTimestamp, .delegatedCredential,
    .extendedMasterSecret, .signatureAlgorithmsCert, .postHandshakeAuth, .signatureAlgorithms,
    .supportedVersions, .pskKexModes, .keyShare, .kyber768Ciphertext, .cookie, .earlyData,
    .certificateAuthorities, .quicTransportParamsDraft, .quicTransportParams,
    .compressCertificate, .tls13GmDualCert, .padding, .psk]

/-- `TLSEXT_INDEX` -/
inductive TlsextIndex where
  | renegotiate | serverName | maxFragmentLength | srp | ecPointFormats | supportedGroups
  | sessionTicket | statusRequest | nextProtoNeg | applicationLayerProtocolNegotiation | useSrtp
  | encryptThenMac | signedCertificateTimestamp | delegatedCredential | extendedMasterSecret
  | signatureAlgorithmsCert | postHandshakeAuth | signatureAlgorithms | supportedVersions
  | pskKexModes | keyShare | cookie | earlyData | certificateAuthorities
  | quicTransportParamsDraft | quicTransportParams | compressCertificate | tls13GmDualCert
  | padding | psk
  deriving DecidableEq, Repr

/-- The extension that an index is named after. -/
def TlsextIndex.ext : TlsextIndex → Extension
  | .renegotiate => .renegotiate
  | .serverName => .serverName
  | .maxFragmentLength => .maxFragmentLength
  | .srp => .srp
  | .ecPointFormats => .ecPointFormats
  | .supportedGroups => .supportedGroups
  | .sessionTicket => .sessionTicket
  | .statusRequest => .statusRequest
  | .nextProtoNeg => .nextProtoNeg
  | .applicationLayerProtocolNegotiation => .applicationLayerProtocolNegotiation
  | .useSrtp => .useSrtp
  | .encryptThenMac => .encryptThenMac
  | .signedCertificateTimestamp => .signedCertificateTimestamp
  | .delegatedCredential => .delegatedCredential
  | .extendedMasterSecret => .extendedMasterSecret
  | .signatureAlgorithmsCert => .signatureAlgorithmsCert
  | .postHandshakeAuth => .postHandshakeAuth
  | .signatureAlgorithms => .signatureAlgorithms
  | .supportedVersions => .supportedVersions
  | .pskKexModes => .pskKexModes
  | .keyShare => .keyShare
  | .cookie => .cookie
  | .earlyData => .earlyData
  | .certificateAuthorities => .certificateAuthorities
  | .quicTransportParamsDraft => .quicTransportParamsDraft
  | .quicTransportParams => .quicTransportParams
  | .compressCertificate => .compressCertificate
  | .tls13GmDualCert => .tls13GmDualCert
  | .padding => .padding
  | .psk => .psk

/-- The value of an index: the names are numbered in order. -/
def TlsextIndex.toNat (idx : TlsextIndex) : Nat := idx.ctorIdx

/-- `TLSEXT_IDX_num_builtins`, the length of `extflags` -/
def numBuiltins : Nat := 30

/-- `ext_defs` -/
def extDefs (cfg : Feature → Bool) : List ExtensionDefinition := extSlots.map (extDef cfg)

/-! ## collecting -/

/-- `RAW_EXTENSION` -/
structure RawExtension where
  data : Bytes := []
  present : Bool := false
  parsed : Bool := false
  type : Nat := 0
  receivedOrder : Nat := 0
  deriving DecidableEq, Repr

/-- The build, the connection's role and protocol, and what the application and
the parsers do.  A parser either ends in `SSLfatal` or changes the connection. -/
structure ExtEnv (σ : Type) where
  cfg : Feature → Bool
  server : Bool
  dtls : Bool
  tls13 : Bool
  ssl3 : Bool
  hit : σ → Bool
  clearHit : σ → σ
  /-- `s->ext.extflags[idx] & SSL_EXT_FLAG_SENT`; with what is behind the array
  at index 30 -/
  sent : Nat → Bool
  /-- `custext.meths_count` and `custom_ext_find`: the offset and the contexts -/
  methsCount : Nat
  customExtFind : (context type : Nat) → Option (Nat × Nat)
  /-- whether a `client_hello_cb` is set -/
  helloCb : Bool
  init : (context : Nat) → σ → Except Fatal σ
  parse : Parser → (context : Nat) → Bytes → σ → Except Fatal σ
  customExtParse : (context type : Nat) → Bytes → σ → Except Fatal σ

/-- The connection, the collected extensions, and the parsers that were run. -/
structure ExtState (σ : Type) where
  conn : σ
  raws : List RawExtension := []
  ran : List Parser := []

/-- Code on the extensions that may end in `SSLfatal`. -/
abbrev ExtStep (σ : Type) := EStateM Fatal (ExtState σ)

variable {σ : Type}

/-- Two sets of contexts have one in common. -/
def inContext (a b : Nat) : Bool := a &&& b != 0

variable (env : ExtEnv σ)

/-- `validate_context` -/
def validateContext (extctx thisctx : Nat) : Bool :=
  inContext thisctx extctx && !inContext extctx (if env.dtls then tlsOnly else dtlsOnly)

/-- `verify_extension`: `none` if the extension is not allowed, `some none` if it
is unknown. -/
def verifyExtension (context type : Nat) : Option (Option Nat) :=
  match (extDefs env.cfg).findIdx? fun d => d.type == type with
  | some i =>
    if validateContext env (((extDefs env.cfg)[i]?.map (·.context)).getD 0) context then
      some (some i)
    else none
  | none =>
    match env.customExtFind context type with
    | some (offset, extctx) =>
      if validateContext env extctx context then some (some (offset + extSlots.length)) else none
    | none => some none

/-- `extension_is_relevant` -/
def extensionIsRelevant (conn : σ) (extctx thisctx : Nat) : Bool :=
  let isTls13 := inContext thisctx tls13HelloRetryRequest || env.tls13
  !((env.dtls && inContext extctx tlsImplementationOnly)
    || (env.ssl3 && !inContext extctx ssl3Allowed)
    || (isTls13 && inContext extctx tls12AndBelowOnly)
    || (!isTls13 && inContext extctx tls13Only && !inContext thisctx clientHello)
    || (env.server && !isTls13 && inContext extctx tls13Only)
    || (env.hit conn && inContext extctx ignoreOnResumption))

/-- An answer to an extension that was not sent. -/
def unsolicited (context type idx : Nat) : Bool := decide (idx < extSlots.length)
    && !inContext context (clientHello ||| tls13CertificateRequest ||| tls13NewSessionTicket)
    && type != Extension.cookie.code
    && type != Extension.renegotiate.code
    && type != Extension.signedCertificateTimestamp.code
    && !(env.cfg .sm2 && type == Extension.kyber768Ciphertext.code)
    && !env.sent idx

/-- One extension of a message, found at an index. -/
def collectOne (context type : Nat) (data : Bytes) (order idx : Nat) : ExtStep σ Unit := do
  let s ← get
  check ((s.raws[idx]?.map (·.present)).getD false = false) ⟨.illegalParameter, .badExtension⟩
  check (unsolicited env context type idx = false) ⟨.unsupportedExtension, .unsolicitedExtension⟩
  modify fun s => { s with raws := s.raws.set idx ⟨data, true, false, type, order⟩ }

/-- The loop of `tls_collect_extensions`.  An extension takes bytes, so the fuel
does not run out. -/
def collectLoop (env : ExtEnv σ) (context : Nat) : Nat → Bytes → Nat → ExtStep σ Unit
  | _, [], _ => pure ()
  | 0, _ :: _, _ => throw ⟨.internalError, .internalError⟩
  | fuel + 1, b :: bs, order => do
      let (type, pkt) ← orThrow ⟨.decodeError, .badExtension⟩ (getUint 2 (b :: bs))
      let (data, pkt) ← orThrow ⟨.decodeError, .badExtension⟩ (getPrefixed 2 pkt)
      let found ← orThrow ⟨.illegalParameter, .badExtension⟩ (verifyExtension env context type)
      check (¬ (type = Extension.psk.code ∧ inContext context clientHello = true ∧ pkt ≠ []))
        ⟨.illegalParameter, .badExtension⟩
      match found with
      | some idx => do
          collectOne env context type data order idx
          collectLoop env context fuel pkt (order + 1)
      | none => collectLoop env context fuel pkt order

/-- `tls_collect_extensions` with `init` set -/
def tlsCollectExtensions (context : Nat) (packet : Bytes) : ExtStep σ Unit := do
  modify fun s => { s with raws := List.replicate (extSlots.length + env.methsCount) {} }
  collectLoop env context packet.length packet 0
  let s ← get
  let conn ← lift (env.init context s.conn)
  modify fun s => { s with conn := conn }

/-- `tls_validate_all_contexts` -/
def tlsValidateAllContexts (thisctx : Nat) (raws : List RawExtension) : Bool :=
  raws.zipIdx.all fun (raw, i) =>
    !raw.present ||
      match (extDefs env.cfg)[i]? with
      | some d => validateContext env d.context thisctx
      | none =>
        match env.customExtFind thisctx raw.type with
        | some (_, extctx) => validateContext env extctx thisctx
        | none => false

/-! ## parsing -/

/-- A parser of the table is run. -/
def runParser (context : Nat) (p : Parser) (data : Bytes) : ExtStep σ Unit := do
  modify fun s => { s with ran := s.ran ++ [p] }
  let s ← get
  let conn ← lift (env.parse p context data s.conn)
  modify fun s => { s with conn := conn }

/-- `custom_ext_parse` -/
def customExtParse (context : Nat) (raw : RawExtension) : ExtStep σ Unit := do
  let s ← get
  let conn ← lift (env.customExtParse context raw.type raw.data s.conn)
  modify fun s => { s with conn := conn }

/-- The parser of an entry, for the role. -/
def ExtensionDefinition.parser (d : ExtensionDefinition) (server : Bool) : Option Parser :=
  if server then d.parseCtos else d.parseStoc

/-- What `tls_parse_extension` does with an extension that is there. -/
def parseBuiltin (idx context : Nat) (raw : RawExtension) : ExtStep σ Unit := do
  let s ← get
  match (extDefs env.cfg)[idx]? with
  | some d =>
    if extensionIsRelevant env s.conn d.context context then
      match d.parser env.server with
      | some p => runParser env context p raw.data
      | none => customExtParse env context raw
    else pure ()
  | none => customExtParse env context raw

/-- `tls_parse_extension` -/
def tlsParseExtension (idx context : Nat) : ExtStep σ Unit := do
  let s ← get
  let raw := s.raws[idx]?.getD {}
  if raw.present = true ∧ raw.parsed = false then do
    modify fun s => { s with raws := s.raws.set idx { raw with parsed := true } }
    parseBuiltin env idx context raw
  else pure ()

/-! ## the two callers -/

/-- What `ssl_get_prev_session` returns when it is not fatal. -/
inductive PrevSession where
  | hit
  | miss
  | retry
  deriving DecidableEq, Repr

/-- `ssl_get_prev_session` for TLS 1.3.  `useSession` are the checks of the
session that the parser left behind. -/
def sslGetPrevSession (useSession : σ → Except Fatal (PrevSession × σ)) :
    ExtStep σ PrevSession := do
  tlsParseExtension env TlsextIndex.pskKexModes.toNat clientHello
  tlsParseExtension env TlsextIndex.psk.toNat clientHello
  let s ← get
  let (r, conn) ← lift (useSession s.conn)
  modify fun s => { s with conn := conn }
  pure r

/-- The server's way from a ClientHello's extensions to `ssl_get_prev_session`:
`tls_process_client_hello` and `tls_early_post_process_client_hello`.  The
callback and the other steps in between run no parser; `negotiate` is what they
do. -/
def processClientHelloExtensions (negotiate : σ → Except Fatal σ)
    (useSession : σ → Except Fatal (PrevSession × σ)) (exts : Bytes) : ExtStep σ PrevSession := do
  tlsCollectExtensions env clientHello exts
  onlyIf (env.helloCb = true)
    (tlsParseExtension env TlsextIndex.statusRequest.toNat clientHello)
  let s ← get
  let conn ← lift (negotiate s.conn)
  modify fun s => { s with conn := conn }
  tlsParseExtension env TlsextIndex.extendedMasterSecret.toNat clientHello
  sslGetPrevSession env useSession

/-- `tls_process_server_hello` up to the decision on resumption, which is
returned.  `chooseVersion` is `ssl_choose_client_version` behind its parser. -/
def processServerHelloExtensions (chooseVersion : σ → Except Fatal σ)
    (exts : Bytes) : ExtStep σ Bool := do
  tlsCollectExtensions env (tls12ServerHello ||| tls13ServerHello) exts
  tlsParseExtension env TlsextIndex.supportedVersions.toNat (tls12ServerHello ||| tls13ServerHello)
  let s ← get
  let conn ← lift (chooseVersion s.conn)
  check (tlsValidateAllContexts env tls13ServerHello s.raws = true)
    ⟨.illegalParameter, .badExtension⟩
  modify fun s => { s with conn := env.clearHit conn }
  tlsParseExtension env TlsextIndex.psk.toNat tls13ServerHello
  let s ← get
  pure (env.hit s.conn)

/-! ## the parsers that are run -/

variable {env}

theorem extDefs_getElem? (cfg : Feature → Bool) (i : Nat) :
    (extDefs cfg)[i]? = extSlots[i]?.map (extDef cfg) := by
  rw [extDefs, List.getElem?_map]

/-- Collecting sets up an array, puts extensions into it that are not parsed, and
changes the connection. -/
theorem keeps_tlsCollectExtensions {P : ExtState σ → Prop} {packet : Bytes}
    (hinit : ∀ s n, P s → P { s with raws := List.replicate n {} })
    (hset : ∀ s idx raw, raw.parsed = false → P s → P { s with raws := s.raws.set idx raw })
    (hconn : ∀ s conn, P s → P { s with conn := conn }) :
    Keeps P (tlsCollectExtensions env context packet) := by
  have hone : ∀ type data order idx, Keeps P (collectOne env context type data order idx) := by
    intro type data order idx
    refine keeps_get.bind fun _ => keeps_check.bind fun _ => keeps_check.bind fun _ => ?_
    exact keeps_modify fun s h => hset s _ _ rfl h
  have hloop : ∀ fuel packet order, Keeps P (collectLoop env context fuel packet order) := by
    intro fuel
    induction fuel with
    | zero =>
      intro packet order
      cases packet with
      | nil => exact keeps_pure
      | cons b bs => exact keeps_throw
    | succ fuel ih =>
      intro packet order
      cases packet with
      | nil => exact keeps_pure
      | cons b bs =>
        refine keeps_orThrow.bind fun _ => keeps_orThrow.bind fun _ => ?_
        refine keeps_orThrow.bind fun found => keeps_check.bind fun _ => ?_
        cases found with
        | none => exact ih _ _
        | some idx => exact (hone _ _ _ _).bind fun _ => ih _ _
  refine (keeps_modify fun s h => hinit s _ h).bind fun _ => (hloop _ _ _).bind fun _ => ?_
  exact keeps_get.bind fun _ => keeps_lift.bind fun _ => keeps_modify fun s h => hconn s _ h

/-- A parser is run only through the index of an entry that names it. -/
theorem keeps_tlsParseExtension {idx : Nat}
    (h : ∀ e, extSlots[idx]? = some e → (extDef env.cfg e).parser env.server ≠ some p) :
    Keeps (fun s => p ∉ s.ran) (tlsParseExtension env idx context) := by
  have hcustom : ∀ raw, Keeps (fun s => p ∉ s.ran) (customExtParse env context raw) :=
    fun raw => keeps_get.bind fun _ => keeps_lift.bind fun _ => keeps_modify fun _ hs => hs
  refine keeps_get.bind fun s => Keeps.ite (Keeps.bind (keeps_modify fun _ hs => hs) fun _ => ?_)
    keeps_pure
  refine keeps_get.bind fun s => ?_
  split
  · next d hd =>
    rw [extDefs_getElem?, Option.map_eq_some_iff] at hd
    obtain ⟨e, he, hd⟩ := hd
    subst hd
    refine Keeps.ite ?_ keeps_pure
    split
    · next q hq =>
      have hne : p ≠ q := fun hpq => h e he (hpq ▸ hq)
      refine Keeps.bind (keeps_modify fun s hs => ?_) fun _ => ?_
      · simp [hs, hne]
      · exact keeps_get.bind fun _ => keeps_lift.bind fun _ => keeps_modify fun _ hs => hs
    · exact hcustom _
  · exact hcustom _

/-! ## from the bytes to the array -/

/-- The extensions of a message, by their types. -/
def extItems : Nat → Bytes → Option (List (Nat × Bytes))
  | _, [] => some []
  | 0, _ :: _ => none
  | fuel + 1, b :: bs =>
    (getUint 2 (b :: bs)).bind fun (type, pkt) =>
      (getPrefixed 2 pkt).bind fun (data, pkt) =>
        (extItems fuel pkt).map ((type, data) :: ·)

/-- The message carries an extension of the type. -/
def Carries (type : Nat) (packet : Bytes) : Prop :=
  ∃ items data, extItems packet.length packet = some items ∧ (type, data) ∈ items

/-! ## pre_shared_key -/

/-- The names up to key_share stand for their own entries. -/
theorem index_iff (idx : TlsextIndex) :
    extSlots[idx.toNat]? = some idx.ext ↔ idx.toNat ≤ TlsextIndex.keyShare.toNat := by
  cases idx <;> decide

/-- A parser of pre_shared_key. -/
def Parser.isPsk (p : Parser) : Prop := p = .tlsParseCtosPsk ∨ p = .tlsParseStocPsk

/-- No other entry names a parser of pre_shared_key. -/
theorem parser_isPsk {cfg : Feature → Bool} {server : Bool} {e : Extension}
    (hp : p.isPsk) (h : (extDef cfg e).parser server = some p) : e = .psk := by
  rcases hp with hp | hp <;> subst hp <;> cases server <;> cases e <;>
    simp [ExtensionDefinition.parser, extDef, invalidExtension] at h ⊢ <;> grind

/-- No lookup of the two callers reaches the entry of pre_shared_key. -/
theorem keeps_lookup {idx : TlsextIndex} (hp : p.isPsk) :
    Keeps (fun s => p ∉ s.ran) (tlsParseExtension env idx.toNat context) := by
  refine keeps_tlsParseExtension fun e he hparser => ?_
  rw [parser_isPsk hp hparser] at he
  revert he
  cases idx <;> decide

theorem keeps_processClientHelloExtensions {negotiate : σ → Except Fatal σ}
    {useSession : σ → Except Fatal (PrevSession × σ)} {exts : Bytes} (hp : p.isPsk) :
    Keeps (fun s => p ∉ s.ran)
      (processClientHelloExtensions env negotiate useSession exts) := by
  refine Keeps.bind ?_ fun _ => Keeps.bind (Keeps.onlyIf (keeps_lookup hp)) fun _ => ?_
  · exact keeps_tlsCollectExtensions (fun _ _ h => h) (fun _ _ _ _ h => h) fun _ _ h => h
  · refine keeps_get.bind fun _ => keeps_lift.bind fun _ => ?_
    refine Keeps.bind (keeps_modify fun _ h => h) fun _ => (keeps_lookup hp).bind fun _ => ?_
    refine (keeps_lookup hp).bind fun _ => (keeps_lookup hp).bind fun _ => ?_
    refine keeps_get.bind fun _ => keeps_lift.bind fun _ => ?_
    exact Keeps.bind (keeps_modify fun _ h => h) fun _ => keeps_pure

theorem keeps_processServerHelloExtensions {chooseVersion : σ → Except Fatal σ}
    {exts : Bytes} (hp : p.isPsk) :
    Keeps (fun s => p ∉ s.ran) (processServerHelloExtensions env chooseVersion exts) := by
  refine Keeps.bind ?_ fun _ => (keeps_lookup hp).bind fun _ => ?_
  · exact keeps_tlsCollectExtensions (fun _ _ h => h) (fun _ _ _ _ h => h) fun _ _ h => h
  · refine keeps_get.bind fun _ => keeps_lift.bind fun _ => keeps_check.bind fun _ => ?_
    refine Keeps.bind (keeps_modify fun _ h => h) fun _ => (keeps_lookup hp).bind fun _ => ?_
    exact keeps_get.bind fun _ => keeps_pure

/-- The type of pre_shared_key. -/
def pskType : Nat := Extension.psk.code

/-- **Enumeration and table.** By the time `ssl_get_prev_session` returns, and
before the client decides on resumption, a pre_shared_key extension has been
parsed if and only if there is none.  A name of the enumeration is the index of
its own entry up to key_share, and all places of the table but the last have a
place in `extflags`. -/
theorem psk_parsed_iff :
    (∀ (negotiate : σ → Except Fatal σ) (useSession : σ → Except Fatal (PrevSession × σ))
      (exts : Bytes) (s t : ExtState σ) (r : PrevSession), s.ran = [] →
      (processClientHelloExtensions env negotiate useSession exts).run s = .ok r t →
      ((Carries pskType exts → .tlsParseCtosPsk ∈ t.ran) ↔ ¬ Carries pskType exts)) ∧
    (∀ (chooseVersion : σ → Except Fatal σ) (exts : Bytes) (s t : ExtState σ) (hit : Bool),
      s.ran = [] → (processServerHelloExtensions env chooseVersion exts).run s = .ok hit t →
      ((Carries pskType exts → .tlsParseStocPsk ∈ t.ran) ↔ ¬ Carries pskType exts)) ∧
    (∀ idx : TlsextIndex, extSlots[idx.toNat]? = some idx.ext ↔
      idx.toNat ≤ TlsextIndex.keyShare.toNat) ∧
    ∀ i, i < (extDefs env.cfg).length → (i < numBuiltins ↔ i ≠ 30) := by
  refine ⟨?_, ?_, index_iff, ?_⟩
  · intro negotiate useSession exts s t r hs h
    have hran := (keeps_processClientHelloExtensions (.inl rfl)).ok (by simp [hs]) h
    exact ⟨fun himp hcarries => hran (himp hcarries), fun hnot hcarries => absurd hcarries hnot⟩
  · intro chooseVersion exts s t hit hs h
    have hran := (keeps_processServerHelloExtensions (.inr rfl)).ok (by simp [hs]) h
    exact ⟨fun himp hcarries => hran (himp hcarries), fun hnot hcarries => absurd hcarries hnot⟩
  · intro i hi
    have hlen : (extDefs env.cfg).length = 31 := by
      rw [extDefs, List.length_map]
      rfl
    unfold numBuiltins
    omega

/-- A connection that is only whether a session is resumed, which the parsers of
pre_shared_key set. -/
def ExtEnv.plain (server : Bool) : ExtEnv Bool where
  cfg _ := true
  server := server
  dtls := false
  tls13 := true
  ssl3 := false
  hit := id
  clearHit _ := false
  sent _ := true
  methsCount := 0
  customExtFind _ _ := none
  helloCb := true
  init _ conn := .ok conn
  parse p _ _ conn := .ok (conn || p == .tlsParseCtosPsk || p == .tlsParseStocPsk)
  customExtParse _ _ _ conn := .ok conn

/-- Whether there is a session to resume. -/
def plainSession (conn : Bool) : Except Fatal (PrevSession × Bool) :=
  .ok (if conn then .hit else .miss, conn)

/-- psk_kex_modes and pre_shared_key. -/
def plainPskHello : Bytes := [0, 45, 0, 2, 1, 1, 0, 41, 0, 1, 7]

/-- supported_versions and pre_shared_key. -/
def plainPskAnswer : Bytes := [0, 43, 0, 2, 3, 4, 0, 41, 0, 2, 0, 0]

theorem carries_plainPskHello : Carries pskType plainPskHello :=
  ⟨[(45, [1, 1]), (41, [7])], [7], by decide, by decide⟩

theorem carries_plainPskAnswer : Carries pskType plainPskAnswer :=
  ⟨[(43, [3, 4]), (41, [0, 0])], [0, 0], by decide, by decide⟩

/-- The answer and the parsers that were run. -/
def ranOf {α : Type} : EStateM.Result Fatal (ExtState Bool) α → Option (α × List Parser)
  | .ok a t => some (a, t.ran)
  | .error _ _ => none

theorem ranOf_eq_some {α : Type} {x : EStateM.Result Fatal (ExtState Bool) α} {a : α}
    {ran : List Parser} (h : ranOf x = some (a, ran)) : ∃ t, x = .ok a t ∧ t.ran = ran := by
  cases x with
  | ok b t =>
    injection h with h
    injection h with ha hran
    exact ⟨t, by rw [ha], hran⟩
  | error e t => exact nomatch h

/-- Without pre_shared_key nothing is missed. -/
theorem psk_parsed_plain : ∃ t, (processClientHelloExtensions (.plain true) .ok plainSession
      [0, 45, 0, 2, 1, 1]).run { conn := false } = .ok .miss t ∧
    (Carries pskType [0, 45, 0, 2, 1, 1] → .tlsParseCtosPsk ∈ t.ran) := by
  have hran : ranOf ((processClientHelloExtensions (.plain true) .ok plainSession
      [0, 45, 0, 2, 1, 1]).run { conn := false }) = some (.miss, [.tlsParseCtosPskKexModes]) := by
    decide +kernel
  obtain ⟨t, hrun, _⟩ := ranOf_eq_some hran
  refine ⟨t, hrun, (psk_parsed_iff.1 _ _ _ _ _ _ rfl hrun).mpr ?_⟩
  intro ⟨items, data, hitems, hmem⟩
  have hitems' : extItems 6 [0, 45, 0, 2, 1, 1] = some [(45, [1, 1])] := by decide
  injection hitems.symm.trans hitems' with heq
  subst heq
  simp [pskType, Extension.code, extDef] at hmem

/-- A ClientHello with pre_shared_key does not resume, a ServerHello with it is
not taken for a resumption, and the place of pre_shared_key is behind
`extflags`. -/
theorem psk_unparsed :
    ranOf ((processClientHelloExtensions (.plain true) .ok plainSession plainPskHello).run
      { conn := false }) = some (.miss, [.tlsParseCtosPskKexModes]) ∧
    ranOf ((processServerHelloExtensions (.plain false) .ok plainPskAnswer).run
      { conn := false }) = some (false, [.tlsParseStocSupportedVersions]) ∧
    Carries pskType plainPskHello ∧ Carries pskType plainPskAnswer ∧
    extSlots[TlsextIndex.psk.toNat]? = some .padding ∧
    extSlots[30]? = some .psk ∧ ¬ 30 < numBuiltins :=
  ⟨by decide +kernel, by decide +kernel, carries_plainPskHello, carries_plainPskAnswer, rfl, rfl,
    by decide⟩

end Tlcp.Tls13
