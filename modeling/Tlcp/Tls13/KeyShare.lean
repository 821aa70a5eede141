import Tlcp.Ssl.KeyTypes

/-!
# Tlcp.Tls13.KeyShare

The key_share extension of TLS 1.3, with the SM2+Kyber768 hybrid
(`enable_sm2_kyber768_tls13`).

```text
   ClientHello   key_share            SM2 share | Kyber768 public key
   ServerHello   key_share            SM2 share
                 kyber768_ciphertext  Kyber768 ciphertext

   handshake secret from  ECDH secret || Kyber768 secret
```

Each end keeps the ECDH secret in `s3.tmp.pms` until the second part is there.
The connection has a switch of its own; the parser of the ClientHello and the
finaliser look at the switch of the parent `SSL_CTX` instead, which can change
under a connection.

`ShareConn` has the fields of the source's `SSL` that these functions read or
write.  Its history fields are the secrets that were agreed on and the inputs
that handshake secrets were derived from; `none` is the derivation without a
key share, from a pre-shared key alone.
-/

namespace Tlcp.Tls13

open Octets Fallible

/-- `OSSL_TLS_GROUP_ID_kyber768` -/
def kyber768Group : Nat := 0x11ef

/-- `hello_retry_request` -/
inductive Hrr where
  | none
  | pending
  | complete
  deriving DecidableEq, Repr

/-- What is known about the groups, and what the security callback says. -/
structure GroupTable (Pkey : Type) where
  /-- `tls1_group_id_lookup`: whether a known group is a KEM -/
  isKem : Nat → Option Bool
  /-- `tls_valid_group` for TLS 1.3 -/
  valid : Nat → Bool
  /-- `tls_group_allowed` with `SSL_SECOP_CURVE_SUPPORTED` -/
  allowed : Nat → Bool
  /-- `tls_group_allowed` with `SSL_SECOP_CURVE_CHECK` -/
  checked : Nat → Bool
  /-- `EVP_PKEY_get_bits` -/
  bits : Pkey → Nat

/-- The connection object. -/
structure ShareConn (Pkey : Type) where
  server : Bool
  /-- `s->enable_sm2_kyber768_tls13` -/
  hybrid : Bool
  /-- `s->ctx->enable_sm2_kyber768_tls13` -/
  ctxHybrid : Bool
  hit : Bool := false
  /-- `ext.psk_kex_mode`: `TLSEXT_KEX_MODE_FLAG_KE`, `TLSEXT_KEX_MODE_FLAG_KE_DHE` -/
  pskKe : Bool := false
  pskKeDhe : Bool := false
  helloRetryRequest : Hrr := .none
  /-- `TLS1_FLAGS_STATELESS` without a good cookie -/
  statelessPending : Bool := false
  /-- `tls1_get_supported_groups` -/
  groups : List Nat
  /-- `tls1_get_peer_groups` -/
  peerGroups : List Nat := []
  groupId : Nat := 0
  /-- `session->kex_group` -/
  kexGroup : Nat := 0
  /-- `s3.tmp.pkey` -/
  pkey : Option Pkey := none
  peerTmp : Option Pkey := none
  /-- `s3.tmp.pms` -/
  pms : Option Bytes := none
  peerKyber768Pk : Option (Buf 1184) := none
  kyber768CliSk : Option (Buf 2400) := none
  didKex : Bool := false
  /-- history: what `EVP_PKEY_derive` and Kyber768 returned -/
  ecdhSecrets : List Bytes := []
  kyberSecrets : List Bytes := []
  /-- history: the inputs of `tls13_generate_handshake_secret` -/
  inputs : List (Option Bytes) := []

/-- Code that mutates the connection and may end in `SSLfatal`. -/
abbrev ShareStep (Pkey : Type) := EStateM Fatal (ShareConn Pkey)

variable {X509 Pkey : Type}

/-! ## secrets -/

/-- `tls13_generate_handshake_secret` -/
def tls13GenerateHandshakeSecret (insecret : Option Bytes) : ShareStep Pkey Unit :=
  modify fun s => { s with inputs := s.inputs ++ [insecret] }

/-- `ssl_gensecret`; the early secret is not modelled. -/
def sslGensecret (pms : Bytes) : ShareStep Pkey Unit := tls13GenerateHandshakeSecret (some pms)

variable (lib : Libcrypto X509 Pkey)

/-- `ssl_derive` -/
def sslDerive (privkey pubkey : Pkey) (gensecret : Bool) : ShareStep Pkey Unit := do
  let pms ← orThrow ⟨.internalError, .internalError⟩ (lib.derive privkey pubkey)
  if gensecret then do
    modify fun s => { s with ecdhSecrets := s.ecdhSecrets ++ [pms] }
    sslGensecret pms
  else modify fun s => { s with ecdhSecrets := s.ecdhSecrets ++ [pms], pms := some pms }

/-- `ssl_encapsulate` without `gensecret` -/
def sslEncapsulate (pubkey : Pkey) (rnd : Bytes) : ShareStep Pkey Bytes := do
  let (ct, pms) ← orThrow ⟨.internalError, .internalError⟩ (lib.encapsulate pubkey rnd)
  check (pms ≠ [] ∧ ct ≠ []) ⟨.internalError, .internalError⟩
  modify fun s => { s with pms := some pms }
  pure ct

/-- `ssl_decapsulate` with `gensecret` -/
def sslDecapsulate (privkey : Pkey) (ct : Bytes) : ShareStep Pkey Unit := do
  let pms ← orThrow ⟨.internalError, .internalError⟩ (lib.decapsulate privkey ct)
  sslGensecret pms

/-- `ssl_sm2_kyber768_tls13_combine_and_gensecret` -/
def sslSm2Kyber768Tls13CombineAndGensecret (kyberSs : Buf 32) : ShareStep Pkey Unit := do
  let s ← get
  let ecdh ← orThrow ⟨.internalError, .internalError⟩ s.pms
  check (ecdh ≠ []) ⟨.internalError, .internalError⟩
  modify fun s => { s with pms := none }
  sslGensecret (ecdh ++ kyberSs.1)

variable (env : GroupTable Pkey)

/-- `tls13_set_encoded_pub_key` -/
def tls13SetEncodedPubKey (pkey : Pkey) (enckey : Bytes) : Option Pkey :=
  if lib.isA pkey "DH" then
    if env.bits pkey = 0 ∨ enckey.length ≠ env.bits pkey / 8 then none
    else lib.setEncodedPublicKey pkey enckey
  else if lib.isA pkey "EC" then
    if enckey.length < 3 ∨ enckey.head? ≠ some 4 then none
    else lib.setEncodedPublicKey pkey enckey
  else lib.setEncodedPublicKey pkey enckey

/-- `check_in_list` -/
def checkInList (groupId : Nat) (groups : List Nat) (checkallow : Bool) : Bool :=
  groups.any fun group => groupId == group && (!checkallow || env.checked group)

/-! ## the ClientHello at the client -/

/-- The key of `add_key_share`: a new one, or behind a HelloRetryRequest that
asks for no other group the old one. -/
def keyShareKey (rnd : Bytes) (curveId : Nat) : ShareStep Pkey Pkey := do
  let s ← get
  match s.pkey with
  | some key => do
      check (s.helloRetryRequest = .pending) ⟨.internalError, .internalError⟩
      pure key
  | none => orThrow ⟨.internalError, .internalError⟩ (lib.generatePkeyGroup curveId rnd)

/-- `add_key_share` -/
def addKeyShare (rnd : Bytes) (curveId : Nat) : ShareStep Pkey Bytes := do
  let key ← keyShareKey lib rnd curveId
  let encoded := lib.encodedPublicKey key
  check (encoded ≠ []) ⟨.internalError, .ecLib⟩
  let share ← orThrow ⟨.internalError, .internalError⟩ (putPrefixed 2 encoded)
  modify fun s => { s with pkey := some key, groupId := curveId }
  pure (putUint 2 curveId ++ share)

/-- `add_key_share_kyber768` -/
def addKeyShareKyber768 (rnd : Bytes) : ShareStep Pkey Bytes := do
  let s ← get
  check (s.kyber768CliSk = none) ⟨.internalError, .internalError⟩
  let (pk, sk) ← orThrow ⟨.internalError, .internalError⟩ (lib.kyberKeypair rnd)
  modify fun s => { s with kyber768CliSk := some sk }
  pure (putUint 2 kyber768Group ++ (putUint 2 1184 ++ pk.1))

/-- What the client draws for its shares. -/
structure ShareRandom where
  ec : Bytes := []
  kyber : Bytes := []

/-- `tls_construct_ctos_key_share`: the data of the extension -/
def tlsConstructCtosKeyShare (rnd : ShareRandom) : ShareStep Pkey Bytes := do
  let s ← get
  if s.hybrid then do
    check (s.helloRetryRequest ≠ .pending) ⟨.handshakeFailure, .noSuitableKeyShare⟩
    check (curveSM2 ∈ s.groups ∧ kyber768Group ∈ s.groups) ⟨.internalError, .noSuitableKeyShare⟩
    let classical ← addKeyShare lib rnd.ec curveSM2
    let kyber ← addKeyShareKyber768 lib rnd.kyber
    orThrow ⟨.internalError, .internalError⟩ (putPrefixed 2 (classical ++ kyber))
  else do
    let curveId ← orThrow ⟨.internalError, .noSuitableKeyShare⟩
      (if s.groupId ≠ 0 then some s.groupId
        else s.groups.find? fun group => env.allowed group && env.valid group)
    let share ← addKeyShare lib rnd.ec curveId
    orThrow ⟨.internalError, .internalError⟩ (putPrefixed 2 share)

/-- The groups that `tls_construct_ctos_supported_groups` sends: Kyber768 is
sent in any case by a hybrid client. -/
def sentGroups (s : ShareConn Pkey) : List Nat :=
  s.groups.filter fun group =>
    let kyberTls13Hybrid := s.hybrid && group == kyber768Group
    (env.valid group || kyberTls13Hybrid) && (env.allowed group || kyberTls13Hybrid)

/-! ## the ClientHello at the server -/

/-- The share for a group that is not Kyber768 in hybrid mode.  `rest` is
whether more shares come. -/
def parseShare (groupId : Nat) (encodedPt : Bytes) (rest : Bool) : ShareStep Pkey Bool := do
  let s ← get
  check (s.groupId = 0 ∨ (groupId = s.groupId ∧ rest = false)) ⟨.illegalParameter, .badKeyShare⟩
  check (checkInList env groupId s.peerGroups false = true) ⟨.illegalParameter, .badKeyShare⟩
  if checkInList env groupId s.groups true && env.allowed groupId && env.valid groupId &&
      !(s.ctxHybrid && groupId != curveSM2) then do
    let param ← orThrow ⟨.internalError, .unableToFindEcdhParameters⟩
      (lib.generateParamGroup groupId)
    modify fun s => { s with peerTmp := some param, groupId := groupId, kexGroup := groupId }
    let peer ← orThrow ⟨.illegalParameter, .badEcpoint⟩
      (tls13SetEncodedPubKey lib env param encodedPt)
    modify fun s => { s with peerTmp := some peer }
    pure true
  else pure false

/-- The share for Kyber768 in hybrid mode. -/
def parseKyberShare (encodedPt : Bytes) : ShareStep Pkey Unit := do
  let s ← get
  check (s.peerKyber768Pk = none) ⟨.illegalParameter, .badKeyShare⟩
  check (checkInList env kyber768Group s.groups false = true ∧
    checkInList env kyber768Group s.peerGroups false = true) ⟨.illegalParameter, .badKeyShare⟩
  let pk ← orThrow ⟨.illegalParameter, .badKeyShare⟩
    (if h : encodedPt.length = 1184 then some (⟨encodedPt, h⟩ : Buf 1184) else none)
  modify fun s => { s with peerKyber768Pk := some pk }

/-- The loop over the shares, with whether a suitable share and a Kyber768 share
were found.  A share takes bytes, so the fuel does not run out. -/
def parseShares (lib : Libcrypto X509 Pkey) (env : GroupTable Pkey) :
    Nat → Bytes → Bool → Bool → ShareStep Pkey (Bool × Bool)
  | _, [], found, foundKyber => pure (found, foundKyber)
  | 0, _ :: _, _, _ => throw ⟨.internalError, .internalError⟩
  | fuel + 1, b :: bs, found, foundKyber => do
      let (groupId, pkt) ← orThrow ⟨.decodeError, .lengthMismatch⟩ (getUint 2 (b :: bs))
      let (encodedPt, pkt) ← orThrow ⟨.decodeError, .lengthMismatch⟩ (getPrefixed 2 pkt)
      check (encodedPt ≠ []) ⟨.decodeError, .lengthMismatch⟩
      let s ← get
      if s.ctxHybrid = true ∧ groupId = kyber768Group then do
        parseKyberShare env encodedPt
        parseShares lib env fuel pkt found true
      else if found then parseShares lib env fuel pkt found foundKyber
      else do
        let found ← parseShare lib env groupId encodedPt (!pkt.isEmpty)
        parseShares lib env fuel pkt found foundKyber

/-- `tls_parse_ctos_key_share` -/
def tlsParseCtosKeyShare (pkt : Bytes) : ShareStep Pkey Unit := do
  let s ← get
  onlyIf (¬ (s.hit = true ∧ s.pskKeDhe = false)) do
    check (s.peerTmp.isNone = true) ⟨.internalError, .internalError⟩
    let (list, rest) ← orThrow ⟨.decodeError, .lengthMismatch⟩ (getPrefixed 2 pkt)
    check (rest = []) ⟨.decodeError, .lengthMismatch⟩
    check (s.peerGroups ≠ []) ⟨.missingExtension, .missingSupportedGroupsExtension⟩
    check (s.groupId = 0 ∨ list ≠ []) ⟨.illegalParameter, .badKeyShare⟩
    let (found, foundKyber) ← parseShares lib env list.length list false false
    let s ← get
    check (s.ctxHybrid = false ∨ (found = true ∧ foundKyber = true ∧ s.groupId = curveSM2))
      ⟨.illegalParameter, .badKeyShare⟩

/-- A server that is stateless and has no cookie asks again. -/
def retryStateless : ShareStep Pkey Unit := do
  let s ← get
  check (s.helloRetryRequest = .none) ⟨.internalError, .internalError⟩
  modify fun s => { s with helloRetryRequest := .pending }

/-- The server's side of `final_key_share`, up to the check for the hybrid. -/
def finalKeyShareServer (sent : Bool) : ShareStep Pkey Unit := do
  let s ← get
  let complete : ShareStep Pkey Unit := modify fun s => { s with
    helloRetryRequest := if s.helloRetryRequest = .pending then .complete else s.helloRetryRequest }
  if s.peerTmp.isSome then
    if s.statelessPending then retryStateless else complete
  else
    let shared :=
      if s.helloRetryRequest = .none ∧ sent = true ∧ (s.hit = false ∨ s.pskKeDhe = true) then
        s.groups.find? fun group => checkInList env group s.peerGroups true
      else none
    match shared with
    | some group =>
      modify fun s => { s with groupId := group, helloRetryRequest := .pending }
    | none => do
        check (s.hit = true ∧ s.pskKe = true)
          ⟨if sent then .handshakeFailure else .missingExtension, .noSuitableKeyShare⟩
        if s.statelessPending then retryStateless else complete

/-- `final_key_share` -/
def finalKeyShare (sent : Bool) : ShareStep Pkey Unit := do
  let s ← get
  if s.server then do
    finalKeyShareServer env sent
    let s ← get
    check (s.helloRetryRequest = .pending ∨ s.ctxHybrid = false ∨ s.peerTmp.isNone = true ∨
      s.peerKyber768Pk.isSome = true) ⟨.illegalParameter, .badKeyShare⟩
  else do
    check (sent = true ∨ (s.hit = true ∧ s.pskKe = true)) ⟨.missingExtension, .noSuitableKeyShare⟩
    onlyIf (sent = false) (tls13GenerateHandshakeSecret none)

/-! ## the ServerHello at the server -/

/-- What the server draws for its share and for the ciphertext. -/
structure ServerRandom where
  share : Bytes := []
  kyber : Bytes := []

/-- The hybrid is on and the client sent its Kyber768 key. -/
def ShareConn.kyberPending (s : ShareConn Pkey) : Bool := s.hybrid && s.peerKyber768Pk.isSome

/-- The server's own share for the peer's key: a public key, or the ciphertext
of a KEM. -/
def serverShare (rnd : Bytes) (isKem : Bool) (ckey : Pkey) : ShareStep Pkey Bytes := do
  let s ← get
  if isKem then do
    let ct ← sslEncapsulate lib ckey rnd
    let share ← orThrow ⟨.internalError, .internalError⟩ (putPrefixed 2 ct)
    let s ← get
    let pms ← orThrow ⟨.internalError, .internalError⟩ s.pms
    sslGensecret pms
    pure share
  else do
    let skey ← orThrow ⟨.internalError, .mallocFailure⟩ (lib.generatePkey ckey rnd)
    let encodedPoint := lib.encodedPublicKey skey
    check (encodedPoint ≠ []) ⟨.internalError, .ecLib⟩
    let share ← orThrow ⟨.internalError, .internalError⟩ (putPrefixed 2 encodedPoint)
    modify fun s => { s with pkey := some skey }
    sslDerive lib skey ckey (!s.kyberPending)
    pure share

/-- `tls_construct_stoc_key_share`: the data of the extension; `none` is
`EXT_RETURN_NOT_SENT` -/
def tlsConstructStocKeyShare (rnd : Bytes) : ShareStep Pkey (Option Bytes) := do
  let s ← get
  if s.helloRetryRequest = .pending then
    pure (if s.peerTmp.isSome then none else some (putUint 2 s.groupId))
  else
    match s.peerTmp with
    | none => do
        check (s.hit = true) ⟨.internalError, .internalError⟩
        tls13GenerateHandshakeSecret none
        pure none
    | some ckey =>
      if s.hit = true ∧ s.pskKeDhe = false then pure none
      else do
        let isKem ← orThrow ⟨.internalError, .internalError⟩ (env.isKem s.groupId)
        let share ← serverShare lib rnd isKem ckey
        modify fun s => { s with didKex := s.didKex || !s.kyberPending }
        pure (some (putUint 2 s.groupId ++ share))

/-- `tls_construct_stoc_kyber768_ciphertext` -/
def tlsConstructStocKyber768Ciphertext (rnd : Bytes) : ShareStep Pkey (Option Bytes) := do
  let s ← get
  if s.hybrid = false ∨ s.server = false ∨ s.helloRetryRequest = .pending then pure none
  else
    match s.peerKyber768Pk, s.pms with
    | some pk, some _ => do
        let (ct, ss) ← orThrow ⟨.internalError, .internalError⟩ (lib.kyberEnc pk rnd)
        modify fun s => { s with kyberSecrets := s.kyberSecrets ++ [ss.1] }
        sslSm2Kyber768Tls13CombineAndGensecret ss
        modify fun s => { s with didKex := true }
        pure (some ct.1)
    | _, _ => pure none

/-! ## the ServerHello at the client -/

/-- `tls_parse_stoc_key_share` in a HelloRetryRequest -/
def tlsParseHrrKeyShare (pkt : Bytes) : ShareStep Pkey Unit := do
  let s ← get
  check (s.pkey.isSome = true ∧ s.peerTmp.isNone = true) ⟨.internalError, .internalError⟩
  let (groupId, pkt) ← orThrow ⟨.decodeError, .lengthMismatch⟩ (getUint 2 pkt)
  check (pkt = []) ⟨.decodeError, .lengthMismatch⟩
  check (groupId ≠ s.groupId) ⟨.illegalParameter, .badKeyShare⟩
  check (groupId ∈ s.groups ∧ env.allowed groupId = true ∧ env.valid groupId = true)
    ⟨.illegalParameter, .badKeyShare⟩
  modify fun s => { s with groupId := groupId, pkey := none }

/-- What the client makes of the server's share.  The key that a public key is
set on has the parameters of the client's own. -/
def clientShare (isKem : Bool) (ckey : Pkey) (encodedPt : Bytes) : ShareStep Pkey Unit := do
  let s ← get
  if isKem then sslDecapsulate lib ckey encodedPt
  else do
    let skey ← orThrow ⟨.illegalParameter, .badEcpoint⟩
      (tls13SetEncodedPubKey lib env ckey encodedPt)
    sslDerive lib ckey skey (!s.hybrid)
    modify fun s => { s with peerTmp := some skey }

/-- `tls_parse_stoc_key_share` in a ServerHello -/
def tlsParseStocKeyShare (pkt : Bytes) : ShareStep Pkey Unit := do
  let s ← get
  let ckey ← orThrow ⟨.internalError, .internalError⟩ s.pkey
  check (s.peerTmp.isNone = true) ⟨.internalError, .internalError⟩
  let (groupId, pkt) ← orThrow ⟨.decodeError, .lengthMismatch⟩ (getUint 2 pkt)
  check (groupId = s.groupId) ⟨.illegalParameter, .badKeyShare⟩
  modify fun s => { s with kexGroup := groupId }
  let isKem ← orThrow ⟨.illegalParameter, .badKeyShare⟩ (env.isKem groupId)
  let (encodedPt, rest) ← orThrow ⟨.decodeError, .lengthMismatch⟩ (getPrefixed 2 pkt)
  check (rest = [] ∧ encodedPt ≠ []) ⟨.decodeError, .lengthMismatch⟩
  clientShare lib env isKem ckey encodedPt
  modify fun s => { s with didKex := s.didKex || !s.hybrid }

/-- `tls_parse_stoc_kyber768_ciphertext` -/
def tlsParseStocKyber768Ciphertext (pkt : Bytes) : ShareStep Pkey Unit := do
  let s ← get
  onlyIf (s.hybrid = true) do
    let ct ← orThrow ⟨.decodeError, .lengthMismatch⟩
      (if h : pkt.length = 1088 then some (⟨pkt, h⟩ : Buf 1088) else none)
    let sk ← orThrow ⟨.internalError, .internalError⟩ s.kyber768CliSk
    check (s.pms.isSome = true) ⟨.internalError, .internalError⟩
    let ss ← orThrow ⟨.illegalParameter, .badKeyShare⟩ (lib.kyberDec sk ct)
    modify fun s => { s with kyberSecrets := s.kyberSecrets ++ [ss.1] }
    sslSm2Kyber768Tls13CombineAndGensecret ss
    modify fun s => { s with didKex := true }

/-- `final_tls1_3_kyber768_ciphertext` for a ServerHello -/
def finalTls13Kyber768Ciphertext (sent : Bool) : ShareStep Pkey Unit := do
  let s ← get
  check (s.hybrid = false ∨ s.server = true ∨ sent = true) ⟨.missingExtension, .extensionNotReceived⟩

/-! ## whole messages -/

/-- The parser of an extension runs if the extension is there. -/
def parseExtension (ext : Option Bytes) (parser : Bytes → ShareStep Pkey Unit) :
    ShareStep Pkey Unit :=
  match ext with
  | some pkt => parser pkt
  | none => pure ()

/-- A ClientHello, with what its other extensions leave behind.  `ctx` is the
switch of the `SSL_CTX` that a server-name callback attaches: it runs between
the parsers and the finaliser of key_share. -/
structure ClientHello where
  hit : Bool := false
  pskKe : Bool := false
  pskKeDhe : Bool := false
  statelessPending : Bool := false
  groups : List Nat
  peerGroups : List Nat
  keyShare : Option Bytes
  ctx : Option Bool := none

/-- What the connection has from the other extensions. -/
def ClientHello.adopt (hello : ClientHello) (s : ShareConn Pkey) : ShareConn Pkey := { s with
    hit := hello.hit
    pskKe := hello.pskKe
    pskKeDhe := hello.pskKeDhe
    statelessPending := hello.statelessPending
    groups := hello.groups
    peerGroups := hello.peerGroups }

/-- The server processes a ClientHello. -/
def processClientHello (hello : ClientHello) : ShareStep Pkey Unit := do
  modify hello.adopt
  parseExtension hello.keyShare (tlsParseCtosKeyShare lib env)
  modify fun s => { s with ctxHybrid := hello.ctx.getD s.ctxHybrid }
  finalKeyShare env hello.keyShare.isSome

/-- The two extensions of a ServerHello, in the order of the extension table. -/
structure ServerHello where
  keyShare : Option Bytes
  kyber768Ciphertext : Option Bytes

/-- The server constructs a ServerHello, or a HelloRetryRequest. -/
def constructServerHello (rnd : ServerRandom) : ShareStep Pkey ServerHello := do
  let keyShare ← tlsConstructStocKeyShare lib env rnd.share
  let kyber768Ciphertext ← tlsConstructStocKyber768Ciphertext lib rnd.kyber
  pure ⟨keyShare, kyber768Ciphertext⟩

/-- The client processes a ServerHello.  `hit` comes from pre_shared_key. -/
def processServerHello (hit : Bool) (hello : ServerHello) : ShareStep Pkey Unit := do
  modify fun s => { s with hit := hit }
  parseExtension hello.keyShare (tlsParseStocKeyShare lib env)
  parseExtension hello.kyber768Ciphertext (tlsParseStocKyber768Ciphertext lib)
  finalKeyShare env hello.keyShare.isSome
  finalTls13Kyber768Ciphertext hello.kyber768Ciphertext.isSome

/-- The client processes a HelloRetryRequest. -/
def processHelloRetryRequest (keyShare : Option Bytes) : ShareStep Pkey Unit := do
  modify fun s => { s with helloRetryRequest := .pending }
  parseExtension keyShare (tlsParseHrrKeyShare env)

/-! ## plain groups -/

/-- Groups that are all there, and none of them a KEM. -/
def GroupTable.plain : GroupTable (String × Bytes) where
  isKem _ := some false
  valid _ := true
  allowed _ := true
  checked _ := true
  bits _ := 0

end Tlcp.Tls13
