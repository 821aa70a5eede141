import Tlcp.Tls13.DualCert

/-!
# Tlcp.Tls13.DualSwitch

The switch for the GM dual-certificate mode and the decisions that depend on it.

```text
   client   offer (ClientHello) ............................. act (EncryptedExtensions)
   server   act (ClientHello) .. sign, enc (tls_choose_sigalg) .. echo (EncryptedExtensions)
```

`SSL_set_gm_tls13_dual_cert` sets the switch of the connection; every decision
reads the switch of its `SSL_CTX`.  Each of them is made of the switch and of what
else it asks for, so that `tlsChooseSigalg` and the functions of the extension are
written over `dualOffer`, `dualServe`, `dualSign` and `dualEnc`.  The application
may change the configuration between two decisions.
-/

namespace Tlcp.Tls13

open Octets Fallible

variable {X509 Pkey : Type}
variable {a b : Bool} {lu : SigalgLookup}

/-! ## certificates and signature algorithms -/

/-- The slots `SSL_PKEY_*` of a `CERT` -/
inductive PkeySlot where
  | rsa | rsaPssSign | dsaSign | ecc | ed25519 | ed448 | sm2 | sm2Sign | sm2Enc | rsaSign | rsaEnc
deriving DecidableEq, Repr

/-- `TLSEXT_SIGALG_*`, as far as they are told apart -/
inductive Sigalg where
  | sm2sigSm3
  | mldsa44
  | other (code : Nat)
deriving DecidableEq, Repr

/-- The hash of a signature algorithm, as far as it is told apart. -/
inductive SigalgHash where
  | sha1 | sha224 | other (nid : Nat)
deriving DecidableEq, Repr

/-- The key type of a signature algorithm, as far as it is told apart. -/
inductive SigalgKey where
  | dsa | rsa | ec | sm2 | rsaPss | other (nid : Nat)
deriving DecidableEq, Repr

/-- `SIGALG_LOOKUP`; the curve `none` is `NID_undef` -/
structure SigalgLookup where
  sigalg : Sigalg
  hash : SigalgHash
  sig : SigalgKey
  sigIdx : PkeySlot
  curve : Option Nat
deriving DecidableEq, Repr

/-- What is asked of libcrypto about algorithms and keys. -/
structure SigalgEnv (X509 Pkey : Type) where
  /-- `tls1_lookup_md` -/
  lookupMd : SigalgLookup → Bool
  /-- `check_cert_usable`, with the peer's signature_algorithms_cert -/
  checkCertUsable : SigalgLookup → CertPkey X509 Pkey → Bool
  /-- `ssl_get_EC_curve_nid` -/
  ecCurve : Option Pkey → Option Nat
  /-- `rsa_pss_check_min_key_size` -/
  pssKeySize : Option Pkey → SigalgLookup → Bool
  /-- `EVP_PKEY_is_sm2` -/
  isSm2 : Pkey → Bool
  /-- one of the names of ML-DSA -/
  isMldsa : Pkey → Bool

/-! ## the connection -/

/-- What the application can change while a handshake runs: the switch of the
connection, that of its `SSL_CTX`, and the certificates. -/
structure DualConfig (X509 Pkey : Type) where
  enableGmTls13DualCert : Bool
  ctxEnableGmTls13DualCert : Bool
  pkeys : PkeySlot → CertPkey X509 Pkey

/-- `ssl_has_cert` -/
def DualConfig.hasCert (cfg : DualConfig X509 Pkey) (idx : PkeySlot) : Bool :=
  (cfg.pkeys idx).x509.isSome && (cfg.pkeys idx).privatekey.isSome

/-- The signing and the encryption certificate are there. -/
def DualConfig.hasBoth (cfg : DualConfig X509 Pkey) : Bool :=
  cfg.hasCert .sm2Sign && cfg.hasCert .sm2Enc

/-- `tls13_dual_cert_sigalg_matches_sign_key` -/
def DualConfig.sigalgMatchesSignKey (cfg : DualConfig X509 Pkey) (env : SigalgEnv X509 Pkey)
    (lu : SigalgLookup) : Bool :=
  match lu.sigalg with
  | .sm2sigSm3 => cfg.hasCert .sm2Sign && (cfg.pkeys .sm2Sign).privatekey.any env.isSm2
  | .mldsa44 => cfg.hasCert .sm2Sign && (cfg.pkeys .sm2Sign).privatekey.any env.isMldsa
  | .other _ => false

/-- The connection, as far as the dual-certificate mode is concerned. -/
structure DualConn (X509 Pkey : Type) where
  server : Bool
  config : DualConfig X509 Pkey
  /-- `SSL_IS_TLS13` -/
  isTls13 : Bool := true
  /-- the highest version of `ssl_get_min_max_version` -/
  maxVersion : Except Reason Nat := .ok 0x0304
  enableSmTls13Strict : Bool := false
  hit : Bool := false
  /-- `s3.tmp.new_cipher` -/
  newCipher : Option Nat := none
  sharedSigalgs : List SigalgLookup := []
  /-- `ext.tls13_gm_dual_cert_request` -/
  dualCertRequest : Bool := false
  /-- `ext.tls13_gm_dual_cert` -/
  dualCert : Bool := false
  /-- `SSL_EXT_FLAG_SENT` of the extension -/
  extSent : Bool := false
  /-- `s3.tmp.cert` -/
  cert : Option PkeySlot := none
  /-- `s3.tmp.tls13_gm_enc_cert` -/
  gmEncCert : Option PkeySlot := none
  /-- `s3.tmp.sigalg` -/
  sigalg : Option SigalgLookup := none

variable (env : SigalgEnv X509 Pkey) (s : DualConn X509 Pkey)

/-- The application changes the configuration. -/
def DualConn.reconfigure (cfg : DualConfig X509 Pkey) : DualConn X509 Pkey :=
  { s with config := cfg }

/-- The cipher is `TLS1_3_CK_SM4_GCM_SM3` or `TLS1_3_CK_SM4_CCM_SM3`. -/
def DualConn.gmCipher : Bool :=
  s.newCipher == some 0x030000C6 || s.newCipher == some 0x030000C7

/-! ## what the decisions ask for -/

section

variable (switch : Bool) (s : DualConn X509 Pkey)

/-- The client offers the extension. -/
def dualOffer : Bool := switch && match s.maxVersion with
    | .ok version => decide (0x0304 ≤ version)
    | .error _ => false

/-- The server acts on the client's request, and echoes it. -/
def dualServe : Bool := s.dualCertRequest && switch && s.config.hasBoth && s.gmCipher

/-- The server signs with the certificate in the signing slot. -/
def dualSign (env : SigalgEnv X509 Pkey) (lu : SigalgLookup) : Bool :=
  s.isTls13 && s.server && switch && s.config.sigalgMatchesSignKey env lu &&
    s.config.hasCert .sm2Sign

/-- The server has the certificate in the encryption slot ready. -/
def dualEnc : Bool := s.isTls13 && s.server && switch && s.config.hasCert .sm2Enc

end

/-! ## the extension -/

/-- One of the functions of the source. -/
abbrev DualStep (X509 Pkey : Type) := EStateM Fatal (DualConn X509 Pkey)

/-- `init_tls1_3_gm_dual_cert` for a ClientHello -/
def initTls13GmDualCert : DualStep X509 Pkey Unit :=
  modify fun s => { s with dualCert := false, dualCertRequest := false }

/-- `tls_parse_ctos_tls1_3_gm_dual_cert` -/
def tlsParseCtosTls13GmDualCert (pkt : Bytes) : DualStep X509 Pkey Unit := do
  check (pkt = []) ⟨.decodeError, .badExtension⟩
  modify fun s => { s with dualCertRequest := true }

/-- `tls_parse_stoc_tls1_3_gm_dual_cert` -/
def tlsParseStocTls13GmDualCert (pkt : Bytes) : DualStep X509 Pkey Unit := do
  check (pkt = []) ⟨.decodeError, .badExtension⟩
  modify fun s => { s with dualCert := true }

/-- `tls_construct_ctos_tls1_3_gm_dual_cert`: the data of the extension, if it is
sent -/
def tlsConstructCtosTls13GmDualCert : DualStep X509 Pkey (Option Bytes) := do
  let s ← get
  if s.config.ctxEnableGmTls13DualCert = false then pure none
  else
    match s.maxVersion with
    | .error reason => throw ⟨.internalError, reason⟩
    | .ok maxVersion =>
      if maxVersion < 0x0304 then pure none
      else do
        modify fun s => { s with dualCertRequest := true, extSent := true }
        pure (some [])

/-- `tls_construct_stoc_tls1_3_gm_dual_cert`: the data of the extension, if it is
sent -/
def tlsConstructStocTls13GmDualCert : DualStep X509 Pkey (Option Bytes) := do
  let s ← get
  if s.server = false then pure none
  else if dualServe s.config.ctxEnableGmTls13DualCert s then pure (some [])
  else pure none

/-- `final_tls1_3_gm_dual_cert` for a ClientHello -/
def finalTls13GmDualCert : DualStep X509 Pkey Unit := modify fun s =>
    if s.server = true ∧ dualServe s.config.ctxEnableGmTls13DualCert s = true then
      { s with dualCert := true }
    else s

/-! ## the certificates -/

/-- SHA1, SHA224, DSA, and RSA if not PSS, are not for TLS 1.3. -/
def SigalgLookup.legacy (lu : SigalgLookup) : Bool :=
  lu.hash == .sha1 || lu.hash == .sha224 || lu.sig == .dsa || lu.sig == .rsa

/-- `has_usable_cert` for the slot of the algorithm -/
def hasUsableCert (lu : SigalgLookup) : Bool :=
  s.config.hasCert lu.sigIdx && env.checkCertUsable lu (s.config.pkeys lu.sigIdx)

/-- RFC 8998 in strict mode: with an SM4 suite the server signs with SM2 or
ML-DSA. -/
def strictRefuses (lu : SigalgLookup) : Bool :=
  s.isTls13 && s.enableSmTls13Strict && s.server && s.gmCipher &&
    !(lu.sigalg == .sm2sigSm3 || lu.sigalg == .mldsa44)

/-- The tests of `find_sig_alg` that do not look at the curve or the size of a
key. -/
def skipsSigalg (lu : SigalgLookup) : Bool :=
  lu.legacy || !env.lookupMd lu ||
    (!hasUsableCert env s lu && !dualSign s.config.ctxEnableGmTls13DualCert s env lu) ||
    strictRefuses s lu

/-- The key that would sign with an algorithm. -/
def tmppkey (lu : SigalgLookup) : Option Pkey :=
  (s.config.pkeys (if dualSign s.config.ctxEnableGmTls13DualCert s env lu then .sm2Sign
    else lu.sigIdx)).privatekey

/-- The loop of `find_sig_alg` for the server's own certificates.  The curve is
looked up once, for the first key that is asked for one. -/
def findSigAlg (env : SigalgEnv X509 Pkey) (s : DualConn X509 Pkey) :
    List SigalgLookup → Option (Option Nat) → Option SigalgLookup
  | [], _ => none
  | lu :: rest, curve =>
    if skipsSigalg env s lu then findSigAlg env s rest curve
    else if lu.sig = .ec ∨ lu.sig = .sm2 then
      if lu.curve.isSome && curve.getD (env.ecCurve (tmppkey env s lu)) != lu.curve then
        findSigAlg env s rest (some (curve.getD (env.ecCurve (tmppkey env s lu))))
      else some lu
    else if lu.sig = .rsaPss ∧ env.pssKeySize (tmppkey env s lu) lu = false then
      findSigAlg env s rest curve
    else some lu

/-- `tls_choose_sigalg` of a TLS 1.3 server -/
def tlsChooseSigalg : DualStep X509 Pkey Unit := do
  modify fun s => { s with cert := none, sigalg := none }
  let s ← get
  let lu ← orThrow ⟨.handshakeFailure, .noSuitableSignatureAlgorithm⟩
    (findSigAlg env s s.sharedSigalgs none)
  modify fun s => { s with
    cert := some (if dualSign s.config.ctxEnableGmTls13DualCert s env lu then .sm2Sign
      else lu.sigIdx)
    gmEncCert := if dualEnc s.config.ctxEnableGmTls13DualCert s then some .sm2Enc else none
    sigalg := some lu }

/-! ## one handshake -/

/-- The parser of an extension of a hello runs if the extension is there. -/
def parseIfPresent (parser : Bytes → DualStep X509 Pkey Unit) :
    Option Bytes → DualStep X509 Pkey Unit
  | some pkt => parser pkt
  | none => pure ()

/-- The server from the ClientHello to its EncryptedExtensions.  The configuration
of the connection is the one at the finaliser of the extension, behind a
server-name callback; `post` is the one behind the certificate callback and `ee`
the one when the answer is written.  A resumed session needs no certificate. -/
def dualServerFlight (request : Option Bytes)
    (post ee : DualConfig X509 Pkey) : DualStep X509 Pkey Bool := do
  initTls13GmDualCert
  parseIfPresent tlsParseCtosTls13GmDualCert request
  finalTls13GmDualCert
  modify (DualConn.reconfigure · post)
  let s ← get
  onlyIf (s.hit = false) (tlsChooseSigalg env)
  modify (DualConn.reconfigure · ee)
  let echo ← tlsConstructStocTls13GmDualCert
  pure echo.isSome

/-- The client from its ClientHello to the server's EncryptedExtensions.  An
extension that the client did not send is refused there. -/
def dualClientFlight (post : DualConfig X509 Pkey) (echo : Option Bytes) :
    DualStep X509 Pkey Bool := do
  let offer ← tlsConstructCtosTls13GmDualCert
  modify (DualConn.reconfigure · post)
  let s ← get
  check (echo = none ∨ s.extSent = true) ⟨.unsupportedExtension, .unsolicitedExtension⟩
  parseIfPresent tlsParseStocTls13GmDualCert echo
  pure offer.isSome

/-- The server behind the parsers of the ClientHello's extensions. -/
def DualConn.requested (request : Option Bytes) : DualConn X509 Pkey :=
  { s with dualCert := false, dualCertRequest := request.isSome }

/-- The server acts on the request. -/
def serverActs (request : Option Bytes) : Bool :=
  dualServe s.config.ctxEnableGmTls13DualCert (s.requested request)

/-- The server echoes the request under a configuration. -/
def serverEchoes (request : Option Bytes) (ee : DualConfig X509 Pkey) : Bool :=
  dualServe ee.ctxEnableGmTls13DualCert ((s.requested request).reconfigure ee)

/-- The client offers the extension. -/
def clientOffers : Bool := dualOffer s.config.ctxEnableGmTls13DualCert s

/-- The client acts on the server's answer. -/
def clientActs (echo : Option Bytes) : Bool :=
  echo.isSome && clientOffers s

/-! ## the functions make these decisions -/

section

variable {env s} {t : DualConn X509 Pkey} {request echo : Option Bytes}
  {post ee : DualConfig X509 Pkey} {done : Bool}

theorem findSigAlg_mem {lus : List SigalgLookup} {curve : Option (Option Nat)}
    (h : findSigAlg env s lus curve = some lu) : lu ∈ lus := by
  induction lus generalizing curve with
  | nil => cases h
  | cons first rest ih =>
    rw [findSigAlg] at h
    split_ifs at h
    · exact List.mem_cons_of_mem _ (ih h)
    · exact List.mem_cons_of_mem _ (ih h)
    · exact Option.some.inj h ▸ List.mem_cons_self
    · exact List.mem_cons_of_mem _ (ih h)
    · exact Option.some.inj h ▸ List.mem_cons_self

theorem tlsChooseSigalg_ok (h : (tlsChooseSigalg env).run s = .ok () t) :
    ∃ lu ∈ s.sharedSigalgs, t = { s with
      cert := some (if dualSign s.config.ctxEnableGmTls13DualCert s env lu then .sm2Sign
        else lu.sigIdx)
      gmEncCert := if dualEnc s.config.ctxEnableGmTls13DualCert s then some .sm2Enc else none
      sigalg := some lu } := by
  rw [tlsChooseSigalg, run_modify_bind_ok, run_get_bind_ok, run_orThrow_bind_ok] at h
  obtain ⟨lu, hfind, h⟩ := h
  exact ⟨lu, findSigAlg_mem hfind, (run_modify_ok.mp h).symm⟩

theorem finalTls13GmDualCert_requested (hserver : s.server = true) :
    (finalTls13GmDualCert : DualStep X509 Pkey Unit).run (s.requested request) =
      .ok () { s.requested request with dualCert := serverActs s request } := by
  rw [finalTls13GmDualCert, run_modify_ok]
  cases hact : serverActs s request with
  | false =>
    rw [if_neg fun h => Bool.false_ne_true (hact.symm.trans h.2)]
    rfl
  | true => rw [if_pos ⟨hserver, hact⟩]

theorem tlsConstructStocTls13GmDualCert_ok {data : Option Bytes}
    (h : (tlsConstructStocTls13GmDualCert : DualStep X509 Pkey _).run s = .ok data t)
    (hserver : s.server = true) :
    data.isSome = dualServe s.config.ctxEnableGmTls13DualCert s ∧ t = s := by
  rw [tlsConstructStocTls13GmDualCert, run_get_bind_ok, if_neg (by simp [hserver])] at h
  split at h
  · next hserve =>
    obtain ⟨rfl, rfl⟩ := run_pure_ok.mp h
    exact ⟨hserve.symm, rfl⟩
  · next hserve =>
    obtain ⟨rfl, rfl⟩ := run_pure_ok.mp h
    exact ⟨(Bool.not_eq_true _ ▸ hserve).symm, rfl⟩

/-- What a server has decided when it writes its EncryptedExtensions. -/
theorem dualServerFlight_ok (hserver : s.server = true)
    (h : (dualServerFlight env request post ee).run s = .ok done t) :
    done = serverEchoes s request ee ∧ t.dualCert = serverActs s request ∧ (s.hit = false →
        t.gmEncCert = (if dualEnc post.ctxEnableGmTls13DualCert (s.reconfigure post) then
          some .sm2Enc else none) ∧
        ∃ lu ∈ s.sharedSigalgs, t.cert = some
          (if dualSign post.ctxEnableGmTls13DualCert (s.reconfigure post) env lu then .sm2Sign
            else lu.sigIdx)) := by
  rw [dualServerFlight, initTls13GmDualCert, run_modify_bind_ok] at h
  obtain ⟨⟨⟩, s1, hparse, h⟩ := run_bind_ok.mp h
  have hs1 : s1 = s.requested request := by
    cases request with
    | none => exact (run_pure_ok.mp hparse).2.symm
    | some pkt =>
      rw [parseIfPresent, tlsParseCtosTls13GmDualCert, run_check_bind_ok] at hparse
      exact (run_modify_ok.mp hparse.2).symm
  subst hs1
  obtain ⟨⟨⟩, s2, hfinal, h⟩ := run_bind_ok.mp h
  rw [finalTls13GmDualCert_requested hserver] at hfinal
  obtain ⟨-, rfl⟩ := EStateM.Result.ok.inj hfinal
  rw [run_modify_bind_ok, run_get_bind_ok] at h
  obtain ⟨⟨⟩, s3, hchoose, h⟩ := run_bind_ok.mp h
  rw [run_modify_bind_ok] at h
  obtain ⟨data, s4, hecho, h⟩ := run_bind_ok.mp h
  obtain ⟨rfl, rfl⟩ := run_pure_ok.mp h
  rcases run_onlyIf_ok.mp hchoose with ⟨hhit, hchoose⟩ | ⟨hhit, rfl⟩
  · obtain ⟨lu, hlu, rfl⟩ := tlsChooseSigalg_ok hchoose
    obtain ⟨hdata, rfl⟩ := tlsConstructStocTls13GmDualCert_ok hecho hserver
    exact ⟨hdata, rfl, fun _ => ⟨rfl, lu, hlu, rfl⟩⟩
  · obtain ⟨hdata, rfl⟩ := tlsConstructStocTls13GmDualCert_ok hecho hserver
    exact ⟨hdata, rfl, fun h => (hhit h).elim⟩

theorem tlsConstructCtosTls13GmDualCert_ok {data : Option Bytes}
    (h : (tlsConstructCtosTls13GmDualCert : DualStep X509 Pkey _).run s = .ok data t)
    (hsent : s.extSent = false) :
    data.isSome = clientOffers s ∧ t.extSent = clientOffers s ∧ t.dualCert = s.dualCert := by
  rw [tlsConstructCtosTls13GmDualCert, run_get_bind_ok] at h
  split at h
  · next hoff =>
    obtain ⟨rfl, rfl⟩ := run_pure_ok.mp h
    simp [clientOffers, dualOffer, hoff, hsent]
  · next hon =>
    rw [Bool.not_eq_false] at hon
    split at h
    · exact (run_throw_ok.mp h).elim
    · next version hversion =>
      split at h
      · next hlow =>
        obtain ⟨rfl, rfl⟩ := run_pure_ok.mp h
        simp [clientOffers, dualOffer, hversion, hsent, hlow]
      · next hhigh =>
        rw [run_modify_bind_ok] at h
        obtain ⟨rfl, rfl⟩ := run_pure_ok.mp h
        simp [clientOffers, dualOffer, hon, hversion, Nat.not_lt.mp hhigh]

/-- What a client has decided when it has read the server's EncryptedExtensions. -/
theorem dualClientFlight_ok (hsent : s.extSent = false) (hdual : s.dualCert = false)
    (h : (dualClientFlight post echo).run s = .ok done t) :
    done = clientOffers s ∧ t.dualCert = clientActs s echo := by
  rw [dualClientFlight] at h
  obtain ⟨offer, s1, hoffer, h⟩ := run_bind_ok.mp h
  obtain ⟨hdone, hsent1, hdual1⟩ := tlsConstructCtosTls13GmDualCert_ok hoffer hsent
  rw [hdual] at hdual1
  rw [run_modify_bind_ok, run_get_bind_ok, run_check_bind_ok] at h
  obtain ⟨hcheck, h⟩ := h
  obtain ⟨⟨⟩, s2, hparse, h⟩ := run_bind_ok.mp h
  obtain ⟨rfl, rfl⟩ := run_pure_ok.mp h
  refine ⟨hdone, ?_⟩
  cases echo with
  | none =>
    obtain ⟨-, rfl⟩ := run_pure_ok.mp hparse
    exact hdual1
  | some pkt =>
    rw [parseIfPresent, tlsParseStocTls13GmDualCert, run_check_bind_ok] at hparse
    rw [← run_modify_ok.mp hparse.2, clientActs, ← hsent1]
    exact (hcheck.resolve_left nofun).symm

end

/-! ## the switch of the connection -/

/-- Every decision of the server is the one that the connection's own switch makes,
and they agree: it echoes the extension exactly if it acts on it, and then it has
selected the certificates. -/
structure ServerGoverned
    (request : Option Bytes) (post ee : DualConfig X509 Pkey) : Prop where
  act : serverActs s request = dualServe s.config.enableGmTls13DualCert (s.requested request)
  sign : s.hit = false → ∀ lu ∈ s.sharedSigalgs,
    dualSign post.ctxEnableGmTls13DualCert (s.reconfigure post) env lu =
      dualSign post.enableGmTls13DualCert (s.reconfigure post) env lu
  enc : s.hit = false → dualEnc post.ctxEnableGmTls13DualCert (s.reconfigure post) =
    dualEnc post.enableGmTls13DualCert (s.reconfigure post)
  echo : serverEchoes s request ee =
    dualServe ee.enableGmTls13DualCert ((s.requested request).reconfigure ee)
  act_echo : serverActs s request = serverEchoes s request ee
  act_select : serverActs s request = true → s.hit = false ∧
    dualEnc post.ctxEnableGmTls13DualCert (s.reconfigure post) = true ∧
    ∀ lu ∈ s.sharedSigalgs, post.sigalgMatchesSignKey env lu = true →
      dualSign post.ctxEnableGmTls13DualCert (s.reconfigure post) env lu = true

/-- The two decisions of the client are those of the connection's own switch. -/
structure ClientGoverned (post : DualConfig X509 Pkey)
    (echo : Option Bytes) : Prop where
  offer : clientOffers s = dualOffer s.config.enableGmTls13DualCert s
  act : clientActs s echo = true → post.enableGmTls13DualCert = true
  act_offer : clientActs s echo = true → clientOffers s = true

/-- The two switches of a configuration are the same. -/
def DualConfig.Same (cfg : DualConfig X509 Pkey) : Prop :=
  cfg.enableGmTls13DualCert = cfg.ctxEnableGmTls13DualCert

/-- Where a decision turns on the switch, the two switches are the same; and if
the client asks for the mode with an SM4 suite, the `SSL_CTX` and the certificates
allow it at the ClientHello exactly if they do so later on, in a full handshake. -/
structure ServerSteady
    (request : Option Bytes) (post ee : DualConfig X509 Pkey) : Prop where
  hello : request.isSome = true → s.gmCipher = true → s.config.hasBoth = true → s.config.Same
  select : s.hit = false → s.isTls13 = true → (post.hasCert .sm2Enc = true ∨
    ∃ lu ∈ s.sharedSigalgs, post.sigalgMatchesSignKey env lu = true) → post.Same
  answer : request.isSome = true → s.gmCipher = true → ee.hasBoth = true → ee.Same
  lasting : request.isSome = true → s.gmCipher = true →
    ((s.config.ctxEnableGmTls13DualCert = true ∧ s.config.hasBoth = true) ↔
      (ee.ctxEnableGmTls13DualCert = true ∧ ee.hasBoth = true)) ∧
    (s.config.ctxEnableGmTls13DualCert = true → s.config.hasBoth = true → s.hit = false ∧
      s.isTls13 = true ∧ post.ctxEnableGmTls13DualCert = true ∧ post.hasCert .sm2Enc = true)

/-- A client that can speak TLS 1.3 has the two switches the same when it writes
its ClientHello, and its own switch still on when the answer to an offer comes. -/
structure ClientSteady (post : DualConfig X509 Pkey)
    (echo : Option Bytes) : Prop where
  hello : (∃ version, s.maxVersion = .ok version ∧ 0x0304 ≤ version) → s.config.Same
  answer : (∃ version, s.maxVersion = .ok version ∧ 0x0304 ≤ version) →
    s.config.ctxEnableGmTls13DualCert = true → echo.isSome = true →
    post.enableGmTls13DualCert = true

section

variable {env s} {request echo : Option Bytes}
  {post ee : DualConfig X509 Pkey}

theorem dualServe_eq_true_iff : dualServe a s = true ↔
    s.dualCertRequest = true ∧ s.gmCipher = true ∧ a = true ∧ s.config.hasBoth = true := by
  simp only [dualServe, Bool.and_eq_true]
  exact ⟨fun h => ⟨h.1.1.1, h.2, h.1.1.2, h.1.2⟩, fun h => ⟨⟨⟨h.1, h.2.2.1⟩, h.2.2.2⟩, h.2.1⟩⟩

theorem dualServe_congr_iff : dualServe a s = dualServe b s ↔
    (s.dualCertRequest = true → s.gmCipher = true → s.config.hasBoth = true → b = a) := by
  rw [Bool.eq_iff_iff, dualServe_eq_true_iff, dualServe_eq_true_iff]
  cases a <;> cases b <;> simp

theorem dualSign_eq_true_iff : dualSign a s env lu = true ↔
    s.isTls13 = true ∧ s.server = true ∧ a = true ∧
      s.config.sigalgMatchesSignKey env lu = true := by
  have hmatch : s.config.sigalgMatchesSignKey env lu = true → s.config.hasCert .sm2Sign = true := by
    unfold DualConfig.sigalgMatchesSignKey
    split
    · exact fun h => (Bool.and_eq_true_iff.mp h).1
    · exact fun h => (Bool.and_eq_true_iff.mp h).1
    · exact nofun
  simp only [dualSign, Bool.and_eq_true, and_assoc]
  exact ⟨fun h => ⟨h.1, h.2.1, h.2.2.1, h.2.2.2.1⟩,
    fun h => ⟨h.1, h.2.1, h.2.2.1, h.2.2.2, hmatch h.2.2.2⟩⟩

theorem dualSign_congr_iff (hserver : s.server = true) : dualSign a s env lu = dualSign b s env lu ↔
      (s.isTls13 = true → s.config.sigalgMatchesSignKey env lu = true → b = a) := by
  rw [Bool.eq_iff_iff, dualSign_eq_true_iff, dualSign_eq_true_iff, hserver]
  cases a <;> cases b <;> simp

theorem dualEnc_eq_true_iff : dualEnc a s = true ↔
    s.isTls13 = true ∧ s.server = true ∧ a = true ∧ s.config.hasCert .sm2Enc = true := by
  simp only [dualEnc, Bool.and_eq_true, and_assoc]

theorem dualEnc_congr_iff (hserver : s.server = true) : dualEnc a s = dualEnc b s ↔
      (s.isTls13 = true → s.config.hasCert .sm2Enc = true → b = a) := by
  rw [Bool.eq_iff_iff, dualEnc_eq_true_iff, dualEnc_eq_true_iff, hserver]
  cases a <;> cases b <;> simp

theorem dualOffer_eq_true_iff : dualOffer a s = true ↔
    a = true ∧ ∃ version, s.maxVersion = .ok version ∧ 0x0304 ≤ version := by
  unfold dualOffer
  split
  · next version hversion => simp [hversion]
  · next hversion => simp [hversion]

theorem dualOffer_congr_iff : dualOffer a s = dualOffer b s ↔
    ((∃ version, s.maxVersion = .ok version ∧ 0x0304 ≤ version) → b = a) := by
  rw [Bool.eq_iff_iff, dualOffer_eq_true_iff, dualOffer_eq_true_iff]
  cases a <;> cases b <;> simp

theorem serverGoverned_iff (hserver : s.server = true) :
    ServerGoverned env s request post ee ↔ ServerSteady env s request post ee := by
  have hacts : serverActs s request = true ↔ request.isSome = true ∧ s.gmCipher = true ∧
      s.config.ctxEnableGmTls13DualCert = true ∧ s.config.hasBoth = true := dualServe_eq_true_iff
  have hechoes : serverEchoes s request ee = true ↔ request.isSome = true ∧ s.gmCipher = true ∧
      ee.ctxEnableGmTls13DualCert = true ∧ ee.hasBoth = true := dualServe_eq_true_iff
  have hserver' : (s.reconfigure post).server = true := hserver
  constructor
  · intro h
    constructor
    · exact dualServe_congr_iff.mp h.act
    · rintro hhit htls (henc | ⟨lu, hlu, hmatch⟩)
      · exact (dualEnc_congr_iff hserver').mp (h.enc hhit) htls henc
      · exact (dualSign_congr_iff hserver').mp (h.sign hhit lu hlu) htls hmatch
    · exact dualServe_congr_iff.mp h.echo
    · intro hrequest hcipher
      have heq := Bool.eq_iff_iff.mp h.act_echo
      rw [hacts, hechoes] at heq
      refine ⟨by simpa [hrequest, hcipher] using heq, fun hctx hboth => ?_⟩
      obtain ⟨hhit, henc, -⟩ := h.act_select (hacts.mpr ⟨hrequest, hcipher, hctx, hboth⟩)
      obtain ⟨htls, -, hpost, hcert⟩ := dualEnc_eq_true_iff.mp henc
      exact ⟨hhit, htls, hpost, hcert⟩
  · intro h
    constructor
    · exact dualServe_congr_iff.mpr h.hello
    · exact fun hhit lu hlu => (dualSign_congr_iff hserver').mpr
        fun htls hmatch => h.select hhit htls (.inr ⟨lu, hlu, hmatch⟩)
    · exact fun hhit => (dualEnc_congr_iff hserver').mpr
        fun htls henc => h.select hhit htls (.inl henc)
    · exact dualServe_congr_iff.mpr h.answer
    · rw [Bool.eq_iff_iff, hacts, hechoes]
      exact and_congr_right fun hrequest => and_congr_right fun hcipher =>
        (h.lasting hrequest hcipher).1
    · intro hact
      obtain ⟨hrequest, hcipher, hctx, hboth⟩ := hacts.mp hact
      obtain ⟨hhit, htls, hpost, hcert⟩ := (h.lasting hrequest hcipher).2 hctx hboth
      exact ⟨hhit, dualEnc_eq_true_iff.mpr ⟨htls, hserver', hpost, hcert⟩,
        fun lu _ hmatch => dualSign_eq_true_iff.mpr ⟨htls, hserver', hpost, hmatch⟩⟩

theorem clientGoverned_iff : ClientGoverned s post echo ↔ ClientSteady s post echo := by
  have hacts : clientActs s echo = true ↔ echo.isSome = true ∧
      s.config.ctxEnableGmTls13DualCert = true ∧
      ∃ version, s.maxVersion = .ok version ∧ 0x0304 ≤ version := by
    rw [clientActs, Bool.and_eq_true, clientOffers, dualOffer_eq_true_iff]
  constructor
  · rintro ⟨hoffer, hact, -⟩
    exact ⟨dualOffer_congr_iff.mp hoffer,
      fun hversion hctx hecho => hact (hacts.mpr ⟨hecho, hctx, hversion⟩)⟩
  · rintro ⟨hhello, hanswer⟩
    refine ⟨dualOffer_congr_iff.mpr hhello, fun hact => ?_, fun hact => ?_⟩
    · obtain ⟨hecho, hctx, hversion⟩ := hacts.mp hact
      exact hanswer hversion hctx hecho
    · exact (Bool.and_eq_true_iff.mp hact).2

end

/-- **The switch that governs**: on a server and on a client, the decisions follow
the switch of the connection and agree exactly if the two switches are the same
wherever one of them matters and nothing changes in between. -/
theorem dual_switch_governs_iff
    (request echo : Option Bytes) (post ee : DualConfig X509 Pkey) :
    (s.server = true → (∀ done t, (dualServerFlight env request post ee).run s = .ok done t →
        done = serverEchoes s request ee ∧ t.dualCert = serverActs s request ∧
        (s.hit = false →
          t.gmEncCert = (if dualEnc post.ctxEnableGmTls13DualCert (s.reconfigure post) then
            some .sm2Enc else none) ∧
          ∃ lu ∈ s.sharedSigalgs, t.cert = some
            (if dualSign post.ctxEnableGmTls13DualCert (s.reconfigure post) env lu then .sm2Sign
              else lu.sigIdx))) ∧
      (ServerGoverned env s request post ee ↔ ServerSteady env s request post ee)) ∧
    (s.extSent = false → s.dualCert = false →
      (∀ done t, (dualClientFlight post echo).run s = .ok done t →
        done = clientOffers s ∧ t.dualCert = clientActs s echo) ∧
      (ClientGoverned s post echo ↔ ClientSteady s post echo)) :=
  ⟨fun hserver => ⟨fun _ _ h => dualServerFlight_ok hserver h, serverGoverned_iff hserver⟩,
    fun hsent hdual => ⟨fun _ _ h => dualClientFlight_ok hsent hdual h, clientGoverned_iff⟩⟩

/-! ## two switches -/

/-- Keys are known by their type, and every certificate is usable. -/
def SigalgEnv.plain : SigalgEnv Bytes (String × Bytes) where
  lookupMd _ := true
  checkCertUsable _ _ := true
  ecCurve _ := none
  pssKeySize _ _ := true
  isSm2 k := k.1 == "SM2"
  isMldsa k := k.1 == "ML-DSA"

/-- Three SM2 certificates, and the two switches. -/
def plainDualConfig (own ctx : Bool) : DualConfig Bytes (String × Bytes) where
  enableGmTls13DualCert := own
  ctxEnableGmTls13DualCert := ctx
  pkeys
    | .sm2 => ⟨some [1], some ("SM2", [1])⟩
    | .sm2Sign => ⟨some [2], some ("SM2", [2])⟩
    | .sm2Enc => ⟨some [3], some ("SM2", [3])⟩
    | _ => {}

/-- The client's sm2sig_sm3 and the suite TLS_SM4_GCM_SM3. -/
def dualServer (own ctx : Bool) : DualConn Bytes (String × Bytes) where
  server := true
  config := plainDualConfig own ctx
  newCipher := some 0x030000C6
  sharedSigalgs := [⟨.sm2sigSm3, .other 1143, .sm2, .sm2, none⟩]

def dualClient (own ctx : Bool) : DualConn Bytes (String × Bytes) where
  server := false
  config := plainDualConfig own ctx

theorem dual_switch_governs_plain :
    ServerGoverned .plain (dualServer true true) (some []) (plainDualConfig true true)
        (plainDualConfig true true) ∧
      ClientGoverned (dualClient true true) (plainDualConfig true true) (some []) := by
  constructor
  · refine (((dual_switch_governs_iff .plain (dualServer true true) (some []) none
      (plainDualConfig true true) (plainDualConfig true true)).1 rfl).2).mpr ?_
    exact ⟨fun _ _ _ => rfl, fun _ _ _ => rfl, fun _ _ _ => rfl,
      fun _ _ => ⟨Iff.rfl, fun _ _ => ⟨rfl, rfl, rfl, rfl⟩⟩⟩
  · refine (((dual_switch_governs_iff .plain (dualClient true true) none (some [])
      (plainDualConfig true true) (plainDualConfig true true)).2 rfl rfl).2).mpr ?_
    exact ⟨fun _ => rfl, fun _ _ _ => rfl⟩

/-- A server that the connection's switch tells to use the mode does not echo the
extension, does not act on it and has no encryption certificate; one that it tells
not to does all of that.  The client offers the extension against its switch, and
the other way round. -/
theorem ctx_switch_governs : (∃ t, (dualServerFlight .plain (some []) (plainDualConfig true false)
        (plainDualConfig true false)).run (dualServer true false) = .ok false t ∧
      t.dualCert = false ∧ t.gmEncCert = none ∧ t.cert = some .sm2) ∧
    ¬ ServerGoverned .plain (dualServer true false) (some []) (plainDualConfig true false)
      (plainDualConfig true false) ∧
    (∃ t, (dualServerFlight .plain (some []) (plainDualConfig false true)
        (plainDualConfig false true)).run (dualServer false true) = .ok true t ∧
      t.dualCert = true ∧ t.gmEncCert = some .sm2Enc ∧ t.cert = some .sm2Sign) ∧
    ¬ ServerGoverned .plain (dualServer false true) (some []) (plainDualConfig false true)
      (plainDualConfig false true) ∧
    clientOffers (dualClient true false) = false ∧ clientOffers (dualClient false true) = true ∧
    ¬ ClientGoverned (dualClient true false) (plainDualConfig true false) none ∧
    ¬ ClientGoverned (dualClient false true) (plainDualConfig false true) none := by
  refine ⟨⟨_, rfl, rfl, rfl, rfl⟩, fun h => ?_, ⟨_, rfl, rfl, rfl, rfl⟩, fun h => ?_, rfl, rfl,
    fun h => ?_, fun h => ?_⟩
  · exact absurd h.act (by decide)
  · exact absurd h.act (by decide)
  · exact absurd h.offer (by decide)
  · exact absurd h.offer (by decide)

end Tlcp.Tls13
