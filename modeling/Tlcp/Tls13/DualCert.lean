import Tlcp.Ntls.Common
import Tlcp.Tls13.KeySchedule

/-!
# Tlcp.Tls13.DualCert

The Certificate message of a TLS 1.3 server, in and outside the GM
dual-certificate mode, and what the client makes of it.

```text
   context (empty) | u24 list:
       signing certificate | its chain ... | encryption certificate
   one entry:
       u24 certificate | u16 extensions
```

The server writes the encryption certificate behind the whole chain of the
signing certificate.  The client takes the second certificate for it, and
verifies the list once, with its first certificate as the leaf.  So

* the client has the key of the encryption certificate exactly if no other key
  is second in the signing chain (`enc_key_taken_iff`);
* the certificate that it takes was verified as a leaf exactly if it is the
  signing certificate once more (`enc_cert_verified_iff`).
-/

namespace Tlcp.Tls13

open Octets Fallible

variable {X509 Pkey : Type} {lib : Libcrypto X509 Pkey}

/-! ## the server -/

/-- Where the chain of a certificate comes from.  A store is what
`X509_verify_cert` finds above a certificate in it. -/
structure ChainConfig (X509 : Type) where
  /-- `cpk->chain` -/
  chain : Option (List X509) := none
  /-- `ctx->extra_certs` -/
  extraCerts : Option (List X509) := none
  /-- `SSL_MODE_NO_AUTO_CHAIN` -/
  noAutoChain : Bool := false
  /-- `cert->chain_store` -/
  chainStore : Option (X509 → List X509) := none
  /-- `ctx->cert_store` -/
  certStore : Option (X509 → List X509) := none

/-- The certificates that are written for one of one's own. -/
def ChainConfig.certs (cfg : ChainConfig X509) (x : X509) : List X509 :=
  let extraCerts := cfg.chain <|> cfg.extraCerts
  let chainStore :=
    if cfg.noAutoChain || extraCerts.isSome then none else cfg.chainStore <|> cfg.certStore
  match chainStore with
  | some build => x :: build x
  | none => x :: extraCerts.getD []

theorem ChainConfig.certs_cons (cfg : ChainConfig X509) (x : X509) :
    ∃ more, cfg.certs x = x :: more := by
  unfold ChainConfig.certs
  dsimp only
  split
  · exact ⟨_, rfl⟩
  · exact ⟨_, rfl⟩

/-- What the server is told while it writes its certificates. -/
structure CertificateAnswers (X509 : Type) where
  /-- `ssl_security_cert_chain` -/
  securityCertChain : List X509 → Except Fatal Unit := fun _ => .ok ()
  /-- `tls_construct_extensions` for the certificate at an index -/
  constructExtensions : X509 → Nat → Except Fatal Bytes := fun _ _ => .ok []

/-- `ssl_add_cert_to_wpacket` -/
def sslAddCertToWpacket (lib : Libcrypto X509 Pkey) (ans : CertificateAnswers X509) (x : X509)
    (chain : Nat) : Except Fatal Bytes := do
  let der ← orFatal .internalError .bufLib (lib.i2dX509 x)
  let cert ← orFatal .internalError .internalError (putPrefixed 3 der)
  let exts ← ans.constructExtensions x chain
  let exts ← orFatal .internalError .internalError (putPrefixed 2 exts)
  pure (cert ++ exts)

/-- The certificates of a list, from an index on. -/
def addCerts (lib : Libcrypto X509 Pkey) (ans : CertificateAnswers X509) :
    Nat → List X509 → Except Fatal Bytes
  | _, [] => .ok []
  | i, x :: xs => do
      let first ← sslAddCertToWpacket lib ans x i
      let rest ← addCerts lib ans (i + 1) xs
      pure (first ++ rest)

variable (lib)

/-- `ssl_add_cert_chain` -/
def sslAddCertChain (ans : CertificateAnswers X509)
    (cfg : ChainConfig X509) (cpk : CertPkey X509 Pkey) : Except Fatal Bytes :=
  match cpk.x509 with
  | none => .ok []
  | some x => do
      ans.securityCertChain (cfg.certs x)
      addCerts lib ans 0 (cfg.certs x)

/-- `ssl3_output_cert_chain` -/
def ssl3OutputCertChain (ans : CertificateAnswers X509)
    (cfg : ChainConfig X509) (cpk : CertPkey X509 Pkey) : Except Fatal Bytes := do
  let certs ← sslAddCertChain lib ans cfg cpk
  orFatal .internalError .internalError (putPrefixed 3 certs)

/-- `ssl3_output_cert_chain_gm_dual` -/
def ssl3OutputCertChainGmDual (ans : CertificateAnswers X509)
    (cfg : ChainConfig X509) (cpk : CertPkey X509 Pkey) (enc : X509) : Except Fatal Bytes := do
  let certs ← sslAddCertChain lib ans cfg cpk
  let last ← sslAddCertToWpacket lib ans enc 0
  orFatal .internalError .internalError (putPrefixed 3 (certs ++ last))

/-- `tls_construct_server_certificate`, with the certificate in
`s3.tmp.cert` -/
def tlsConstructServerCertificate (ans : CertificateAnswers X509)
    (cfg : ChainConfig X509) (cpk : Option (CertPkey X509 Pkey)) (s : Conn X509 Pkey) :
    Except Fatal Bytes := do
  let cpk ← orFatal .internalError .internalError cpk
  if s.dualCert then do
    let enc ← orFatal .internalError .internalError (s.gmEncCert.bind CertPkey.x509)
    let certs ← ssl3OutputCertChainGmDual lib ans cfg cpk enc
    pure (0 :: certs)
  else do
    let certs ← ssl3OutputCertChain lib ans cfg cpk
    pure (0 :: certs)

/-! ## the client -/

/-- The client while it looks at the server's certificates. -/
structure CertConn (X509 Pkey : Type) where
  conn : Conn X509 Pkey
  verifyMode : Nat := Verify.none
  verifyResult : Int := 0
  /-- `enable_sm_tls13_strict` with one of the SM4 suites -/
  smStrict : Bool := false
  /-- `session->peer_chain` -/
  peerChain : List X509 := []
  /-- `session->verify_result` -/
  sessionVerifyResult : Int := 0
  /-- history: the lists that `ssl_verify_cert_chain` was called with since the
  Certificate message, leaf first, and its answers -/
  verifications : List (List X509 × Int) := []

/-- One entry of the list.  What the parsers of its extensions say may depend on
its place in the list, told by how much of that is left. -/
def certEntry (parseExtensions : X509 → Bytes → Nat → Except Fatal Unit)
    (buf : Bytes) : Except Fatal (X509 × Bytes) := do
  let (x, buf) ← certItem lib .badCertificate buf
  let (exts, buf) ← orFatal .decodeError .badLength (getPrefixed 2 buf)
  parseExtensions x exts buf.length
  pure (x, buf)

/-- The certificates in the body of a server's Certificate message. -/
def parseServerCertificate
    (parseExtensions : X509 → Bytes → Nat → Except Fatal Unit) (pkt : Bytes) :
    Except Fatal (List X509) := do
  let (context, pkt) ← orFatal .decodeError .lengthMismatch (getUint 1 pkt)
  require (context = 0) .decodeError .lengthMismatch
  let (certListLen, pkt) ← orFatal .decodeError .lengthMismatch (getUint 3 pkt)
  require (pkt.length = certListLen ∧ pkt ≠ []) .decodeError .lengthMismatch
  readAll (certEntry lib parseExtensions) ⟨.internalError, .internalError⟩ pkt.length pkt

/-- `tls_process_server_certificate` -/
def tlsProcessServerCertificate
    (parseExtensions : X509 → Bytes → Nat → Except Fatal Unit) (pkt : Bytes) :
    EStateM Fatal (CertConn X509 Pkey) Unit := do
  modify fun s => { s with peerChain := [], verifications := [] }
  let certs ← lift (parseServerCertificate lib parseExtensions pkt)
  modify fun s => { s with peerChain := certs }

/-- What the client is told about the certificates. -/
structure PeerAnswers (X509 : Type) where
  verify : VerifyAnswer := ⟨1, 0, false⟩
  /-- `X509_get_signature_nid` is that of SM2 or ML-DSA with SM3 -/
  signatureNid : X509 → Bool := fun _ => true
  /-- `X509_get_key_usage` has `X509v3_KU_DIGITAL_SIGNATURE` -/
  digitalSignature : X509 → Bool := fun _ => true

/-- The key of the encryption certificate, the second of the list. -/
def takeEncPkey : EStateM Fatal (CertConn X509 Pkey) Unit := do
  let s ← get
  check (2 ≤ s.peerChain.length) ⟨.badCertificate, .badData⟩
  let pkey ← orThrow ⟨.badCertificate, .wrongCertificateType⟩
    ((s.peerChain[1]?).bind lib.x509GetPubkey)
  modify fun s => { s with conn.peerGmEncPkey := some pkey }

/-- The demands of RFC 8998 on the signing certificate. -/
def checkSmStrict (ans : PeerAnswers X509) (x : X509)
    (pkey : Pkey) : EStateM Fatal (CertConn X509 Pkey) Unit := do
  check (lib.isA pkey "SM2" = true ∨ lib.typeNameHas pkey "ML-DSA" = true)
    ⟨.badCertificate, .wrongCertificateType⟩
  check (ans.signatureNid x = true) ⟨.badCertificate, .badCertificateSignatureType⟩
  check (ans.digitalSignature x = true) ⟨.badCertificate, .badCertificateUsage⟩

/-- The end of `tls_post_process_server_certificate`: the first certificate
becomes the peer. -/
def adoptPeer (ans : PeerAnswers X509) : EStateM Fatal (CertConn X509 Pkey) Unit := do
  let s ← get
  let x ← orThrow ⟨.internalError, .unableToFindPublicKeyParameters⟩ s.peerChain.head?
  let pkey ← orThrow ⟨.internalError, .unableToFindPublicKeyParameters⟩ (lib.x509GetPubkey x)
  check (lib.missingParameters pkey = false) ⟨.internalError, .unableToFindPublicKeyParameters⟩
  check ((sslCertLookupByPkey lib pkey).isSome = true) ⟨.illegalParameter, .unknownCertificateType⟩
  onlyIf (s.smStrict = true) (checkSmStrict lib ans x pkey)
  modify fun s => { s with conn.peer := some x, sessionVerifyResult := s.verifyResult }

/-- `tls_post_process_server_certificate` -/
def tlsPostProcessServerCertificate (ans : PeerAnswers X509) :
    EStateM Fatal (CertConn X509 Pkey) Work := do
  modify fun s => { s with
    verifyResult := ans.verify.verifyResult
    verifications := s.verifications ++ [(s.peerChain, ans.verify.i)] }
  let s ← get
  if 0 < ans.verify.i ∧ ans.verify.retry = true then pure .moreA
  else do
    check (s.verifyMode = Verify.none ∨ 0 < ans.verify.i)
      ⟨sslX509err2alert ans.verify.verifyResult, .certificateVerifyFailed⟩
    onlyIf (s.conn.dualCert = true) (takeEncPkey lib)
    adoptPeer lib ans
    pure .finishedContinue

variable {lib}

/-- The function is called again as long as it asks for that. -/
def postProcessServerCertificate (lib : Libcrypto X509 Pkey) :
    List (PeerAnswers X509) → EStateM Fatal (CertConn X509 Pkey) Work
  | [] => pure .moreA
  | ans :: later => do
      let work ← tlsPostProcessServerCertificate lib ans
      if work = .moreA then postProcessServerCertificate lib later else pure work

/-! ## what the client has checked -/

section client

variable {s t : CertConn X509 Pkey}

/-- The client has gone on from the certificates of `s`: it has verified the
list, leaf first, and in dual-certificate mode taken the key of the second. -/
structure Checked (lib : Libcrypto X509 Pkey) (s t : CertConn X509 Pkey) : Prop where
  only : ∀ v ∈ t.verifications, v ∈ s.verifications ∨ v.1 = s.peerChain
  passed : s.verifyMode ≠ Verify.none → ∃ v ∈ t.verifications, v.1 = s.peerChain ∧ 0 < v.2
  taken : s.conn.dualCert = true → ∃ first enc rest, s.peerChain = first :: enc :: rest ∧
    t.conn.peerGmEncPkey = lib.x509GetPubkey enc

theorem takeEncPkey_ok (h : (takeEncPkey lib).run s = .ok () t) :
    ∃ first enc rest pkey, s.peerChain = first :: enc :: rest ∧
      lib.x509GetPubkey enc = some pkey ∧ t.conn.peerGmEncPkey = some pkey ∧
      t.verifications = s.verifications := by
  rw [takeEncPkey, run_get_bind_ok, run_check_bind_ok, run_orThrow_bind_ok] at h
  obtain ⟨hlen, pkey, hpkey, h⟩ := h
  rw [run_modify_ok] at h
  subst h
  match hchain : s.peerChain with
  | [] => simp [hchain] at hlen
  | [_] => simp [hchain] at hlen
  | first :: enc :: rest =>
    simp only [hchain, List.getElem?_cons_succ, List.getElem?_cons_zero, Option.bind_some]
      at hpkey
    exact ⟨first, enc, rest, pkey, rfl, hpkey, rfl, rfl⟩

theorem adoptPeer_ok {ans : PeerAnswers X509} (h : (adoptPeer lib ans).run s = .ok () t) :
    t.verifications = s.verifications ∧ t.conn.peerGmEncPkey = s.conn.peerGmEncPkey := by
  rw [adoptPeer, run_get_bind_ok, run_orThrow_bind_ok] at h
  obtain ⟨x, _, h⟩ := h
  rw [run_orThrow_bind_ok] at h
  obtain ⟨pkey, _, h⟩ := h
  rw [run_check_bind_ok, run_check_bind_ok] at h
  obtain ⟨_, _, h⟩ := h
  obtain ⟨_, u, hstrict, hset⟩ := run_bind_ok.mp h
  have hu : u = s := by
    rcases run_onlyIf_ok.mp hstrict with ⟨_, hchecks⟩ | ⟨_, hsame⟩
    · rw [checkSmStrict, run_check_bind_ok, run_check_bind_ok, run_check_ok] at hchecks
      exact hchecks.2.2.2.symm
    · exact hsame.symm
  subst hu
  rw [run_modify_ok] at hset
  subst hset
  exact ⟨rfl, rfl⟩

/-- **One call**: the function asks to be called again, or has checked the
list. -/
theorem tlsPostProcessServerCertificate_ok {ans : PeerAnswers X509} {work : Work}
    (h : (tlsPostProcessServerCertificate lib ans).run s = .ok work t) :
    (work = .moreA ∧ t = { s with
      verifyResult := ans.verify.verifyResult
      verifications := s.verifications ++ [(s.peerChain, ans.verify.i)] }) ∨
    (work = .finishedContinue ∧ Checked lib s t) := by
  rw [tlsPostProcessServerCertificate, run_modify_bind_ok, run_get_bind_ok] at h
  split at h
  · obtain ⟨hwork, ht⟩ := run_pure_ok.mp h
    exact .inl ⟨hwork.symm, ht.symm⟩
  · rw [run_check_bind_ok] at h
    obtain ⟨hpassed, h⟩ := h
    obtain ⟨_, u, htake, h⟩ := run_bind_ok.mp h
    obtain ⟨_, v, hadopt, h⟩ := run_bind_ok.mp h
    obtain ⟨hwork, ht⟩ := run_pure_ok.mp h
    subst ht
    obtain ⟨hver, hkey⟩ := adoptPeer_ok hadopt
    have hlist : u.verifications = s.verifications ++ [(s.peerChain, ans.verify.i)] := by
      rcases run_onlyIf_ok.mp htake with ⟨_, htake⟩ | ⟨_, hsame⟩
      · obtain ⟨_, _, _, _, _, _, _, hsame⟩ := takeEncPkey_ok htake
        exact hsame
      · rw [← hsame]
    refine .inr ⟨hwork.symm, ?_, ?_, ?_⟩
    · intro w hw
      rw [hver, hlist] at hw
      rcases List.mem_append.mp hw with hold | hnew
      · exact .inl hold
      · rw [List.mem_singleton.mp hnew]
        exact .inr rfl
    · intro hmode
      rw [hver, hlist]
      exact ⟨(s.peerChain, ans.verify.i), List.mem_append_right _ (List.mem_singleton_self _), rfl,
        hpassed.resolve_left hmode⟩
    · intro hdual
      rcases run_onlyIf_ok.mp htake with ⟨_, htake⟩ | ⟨hno, _⟩
      · obtain ⟨first, enc, rest, pkey, hchain, hpkey, hu, _⟩ := takeEncPkey_ok htake
        refine ⟨first, enc, rest, hchain, ?_⟩
        rw [hkey, hu, hpkey]
      · exact absurd hdual hno

/-- **All calls**, until the client goes on. -/
theorem postProcessServerCertificate_ok {answers : List (PeerAnswers X509)}
    (h : (postProcessServerCertificate lib answers).run s = .ok .finishedContinue t) :
    Checked lib s t := by
  induction answers generalizing s with
  | nil =>
    obtain ⟨hwork, _⟩ := run_pure_ok.mp h
    contradiction
  | cons ans later ih =>
    rw [postProcessServerCertificate] at h
    obtain ⟨work, u, hcall, h⟩ := run_bind_ok.mp h
    rcases tlsPostProcessServerCertificate_ok hcall with ⟨hwork, hu⟩ | ⟨hwork, hchecked⟩
    · rw [if_pos hwork] at h
      have hrest := ih h
      subst hu
      refine ⟨?_, hrest.passed, hrest.taken⟩
      intro v hv
      rcases hrest.only v hv with hold | hnew
      · rcases List.mem_append.mp hold with hs | hcall
        · exact .inl hs
        · rw [List.mem_singleton.mp hcall]
          exact .inr rfl
      · exact .inr hnew
    · rw [hwork, if_neg (by decide)] at h
      obtain ⟨_, ht⟩ := run_pure_ok.mp h
      subst ht
      exact hchecked

theorem tlsProcessServerCertificate_ok
    {parseExtensions : X509 → Bytes → Nat → Except Fatal Unit} {pkt : Bytes}
    (h : (tlsProcessServerCertificate lib parseExtensions pkt).run s = .ok () t) :
    ∃ certs, parseServerCertificate lib parseExtensions pkt = .ok certs ∧
      t = { s with peerChain := certs, verifications := [] } := by
  rw [tlsProcessServerCertificate, run_modify_bind_ok, run_lift_bind_ok] at h
  obtain ⟨certs, hparse, h⟩ := h
  rw [run_modify_ok] at h
  exact ⟨certs, hparse, h.symm⟩

/-- **Which certificate was verified**: the one that a verifying client in
dual-certificate mode takes the encryption key from was the leaf of a
verification that succeeded exactly if it is the first certificate of the
message, too. -/
theorem enc_cert_verified_iff {parseExtensions : X509 → Bytes → Nat → Except Fatal Unit}
    {pkt : Bytes} {answers : List (PeerAnswers X509)} {u : CertConn X509 Pkey}
    (hmode : s.verifyMode ≠ Verify.none) (hdual : s.conn.dualCert = true)
    (hprocess : (tlsProcessServerCertificate lib parseExtensions pkt).run s = .ok () u)
    (hpost : (postProcessServerCertificate lib answers).run u = .ok .finishedContinue t) :
    ∃ first enc rest, parseServerCertificate lib parseExtensions pkt = .ok (first :: enc :: rest) ∧
      t.conn.peerGmEncPkey = lib.x509GetPubkey enc ∧
      ((∃ v ∈ t.verifications, v.1.head? = some enc ∧ 0 < v.2) ↔ enc = first) := by
  obtain ⟨certs, hparse, hu⟩ := tlsProcessServerCertificate_ok hprocess
  have hchecked := postProcessServerCertificate_ok hpost
  subst hu
  obtain ⟨first, enc, rest, hchain, hkey⟩ := hchecked.taken hdual
  dsimp only at hchain
  subst hchain
  refine ⟨first, enc, rest, hparse, hkey, ?_⟩
  constructor
  · intro ⟨v, hv, hleaf, _⟩
    rcases hchecked.only v hv with hold | hlist
    · contradiction
    · rw [hlist] at hleaf
      injection hleaf with hleaf
      exact hleaf.symm
  · intro hsame
    obtain ⟨v, hv, hlist, hpassed⟩ := hchecked.passed hmode
    refine ⟨v, hv, ?_, hpassed⟩
    rw [hlist, hsame]
    rfl

/-- A client that verifies. -/
def plainVerifier : CertConn Bytes (String × Bytes) where
  conn := { server := false, handState := .crFinished, dualCert := true }
  verifyMode := Verify.peer

/-- A message with one certificate twice. -/
theorem enc_cert_verified_plain :
    ∃ u t, (tlsProcessServerCertificate Libcrypto.plain (fun _ _ _ => .ok ())
        [0, 0, 0, 14, 0, 0, 2, 0, 1, 0, 0, 0, 0, 2, 0, 1, 0, 0]).run plainVerifier = .ok () u ∧
      (postProcessServerCertificate Libcrypto.plain [{}]).run u = .ok .finishedContinue t ∧
      ∃ v ∈ t.verifications, v.1.head? = some [0, 1] ∧ 0 < v.2 := by
  obtain ⟨u, t, hprocess, hpost⟩ : ∃ u t,
      (tlsProcessServerCertificate Libcrypto.plain (fun _ _ _ => .ok ())
        [0, 0, 0, 14, 0, 0, 2, 0, 1, 0, 0, 0, 0, 2, 0, 1, 0, 0]).run plainVerifier = .ok () u ∧
      (postProcessServerCertificate Libcrypto.plain [{}]).run u = .ok .finishedContinue t :=
    ⟨_, _, rfl, rfl⟩
  obtain ⟨first, enc, rest, hparse, _, hiff⟩ := enc_cert_verified_iff (by decide) rfl hprocess hpost
  have hlist : first = [0, 1] ∧ enc = [0, 1] := by
    injection hparse with hparse
    injection hparse with hfirst hparse
    injection hparse with henc _
    exact ⟨hfirst.symm, henc.symm⟩
  obtain ⟨hfirst, henc⟩ := hlist
  subst hfirst henc
  exact ⟨u, t, hprocess, hpost, hiff.mpr rfl⟩

/-- A message with two certificates: the second is never a leaf. -/
theorem enc_cert_unverified :
    ∃ u t, (tlsProcessServerCertificate Libcrypto.plain (fun _ _ _ => .ok ())
        [0, 0, 0, 14, 0, 0, 2, 0, 1, 0, 0, 0, 0, 2, 0, 9, 0, 0]).run plainVerifier = .ok () u ∧
      (postProcessServerCertificate Libcrypto.plain [{}]).run u = .ok .finishedContinue t ∧
      t.conn.peerGmEncPkey = Libcrypto.plain.x509GetPubkey [0, 9] ∧
      ¬ ∃ v ∈ t.verifications, v.1.head? = some [0, 9] := by
  obtain ⟨u, t, hprocess, hpost, hkey, hlist⟩ : ∃ u t,
      (tlsProcessServerCertificate Libcrypto.plain (fun _ _ _ => .ok ())
        [0, 0, 0, 14, 0, 0, 2, 0, 1, 0, 0, 0, 0, 2, 0, 9, 0, 0]).run plainVerifier = .ok () u ∧
      (postProcessServerCertificate Libcrypto.plain [{}]).run u = .ok .finishedContinue t ∧
      t.conn.peerGmEncPkey = Libcrypto.plain.x509GetPubkey [0, 9] ∧
      t.verifications = [([[0, 1], [0, 9]], 1)] :=
    ⟨_, _, rfl, rfl, rfl, rfl⟩
  refine ⟨u, t, hprocess, hpost, hkey, ?_⟩
  rw [hlist]
  decide

end client

/-! ## from the server to the client -/

/-- A certificate is parsed back from its encoding. -/
def Reencodes (lib : Libcrypto X509 Pkey) : Prop :=
  ∀ x der, lib.i2dX509 x = some der → lib.d2iX509 der = some (x, [])

variable {ans : CertificateAnswers X509}
  {parseExtensions : X509 → Bytes → Nat → Except Fatal Unit}

theorem sslAddCertToWpacket_ne_nil {x : X509} {i : Nat} {out : Bytes}
    (h : sslAddCertToWpacket lib ans x i = .ok out) : out ≠ [] := by
  simp only [sslAddCertToWpacket, except_bind_ok, orFatal_eq_ok] at h
  obtain ⟨der, _, cert, hcert, exts, _, block, _, hout⟩ := h
  injection hout with hout
  obtain ⟨_, hcert⟩ := putPrefixed_eq_some_iff.mp hcert
  intro hnil
  have hlen : cert.length = 3 + der.length := by
    rw [hcert]
    simp
  rw [hnil] at hout
  simp [List.append_eq_nil_iff.mp hout] at hlen
  omega

/-- The client reads the certificate that the server wrote. -/
theorem certEntry_sslAddCertToWpacket (hlib : Reencodes lib) {x y : X509} {i : Nat}
    {out rest rest' : Bytes} (hadd : sslAddCertToWpacket lib ans x i = .ok out)
    (hread : certEntry lib parseExtensions (out ++ rest) = .ok (y, rest')) :
    y = x ∧ rest' = rest := by
  simp only [sslAddCertToWpacket, except_bind_ok, orFatal_eq_ok] at hadd
  obtain ⟨der, hder, cert, hcert, exts, _, block, hblock, hout⟩ := hadd
  injection hout with hout
  subst hout
  have hitem : certItem lib .badCertificate (cert ++ (block ++ rest)) = .ok (x, block ++ rest) := by
    simp [certItem, getPrefixed_append _ hcert, hlib x der hder]
  rw [List.append_assoc] at hread
  simp only [certEntry, hitem, except_bind_ok, orFatal_eq_ok] at hread
  obtain ⟨_, hx, _, hexts, _, _, hpair⟩ := hread
  injection hx with hx
  subst hx
  rw [getPrefixed_append _ hblock] at hexts
  injection hexts with hexts
  subst hexts
  injection hpair with hpair
  injection hpair with hy hrest
  exact ⟨hy.symm, hrest.symm⟩

/-- A list of entries starts with the certificates that the server wrote
first. -/
theorem reads_addCerts (hlib : Reencodes lib) {xs ys : List X509} {i : Nat} {out rest : Bytes}
    (hadd : addCerts lib ans i xs = .ok out)
    (hread : Reads (certEntry lib parseExtensions) (out ++ rest) ys) :
    ∃ zs, ys = xs ++ zs ∧ Reads (certEntry lib parseExtensions) rest zs := by
  induction xs generalizing ys i out with
  | nil =>
    injection hadd with hout
    subst hout
    exact ⟨ys, rfl, hread⟩
  | cons x xs ih =>
    simp only [addCerts, except_bind_ok] at hadd
    obtain ⟨first, hfirst, later, hlater, hout⟩ := hadd
    injection hout with hout
    subst hout
    rw [List.append_assoc] at hread
    have hne : first ++ (later ++ rest) ≠ [] := by
      have hpos := sslAddCertToWpacket_ne_nil hfirst
      simp [hpos]
    generalize hbuf : first ++ (later ++ rest) = buf at hread
    cases hread with
    | nil => exact absurd hbuf hne
    | @cons _ rest' y ys _ hitem hreads =>
      rw [← hbuf] at hitem
      obtain ⟨hy, hrest⟩ := certEntry_sslAddCertToWpacket hlib hfirst hitem
      subst hy hrest
      obtain ⟨zs, hys, hzs⟩ := ih hlater hreads
      exact ⟨zs, by rw [hys]; rfl, hzs⟩

theorem sslAddCertChain_ok {cfg : ChainConfig X509} {cpk : CertPkey X509 Pkey} {out : Bytes}
    (h : sslAddCertChain lib ans cfg cpk = .ok out) :
    addCerts lib ans 0 ((cpk.x509.map cfg.certs).getD []) = .ok out := by
  unfold sslAddCertChain at h
  split at h
  · next hx =>
    rw [hx]
    exact h
  · next x hx =>
    obtain ⟨_, _, hadd⟩ := except_bind_ok.mp h
    rw [hx]
    exact hadd

/-- What a dual-certificate server writes, the client reads: the chain of the
signing certificate and the encryption certificate behind it. -/
theorem parse_tlsConstructServerCertificate (hlib : Reencodes lib) {cfg : ChainConfig X509}
    {cpk : Option (CertPkey X509 Pkey)} {s : Conn X509 Pkey} {body : Bytes}
    {certs : List X509} (hdual : s.dualCert = true)
    (hconstruct : tlsConstructServerCertificate lib ans cfg cpk s = .ok body)
    (hparse : parseServerCertificate lib parseExtensions body = .ok certs) :
    ∃ enc, s.gmEncCert.bind CertPkey.x509 = some enc ∧
      certs = ((cpk.bind CertPkey.x509).map cfg.certs).getD [] ++ [enc] := by
  simp only [tlsConstructServerCertificate, if_pos hdual, ssl3OutputCertChainGmDual,
    except_bind_ok, orFatal_eq_ok] at hconstruct
  obtain ⟨cpk', hcpk, enc, henc, list, ⟨chain, hchain, last, hlast, hlist⟩, hbody⟩ := hconstruct
  injection hbody with hbody
  subst hcpk hbody
  obtain ⟨hsmall, hlist⟩ := putPrefixed_eq_some_iff.mp hlist
  subst hlist
  simp only [parseServerCertificate, except_bind_ok, orFatal_eq_ok, require_eq_ok] at hparse
  obtain ⟨⟨context, pkt⟩, hcontext, _, _, ⟨len, items⟩, hlen, _, _, hread⟩ := hparse
  have hpkt : pkt = putUint 3 (chain ++ last).length ++ (chain ++ last) := by
    have hfirst := getUint_append (w := 1) (n := 0)
      (putUint 3 (chain ++ last).length ++ (chain ++ last)) (by decide)
    have hsame := hcontext.symm.trans hfirst
    injection hsame with hsame
    injection hsame
  have hitems : items = chain ++ last := by
    rw [hpkt, getUint_append _ hsmall] at hlen
    injection hlen with hlen
    injection hlen with _ hitems
    exact hitems.symm
  have hreads := reads_of_readAll hread
  dsimp only at hreads
  rw [hitems] at hreads
  have hone : addCerts lib ans 0 [enc] = .ok last := by
    simp [addCerts, hlast, bind, Except.bind, pure, Except.pure]
  obtain ⟨zs, hcerts, hzs⟩ := reads_addCerts hlib (sslAddCertChain_ok hchain) hreads
  rw [← List.append_nil last] at hzs
  obtain ⟨ws, hlast, hws⟩ := reads_addCerts hlib hone hzs
  cases hws with
  | nil =>
    refine ⟨enc, henc, ?_⟩
    rw [hcerts, hlast]
    rfl
  | cons hne => exact absurd rfl hne

/-- **Which key the client takes**: the key under which a client in
dual-certificate mode protects the master-secret input is that of the server's
encryption certificate exactly if the server's signing chain has no second
certificate with another key. -/
theorem enc_key_taken_iff (hlib : Reencodes lib) {cfg : ChainConfig X509}
    {cpk : Option (CertPkey X509 Pkey)} {s : Conn X509 Pkey} {body : Bytes}
    {c u t : CertConn X509 Pkey} {answers : List (PeerAnswers X509)}
    (hserver : s.dualCert = true) (hclient : c.conn.dualCert = true)
    (hconstruct : tlsConstructServerCertificate lib ans cfg cpk s = .ok body)
    (hprocess : (tlsProcessServerCertificate lib parseExtensions body).run c = .ok () u)
    (hpost : (postProcessServerCertificate lib answers).run u = .ok .finishedContinue t) :
    ∃ sign enc, cpk.bind CertPkey.x509 = some sign ∧ s.gmEncCert.bind CertPkey.x509 = some enc ∧
      (t.conn.peerGmEncPkey = lib.x509GetPubkey enc ↔
        ∀ y, (cfg.certs sign)[1]? = some y → lib.x509GetPubkey y = lib.x509GetPubkey enc) := by
  obtain ⟨certs, hparse, hu⟩ := tlsProcessServerCertificate_ok hprocess
  obtain ⟨enc, henc, hcerts⟩ := parse_tlsConstructServerCertificate hlib hserver hconstruct hparse
  have hchecked := postProcessServerCertificate_ok hpost
  subst hu
  obtain ⟨first, second, rest, hchain, hkey⟩ := hchecked.taken hclient
  dsimp only at hchain
  rw [hchain] at hcerts
  cases hsign : cpk.bind CertPkey.x509 with
  | none =>
    -- the encryption certificate alone is not enough for the client
    rw [hsign] at hcerts
    injection hcerts with _ hrest
    contradiction
  | some sign =>
    rw [hsign, Option.map_some, Option.getD_some] at hcerts
    obtain ⟨more, hmore⟩ := cfg.certs_cons sign
    refine ⟨sign, enc, rfl, henc, ?_⟩
    rw [hmore] at hcerts ⊢
    injection hcerts with _ hrest
    rw [hkey]
    cases more with
    | nil =>
      injection hrest with hsecond
      simp [hsecond]
    | cons y ys =>
      injection hrest with hsecond
      simp [hsecond]

/-! ## two servers -/

/-- A server with the signing certificate `[0, 1]` and the encryption
certificate `[0, 2]`. -/
def plainCerts : Conn Bytes (String × Bytes) where
  server := true
  handState := .swFinished
  dualCert := true
  gmEncCert := some ⟨some [0, 2], some ("SM2", [2])⟩

theorem plain_reencodes : Reencodes Libcrypto.plain := by
  intro x der h
  injection h with h
  rw [h]
  rfl

/-- The server's certificates, with one above the signing certificate or none,
as the client takes them. -/
theorem plain_certificates (more : List Bytes) (hmore : more = [] ∨ more = [[0, 3]]) :
    ∃ body u t, tlsConstructServerCertificate Libcrypto.plain {} { chain := some more }
        (some ⟨some [0, 1], some ("SM2", [1])⟩) plainCerts = .ok body ∧
      (tlsProcessServerCertificate Libcrypto.plain (fun _ _ _ => .ok ()) body).run plainVerifier =
        .ok () u ∧
      (postProcessServerCertificate Libcrypto.plain [{}]).run u = .ok .finishedContinue t ∧
      t.conn.peerGmEncPkey = Libcrypto.plain.x509GetPubkey (more.headD [0, 2]) := by
  rcases hmore with hmore | hmore
  · subst hmore
    exact ⟨_, _, _, rfl, rfl, rfl, rfl⟩
  · subst hmore
    exact ⟨_, _, _, rfl, rfl, rfl, rfl⟩

theorem enc_key_taken_plain :
    ∃ body u t, tlsConstructServerCertificate Libcrypto.plain {} { chain := some [] }
        (some ⟨some [0, 1], some ("SM2", [1])⟩) plainCerts = .ok body ∧
      (tlsProcessServerCertificate Libcrypto.plain (fun _ _ _ => .ok ()) body).run plainVerifier =
        .ok () u ∧
      (postProcessServerCertificate Libcrypto.plain [{}]).run u = .ok .finishedContinue t ∧
      t.conn.peerGmEncPkey = Libcrypto.plain.x509GetPubkey [0, 2] := by
  obtain ⟨body, u, t, hconstruct, hprocess, hpost, _⟩ := plain_certificates [] (.inl rfl)
  obtain ⟨sign, enc, hsign, henc, hiff⟩ :=
    enc_key_taken_iff plain_reencodes rfl rfl hconstruct hprocess hpost
  injection hsign with hsign
  injection henc with henc
  subst hsign henc
  exact ⟨body, u, t, hconstruct, hprocess, hpost, hiff.mpr (by simp [ChainConfig.certs])⟩

/-- With an intermediate certificate the client takes the key of that. -/
theorem enc_key_of_intermediate :
    ∃ body u t, tlsConstructServerCertificate Libcrypto.plain {} { chain := some [[0, 3]] }
        (some ⟨some [0, 1], some ("SM2", [1])⟩) plainCerts = .ok body ∧
      (tlsProcessServerCertificate Libcrypto.plain (fun _ _ _ => .ok ()) body).run plainVerifier =
        .ok () u ∧
      (postProcessServerCertificate Libcrypto.plain [{}]).run u = .ok .finishedContinue t ∧
      t.conn.peerGmEncPkey = Libcrypto.plain.x509GetPubkey [0, 3] ∧
      t.conn.peerGmEncPkey ≠ Libcrypto.plain.x509GetPubkey [0, 2] := by
  obtain ⟨body, u, t, hconstruct, hprocess, hpost, hkey⟩ := plain_certificates [[0, 3]] (.inr rfl)
  refine ⟨body, u, t, hconstruct, hprocess, hpost, hkey, ?_⟩
  rw [hkey]
  decide

end Tlcp.Tls13
