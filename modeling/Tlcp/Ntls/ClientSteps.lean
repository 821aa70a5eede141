import Tlcp.Ntls.Client

/-!
# Tlcp.Ntls.ClientSteps

What each part of the NTLS client did when it went through, as
`Tlcp.Ntls.ServerSteps` has it for the server: one lemma per transition
function, processor and constructor, and the three inversions `ClientRead`,
`ClientPosted` and `ClientWrote` of the rounds of the driver.

Proofs about the client use these lemmas and never unfold the programs.
-/

namespace Tlcp

open Octets Fallible

variable {X509 Pkey : Type} {lib : Libcrypto X509 Pkey} {s t : SSL X509 Pkey}
  {ans : ClientAnswers X509 Pkey} {pkt : Bytes} {u : Unit}
variable {r : MsgProcess} {body : Bytes} {mt : MsgType} {h : HandState} {c : SslCipher} {wst : Work}

/-! ## setting up -/

/-- What `tls_setup_handshake` makes of a client. -/
@[simp] abbrev SSL.clientSetUp (s : SSL X509 Pkey) : SSL X509 Pkey := { s with
  s3.handshakeBuffer := some [], s3.handshakeDgst := none, s3.clientRandom := List.replicate 32 0
  s3.tmp.certReq := 0, hit := false, trace := [] }

theorem tlsSetupHandshake_client (hserver : s.server = false)
    (h : tlsSetupHandshake.run s = .ok u t) :
    t = s.clientSetUp := by
  rw [tlsSetupHandshake, ssl3InitFinishedMac, run_modify_bind_ok, run_get_bind_ok,
    if_neg (by simp [hserver]), run_modify_ok] at h
  exact h.symm

/-- What decides which messages the client sends, once the hellos are done. -/
def SSL.clientSteers (s : SSL X509 Pkey) : Ext × Bool × Nat × Bool × Bool :=
  (s.ext, s.s3.npnSeen, s.s3.tmp.certReq, s.s3.skipCertVerify, s.renegotiate)

/-- The head of the machine, from a fresh client object. -/
theorem enterFresh_client (h : (enterFresh false).run s = .ok u t) :
    t.server = false ∧ t.verifyMode = s.verifyMode ∧ t.trace = [] ∧
      t.statem.handState = .before ∧ t.statem.state = .writing ∧
      t.statem.writeState = .transition ∧ t.hit = false ∧
      t.s3.handshakeDgst = none ∧ t.s3.handshakeBuffer = some [] ∧
      t.clientSteers = (s.ext, false, 0, false, s.renegotiate) := by
  rw [enterFresh, run_modify_bind_ok, run_modify_bind_ok] at h
  obtain ⟨_, s₁, hsetup, h⟩ := run_bind_ok.mp h
  rw [run_modify_ok] at h
  have hs₁ := tlsSetupHandshake_client rfl hsetup
  subst h hs₁
  exact ⟨rfl, rfl, rfl, rfl, rfl, rfl, rfl, rfl, rfl, rfl⟩

/-- The head of the machine, from a client object that finished a handshake. -/
theorem enterAgain_client (h : (enterAgain false).run s = .ok u t) : t = { s with
        server := false, s3.changeCipherSpec := false, statem.state := .writing,
        statem.writeState := .transition } ∨
      t = { s.clientSetUp with
        server := false, s3.changeCipherSpec := false, statem.state := .writing,
        statem.writeState := .transition } ∧ s.renegotiate = true := by
  rw [enterAgain, run_modify_bind_ok, run_get_bind_ok] at h
  obtain ⟨_, s₁, hsetup, h⟩ := run_bind_ok.mp h
  rw [run_modify_ok] at h
  subst h
  cases run_onlyIf_ok.mp hsetup with
  | inl hren => exact .inr ⟨by rw [tlsSetupHandshake_client rfl hren.2], hren.1⟩
  | inr hnone => exact .inl (by rw [← hnone.2])

/-! ## transitions -/

/-- A session secret resumes only in front of a ChangeCipherSpec. -/
theorem secretResumption_change (h : secretResumption s mt) : mt = .changeCipherSpec := h.2.2.2.2.2

/-- The read transitions, by the state they lead to. -/
theorem clientReadNext_some (ht : clientReadNext s mt = some h) :
    (mt = .serverHello ∧ h = .crSrvrHello ∧ s.statem.handState = .cwClntHello) ∨
      (mt = .certificate ∧ h = .crCert ∧ s.statem.handState = .crSrvrHello ∧ s.hit = false ∧
        ¬ hasBit s.auth (Auth.aNULL ||| Auth.aSRP ||| Auth.aPSK)) ∨
      (mt = .certificateStatus ∧ h = .crCertStatus ∧ s.statem.handState = .crCert) ∨
      (mt = .serverKeyExchange ∧ h = .crKeyExch ∧
        ((s.statem.handState = .crSrvrHello ∧ s.hit = false ∧
            hasBit s.auth (Auth.aNULL ||| Auth.aSRP ||| Auth.aPSK)) ∨
          s.statem.handState = .crCert ∨ s.statem.handState = .crCertStatus)) ∨
      (mt = .certificateRequest ∧ h = .crCertReq ∧ s.statem.handState = .crKeyExch) ∨
      (mt = .serverDone ∧ h = .crSrvrDone ∧
        (s.statem.handState = .crKeyExch ∨ s.statem.handState = .crCertReq)) ∨
      (mt = .newSessionTicket ∧ h = .crSessionTicket ∧
        ((s.statem.handState = .crSrvrHello ∧ s.hit = true) ∨ s.statem.handState = .cwFinished)) ∨
      (mt = .changeCipherSpec ∧ h = .crChange ∧
        ((s.statem.handState = .crSrvrHello ∧ (s.hit = true ∨ secretResumption s mt)) ∨
          s.statem.handState = .cwFinished ∨ s.statem.handState = .crSessionTicket)) ∨
      (mt = .finished ∧ h = .crFinished ∧ s.statem.handState = .crChange) ∨
      (mt = .helloRequest ∧ h = .crHelloReq ∧ s.statem.handState = .ok) := by
  have hsecret : secretResumption s mt → mt = .changeCipherSpec := secretResumption_change
  unfold clientReadNext readRequestOrDone readTicketOrChange at ht
  split at ht
  all_goals grind

theorem clientReadTransition_ok (h : (clientReadTransition mt).run s = .ok u t) :
    ∃ hs, clientReadNext s mt = some hs ∧ t = { s with
        hit := s.hit || decide (secretResumption s mt), statem.handState := hs } := by
  rw [clientReadTransition, run_get_bind_ok, run_orThrow_bind_ok] at h
  obtain ⟨hs, hnext, h⟩ := h
  rw [run_modify_ok] at h
  exact ⟨hs, hnext, h.symm⟩

/-- The write transitions, by the state they lead to. -/
theorem clientWriteNext_some (ht : clientWriteNext s = .ok (some h)) :
    (h = .cwClntHello ∧ (s.statem.handState = .before ∨ s.statem.handState = .ok ∨
        s.statem.handState = .crSrvrHello)) ∨
      (h = .cwCert ∧ s.statem.handState = .crSrvrDone) ∨
      (h = .cwKeyExch ∧ (s.statem.handState = .crSrvrDone ∨ s.statem.handState = .cwCert)) ∨
      (h = .cwCertVrfy ∧ s.statem.handState = .cwKeyExch) ∨
      (h = .cwChange ∧ (s.statem.handState = .cwKeyExch ∨ s.statem.handState = .cwCertVrfy ∨
        s.statem.handState = .crSrvrHello ∨ (s.statem.handState = .crFinished ∧ s.hit = true))) ∨
      (h = .cwNextProto ∧ s.statem.handState = .cwChange) ∨
      (h = .cwFinished ∧ (s.statem.handState = .cwChange ∨ s.statem.handState = .cwNextProto)) ∨
      (h = .ok ∧ ((s.statem.handState = .cwFinished ∧ s.hit = true) ∨
        (s.statem.handState = .crFinished ∧ s.hit = false))) := by
  unfold clientWriteNext at ht
  split at ht
  all_goals grind

theorem clientWriteNext_ok (ht : clientWriteNext s = .ok (some .ok)) :
    (s.statem.handState = .cwFinished ∧ s.hit = true) ∨
      (s.statem.handState = .crFinished ∧ s.hit = false) := by
  simpa using clientWriteNext_some ht

theorem clientWriteNext_none (ht : clientWriteNext s = .ok none) :
    (s.statem.handState = .ok ∧ s.renegotiate = false) ∨ s.statem.handState = .cwClntHello ∨
      (s.statem.handState = .cwFinished ∧ s.hit = false) := by
  unfold clientWriteNext at ht
  split at ht
  all_goals grind

theorem clientWriteTransition_ok {r : WriteTran} (hserver : s.server = false)
    (h : (clientWriteTransition ans).run s = .ok r t) :
    (s.statem.handState = .crHelloReq ∧ r = .cont ∧ t = { s.clientSetUp with
          statem.inInit := true, statem.requestState := .swHelloReq,
          statem.handState := .cwClntHello, s3.renegotiate := false }) ∨
      (s.statem.handState = .crHelloReq ∧ r = .cont ∧ t = { s with statem.handState := .ok }) ∨
      (r = .finished ∧ clientWriteNext s = .ok none ∧ t = s) ∨
      (r = .cont ∧
        ∃ hs, clientWriteNext s = .ok (some hs) ∧ t = { s with statem.handState := hs }) := by
  rw [clientWriteTransition, run_get_bind_ok] at h
  split at h
  · next hst =>
    split at h
    · rw [run_modify_bind_ok] at h
      obtain ⟨_, s₁, hsetup, h⟩ := run_bind_ok.mp h
      rw [run_modify_bind_ok, run_pure_ok] at h
      obtain ⟨hr, ht⟩ := h
      have hs₁ := tlsSetupHandshake_client (s := { s with
        statem.inInit := true, statem.requestState := .swHelloReq,
        s3.renegotiate := false }) hserver hsetup
      subst ht hs₁
      exact .inl ⟨hst, hr.symm, rfl⟩
    · rw [run_modify_bind_ok, run_pure_ok] at h
      exact .inr (.inl ⟨hst, h.1.symm, h.2.symm⟩)
  · rw [run_lift_bind_ok] at h
    obtain ⟨o, ho, h⟩ := h
    cases o with
    | none =>
      rw [run_pure_ok] at h
      exact .inr (.inr (.inl ⟨h.1.symm, ho, h.2.symm⟩))
    | some hs =>
      rw [run_modify_bind_ok, run_pure_ok] at h
      exact .inr (.inr (.inr ⟨h.1.symm, hs, ho, h.2.symm⟩))

/-! ## ServerHello -/

theorem setClientCiphersuite_ok {code : Nat} (h : (setClientCiphersuite ans code).run s = .ok u t) :
    ∃ c ∈ s.ciphers, c.1.id % 65536 = code ∧ t = { s with s3.tmp.newCipher := some c.1 } := by
  rw [setClientCiphersuite, run_get_bind_ok, run_check_bind_ok, run_orThrow_bind_ok] at h
  obtain ⟨_, c, hc, h⟩ := h
  rw [run_check_bind_ok, run_modify_ok] at h
  have hcode : c.1.id % 65536 = code := by simpa using List.find?_some hc
  exact ⟨c, List.mem_of_find?_eq_some hc, hcode, h.2.symm⟩

theorem useSessionSecret_ok {code : Nat} (h : (useSessionSecret ans code).run s = .ok u t) :
    ∃ mk c, t = { s with session.masterKey := mk, session.cipher := c } := by
  rw [useSessionSecret, run_get_bind_ok] at h
  cases run_onlyIf_ok.mp h with
  | inl hask =>
    obtain ⟨_, hask⟩ := hask
    rw [run_orThrow_bind_ok] at hask
    obtain ⟨⟨mk, pref⟩, _, hask⟩ := hask
    exact ⟨mk, _, (run_modify_ok.mp hask).symm⟩
  | inr hnone => exact ⟨s.session.masterKey, s.session.cipher, hnone.2.symm⟩

/-- A session that is not resumed has no peer, unless it was offered without an
id. -/
theorem adoptSession_ok {sessionId : Bytes} (h : (adoptSession sessionId).run s = .ok u t) :
    ∃ hit sess, t = { s with hit := hit, session := sess } ∧
      (hit = false → sess.peer = if s.session.sessionId = [] then s.session.peer else none) := by
  rw [adoptSession, run_modify_bind_ok, run_get_bind_ok] at h
  split at h
  · next hhit =>
    obtain ⟨_, ht⟩ := run_check_ok.mp h
    refine ⟨true, s.session, ?_, by simp⟩
    rw [← ht]
    have hhit' : decide (sessionId ≠ [] ∧ sessionId = s.session.sessionId) = true := hhit
    rw [hhit']
  · next hhit =>
    rw [run_modify_bind_ok, run_modify_ok] at h
    refine ⟨_, _, h.symm, ?_⟩
    intro _
    by_cases hid : s.session.sessionId = []
    · simp [hid]
    · simp [hid, sslNewSession]

/-- The version of a ServerHello is the one of the protocol, its cipher is one
that was offered. -/
theorem tlsProcessServerHello_ok
    (h : (tlsProcessServerHello ans pkt).run s = .ok r t) :
    ∃ hello c hit sess ext npn, r = .continueReading ∧ parseServerHello pkt = .ok hello ∧
      hello.version = ntlsVersion ∧ c ∈ s.ciphers ∧ c.1.id % 65536 = hello.cipher ∧
      (hit = false → sess.peer = if s.session.sessionId = [] then s.session.peer else none) ∧
      t = { s with
        version := hello.version, hit := hit, session := sess, ext := ext, s3.npnSeen := npn,
        s3.serverRandom := hello.random, s3.tmp.newCipher := some c.1 } := by
  rw [tlsProcessServerHello, run_lift_bind_ok] at h
  obtain ⟨hello, hparse, h⟩ := h
  rw [run_modify_bind_ok, run_lift_bind_ok] at h
  obtain ⟨_, _, h⟩ := h
  rw [run_check_bind_ok, run_modify_bind_ok] at h
  obtain ⟨hversion, h⟩ := h
  obtain ⟨_, s₁, hsecret, h⟩ := run_bind_ok.mp h
  obtain ⟨mk, sc, hs₁⟩ := useSessionSecret_ok hsecret
  obtain ⟨_, s₂, hadopt, h⟩ := run_bind_ok.mp h
  obtain ⟨hit, sess, hs₂, hpeer⟩ := adoptSession_ok hadopt
  rw [run_get_bind_ok, run_check_bind_ok] at h
  obtain ⟨_, h⟩ := h
  obtain ⟨_, s₃, hcipher, h⟩ := run_bind_ok.mp h
  obtain ⟨c, hc, hcode, hs₃⟩ := setClientCiphersuite_ok hcipher
  rw [run_check_bind_ok, run_get_bind_ok, run_check_bind_ok, run_lift_bind_ok] at h
  obtain ⟨_, _, flags, _, h⟩ := h
  rw [run_modify_bind_ok, run_pure_ok] at h
  obtain ⟨hr, ht⟩ := h
  subst hs₁ hs₂ hs₃
  exact ⟨hello, c, hit, sess, { s.ext with
    ticketExpected := flags.ticketExpected, statusExpected := flags.statusExpected },
    flags.npnSeen, hr.symm, hparse, hversion, hc, hcode, hpeer, ht.symm⟩

/-! ## the server's certificates -/

theorem tlsProcessServerCertificate_ok
    (h : (tlsProcessServerCertificate lib pkt).run s = .ok r t) :
    ∃ certs, r = .continueProcessing ∧ parseServerCertificate lib pkt = .ok certs ∧
      t = { s with session.peerChain := certs } := by
  rw [tlsProcessServerCertificate, run_modify_bind_ok, run_lift_bind_ok] at h
  obtain ⟨certs, hparse, h⟩ := h
  rw [run_modify_bind_ok, run_pure_ok] at h
  exact ⟨certs, h.1.symm, hparse, h.2.symm⟩

theorem verifyServerChain_ok {a : VerifyAnswer} {sk : List X509} {again : Bool}
    (h : (verifyServerChain a sk).run s = .ok again t) :
    again = decide (0 < a.i ∧ a.retry = true) ∧
      (again = false → s.verifyMode ≠ Verify.none → 0 < a.i) ∧
      t = { s with
        session.peerChain := sk, verifyResult := a.verifyResult,
        trace := s.trace ++ [.chain sk a.i] } := by
  rw [verifyServerChain, run_modify_bind_ok] at h
  obtain ⟨i, s₁, hver, h⟩ := run_bind_ok.mp h
  rw [sslVerifyCertChain, record, run_modify_bind_ok, run_modify_bind_ok, run_pure_ok] at hver
  obtain ⟨hi, hs₁⟩ := hver
  subst hi hs₁
  rw [run_get_bind_ok] at h
  split at h
  · next hretry =>
    obtain ⟨hagain, ht⟩ := run_pure_ok.mp h
    subst hagain
    exact ⟨by simp [hretry.1, hretry.2], by simp, ht.symm⟩
  · next hgo =>
    rw [run_check_bind_ok, run_pure_ok] at h
    obtain ⟨hmode, hagain, ht⟩ := h
    subst hagain
    exact ⟨(decide_eq_false hgo).symm, fun _ hne => hmode.resolve_left hne, ht.symm⟩

/-- The key of the certificate is of a type that goes with the authentication
of a suite. -/
def OfType (lib : Libcrypto X509 Pkey) (auth : Nat) (x : X509) : Prop :=
  ∃ key clu, lib.x509GetPubkey x = some key ∧ sslCertLookupByPkey lib key = some clu ∧
    hasBit clu.amask auth

theorem adoptPeer_ok {sk : List X509} {r : Work} (h : (adoptPeer lib sk).run s = .ok r t) :
    r = .finishedContinue ∧ (∀ x, sk.head? = some x → OfType lib s.auth x) ∧
      t = { s with session.peer := sk.head?, session.verifyResult := s.verifyResult } := by
  rw [adoptPeer, run_get_bind_ok, run_orThrow_bind_ok] at h
  obtain ⟨pkey, hpkey, h⟩ := h
  rw [run_check_bind_ok, run_orThrow_bind_ok] at h
  obtain ⟨_, clu, hclu, h⟩ := h
  rw [run_check_bind_ok, run_modify_bind_ok, run_pure_ok] at h
  obtain ⟨hbit, hr, ht⟩ := h
  refine ⟨hr.symm, ?_, ht.symm⟩
  intro x hx
  rw [hx] at hpkey
  exact ⟨pkey, clu, hpkey, hclu, hbit⟩

/-- A round of checking the server's certificates, by how it ended. -/
inductive CertsChecked (lib : Libcrypto X509 Pkey) (ans : ClientAnswers X509 Pkey)
    (s t : SSL X509 Pkey) (r : Work) : Prop where
  /-- the first chain is to be verified again: the list stays rotated -/
  | retryEnc (hr : r = .moreA) (hi : 0 < ans.verifyEnc.i) (hretry : ans.verifyEnc.retry = true)
      (ht : ∃ vr, t = { s with
        session.peerChain := pushShift s.session.peerChain, verifyResult := vr,
        trace := s.trace ++ [.chain (pushShift s.session.peerChain) ans.verifyEnc.i] })
  /-- the second chain is to be verified again, and so is the first then -/
  | retrySign (hr : r = .moreA)
      (ht : ∃ vr, t = { s with
        verifyResult := vr
        trace := s.trace ++ [.chain (pushShift s.session.peerChain) ans.verifyEnc.i,
          .chain s.session.peerChain ans.verifySign.i] })
  | adopted (hr : r = .finishedContinue)
      (hverified : s.verifyMode ≠ Verify.none → 0 < ans.verifyEnc.i ∧ 0 < ans.verifySign.i)
      (ht : ∃ vr, t = { s with
        verifyResult := vr
        session.peer := s.session.peerChain.head?
        session.verifyResult := vr
        trace := s.trace ++ [.chain (pushShift s.session.peerChain) ans.verifyEnc.i,
          .chain s.session.peerChain ans.verifySign.i] })
      (htype : ∀ x, s.session.peerChain.head? = some x → OfType lib s.auth x)
  /-- fewer than two certificates, and a client that does not verify -/
  | unverified (hr : r = .finishedContinue) (hmode : s.verifyMode = Verify.none)
      (hlen : s.session.peerChain.length < 2)
      (ht : ∃ vr, t = { s with session.verifyResult := vr })

theorem tlsPostProcessServerCertificate_ok {r : Work}
    (h : (tlsPostProcessServerCertificate lib ans).run s = .ok r t) :
    CertsChecked lib ans s t r := by
  rw [tlsPostProcessServerCertificate, run_get_bind_ok] at h
  dsimp only at h
  split at h
  · next hlen =>
    obtain ⟨again, s₁, henc, h⟩ := run_bind_ok.mp h
    obtain ⟨hagain, hi, hs₁⟩ := verifyServerChain_ok henc
    cases again with
    | true =>
      obtain ⟨hr, ht⟩ := run_pure_ok.mp h
      have hretry := of_decide_eq_true hagain.symm
      exact .retryEnc hr.symm hretry.1 hretry.2 ⟨_, by rw [← ht, hs₁]⟩
    | false =>
      obtain ⟨again, s₂, hsign, h⟩ := run_bind_ok.mp h
      obtain ⟨_, hj, hs₂⟩ := verifyServerChain_ok hsign
      rw [unshiftPop_pushShift] at h hs₂
      subst hs₁ hs₂
      simp only [List.append_assoc] at h
      cases again with
      | true =>
        obtain ⟨hr, ht⟩ := run_pure_ok.mp h
        exact .retrySign hr.symm ⟨_, ht.symm⟩
      | false =>
        obtain ⟨hr, htype, ht⟩ := adoptPeer_ok h
        exact .adopted hr (fun hmode => ⟨hi rfl hmode, hj rfl hmode⟩) ⟨_, ht⟩ htype
  · next hlen =>
    rw [run_check_bind_ok, run_modify_bind_ok, run_pure_ok] at h
    obtain ⟨hmode, hr, ht⟩ := h
    exact .unverified hr.symm hmode (by omega) ⟨_, ht.symm⟩

/-! ## ServerKeyExchange -/

/-- The object that holds just what the check of a ServerKeyExchange reads. -/
def skeView (c : SslCipher) (certs : List X509) (clientRandom serverRandom : Bytes) :
    SSL X509 Pkey :=
  { s3 := { clientRandom := clientRandom, serverRandom := serverRandom,
            tmp := { newCipher := some c } }
    session := { peerChain := certs } }

/-- A ServerKeyExchange body ends in a signature under the key of `peer` over
the two randoms and the parameters of the suite. -/
def SkeSigned (lib : Libcrypto X509 Pkey) (c : SslCipher) (certs : List X509)
    (clientRandom serverRandom : Bytes) (peer : X509) (body : Bytes) : Prop :=
  ∃ p params key lu sig,
    processSkeParams lib (skeView c certs clientRandom serverRandom) body = .ok p ∧
      skeVerifiedParams lib (skeView c certs clientRandom serverRandom) body p.rest = .ok params ∧
      lib.x509GetPubkey peer = some key ∧ tls1SetPeerLegacySigalg lib key = some lu ∧
      getPrefixed 2 p.rest = some (sig, []) ∧
      lib.digestVerify key lu.hash sig (clientRandom ++ serverRandom ++ params) = true

/-- How far the parameters reach does not depend on earlier temporaries. -/
theorem processSkeParams_view (cr sr : Bytes) {p : SkeRead Pkey}
    (hc : s.s3.tmp.newCipher = some c) (h : processSkeParams lib s pkt = .ok p) :
    ∃ p', processSkeParams lib (skeView c s.session.peerChain cr sr) pkt = .ok p' ∧
      p'.rest = p.rest := by
  have hmkey : (skeView c s.session.peerChain cr sr : SSL X509 Pkey).mkey = s.mkey := by
    simp [SSL.mkey, hc, skeView]
  have henc : (skeView c s.session.peerChain cr sr : SSL X509 Pkey).peerEncCert =
      s.peerEncCert := rfl
  unfold processSkeParams at h ⊢
  rw [hmkey]
  dsimp only at h ⊢
  split at h
  · next hbit =>
    rw [if_pos hbit]
    simp only [tlsProcessSkeEcckyber, except_bind_ok, orFatal_eq_ok, require_eq_ok, henc] at h ⊢
    obtain ⟨a, ha, _, hsize, b, hb, x, hx, k, hk, e, he, h⟩ := h
    injection h with h
    subst h
    exact ⟨_, ⟨a, ha, (), hsize, b, hb, x, hx, k, hk, e, he, rfl⟩, rfl⟩
  · next hbit =>
  rw [if_neg hbit]
  split at h
  · next hbit =>
    rw [if_pos hbit]
    simp only [tlsProcessSkeEcdhekyber, except_bind_ok, orFatal_eq_ok, require_eq_ok] at h ⊢
    obtain ⟨a, ha, b, hb, g, hg, pt, hpt, k, hk, l, hl, _, hsize, q, hq, h⟩ := h
    injection h with h
    subst h
    exact ⟨_, ⟨a, ha, b, hb, g, hg, pt, hpt, k, hk, l, hl, (), hsize, q, hq, rfl⟩, rfl⟩
  · next hbit =>
  rw [if_neg hbit]
  split at h
  · next hbit =>
    rw [if_pos hbit]
    simp only [processSkeKyberAigisEnc, except_bind_ok, orFatal_eq_ok] at h ⊢
    obtain ⟨a, ha, k, hk, h⟩ := h
    injection h with h
    subst h
    exact ⟨_, ⟨a, ha, k, hk, rfl⟩, rfl⟩
  · next hbit =>
  rw [if_neg hbit]
  split at h
  · next hbit =>
    rw [if_pos hbit]
    injection h with h
    subst h
    exact ⟨_, rfl, rfl⟩
  · next hbit =>
  rw [if_neg hbit]
  split at h
  · next hbit =>
    rw [if_pos hbit]
    simp only [tlsProcessSkeSm2dhe, except_bind_ok, orFatal_eq_ok] at h ⊢
    obtain ⟨a, ha, b, hb, g, hg, pt, hpt, k, hk, h⟩ := h
    injection h with h
    subst h
    exact ⟨_, ⟨a, ha, b, hb, g, hg, pt, hpt, k, hk, rfl⟩, rfl⟩
  · next hbit =>
    rw [if_neg hbit]
    injection h with h
    subst h
    exact ⟨_, rfl, rfl⟩

theorem skeVerifiedParams_view {cr sr whole rest : Bytes}
    (hc : s.s3.tmp.newCipher = some c) :
    skeVerifiedParams lib (skeView c s.session.peerChain cr sr) whole rest =
      skeVerifiedParams lib s whole rest := by
  have hmkey : (skeView c s.session.peerChain cr sr : SSL X509 Pkey).mkey = s.mkey := by
    simp [SSL.mkey, hc, skeView]
  unfold skeVerifiedParams
  rw [hmkey]
  rfl

theorem processServerKeyExchange_frame
    (h : (processServerKeyExchange lib pkt).run s = .ok r t) :
    ∃ kex lu group, r = .continueReading ∧ t = { s with
      s3.tmp.kex := kex, s3.tmp.peerSigalg := lu, session.kexGroup := group } := by
  rw [processServerKeyExchange, run_get_bind_ok, run_lift_bind_ok] at h
  obtain ⟨s', _, h⟩ := h
  rw [run_modify_bind_ok, run_pure_ok] at h
  exact ⟨_, _, _, h.1.symm, h.2.symm⟩

/-- A ServerKeyExchange is accepted only under the key of the peer's
certificate. -/
theorem processServerKeyExchange_signed
    (hc : s.s3.tmp.newCipher = some c)
    (h : (processServerKeyExchange lib pkt).run s = .ok r t) :
    ∃ peer, s.session.peer = some peer ∧
      SkeSigned lib c s.session.peerChain s.s3.clientRandom s.s3.serverRandom peer pkt := by
  rw [processServerKeyExchange, run_get_bind_ok, run_lift_bind_ok] at h
  obtain ⟨s', hske, _⟩ := h
  simp only [tlsProcessKeyExchange, verifySkeSignature, skeVerifiedTbs, except_bind_ok,
    orFatal_eq_ok, require_eq_ok] at hske
  obtain ⟨p, hp, lu, hverify, _⟩ := hske
  obtain ⟨key, hkey, tbs, htbs, lu', hlu, ⟨sig, left⟩, hsig, _, hleft, _, _, _, hdv, hlast⟩ := hverify
  obtain ⟨params, hparams, htbs⟩ := htbs
  injection htbs with htbs
  subst htbs hleft
  obtain ⟨p', hp', hrest⟩ := processSkeParams_view s.s3.clientRandom s.s3.serverRandom hc hp
  obtain ⟨peer, hpeer, hpub⟩ := Option.bind_eq_some_iff.mp hkey
  refine ⟨peer, hpeer, p', params, key, lu', sig, hp', ?_, hpub, hlu, ?_, hdv⟩
  · rw [skeVerifiedParams_view hc, hrest]
    exact hparams
  · rw [hrest]
    exact hsig

/-! ## the rest of the server's messages -/

theorem tlsProcessCertStatus_ok (h : (tlsProcessCertStatus pkt).run s = .ok r t) :
    r = .continueReading ∧ t = s := by
  rw [tlsProcessCertStatus, run_orThrow_bind_ok] at h
  obtain ⟨_, _, h⟩ := h
  rw [run_check_bind_ok, run_orThrow_bind_ok] at h
  obtain ⟨_, _, _, h⟩ := h
  rw [run_check_bind_ok, run_pure_ok] at h
  exact ⟨h.2.1.symm, h.2.2.symm⟩

theorem tlsProcessCertificateRequest_ok
    (h : (tlsProcessCertificateRequest ans pkt).run s = .ok r t) :
    r = .continueProcessing ∧ t = { s with s3.tmp.certReq := 1 } := by
  rw [tlsProcessCertificateRequest, run_orThrow_bind_ok] at h
  obtain ⟨_, _, h⟩ := h
  rw [run_lift_bind_ok] at h
  obtain ⟨_, _, h⟩ := h
  rw [run_check_bind_ok, run_modify_bind_ok, run_pure_ok] at h
  exact ⟨h.2.1.symm, h.2.2.symm⟩

theorem tlsProcessServerDone_ok
    (h : (tlsProcessServerDone lib ans pkt).run s = .ok r t) :
    r = .finishedReading ∧ pkt = [] ∧ ssl3CheckCertAndAlgorithm lib ans s = .ok () ∧ t = s := by
  rw [tlsProcessServerDone, run_check_bind_ok, run_get_bind_ok, run_lift_bind_ok] at h
  obtain ⟨hpkt, _, hcheck, h⟩ := h
  rw [run_check_bind_ok, run_check_bind_ok, run_pure_ok] at h
  exact ⟨h.2.2.1.symm, hpkt, hcheck, h.2.2.2.symm⟩

theorem tlsProcessNewSessionTicket_ok
    (h : (tlsProcessNewSessionTicket lib pkt).run s = .ok r t) :
    ∃ tick sid nr, r = .continueReading ∧ t = { s with
      session.tick := tick, session.sessionId := sid, session.notResumable := nr } := by
  rw [tlsProcessNewSessionTicket, run_orThrow_bind_ok] at h
  obtain ⟨_, _, h⟩ := h
  rw [run_orThrow_bind_ok] at h
  obtain ⟨_, _, h⟩ := h
  rw [run_check_bind_ok] at h
  obtain ⟨_, h⟩ := h
  obtain ⟨_, s₁, htick, h⟩ := run_bind_ok.mp h
  rw [run_pure_ok] at h
  obtain ⟨hr, ht⟩ := h
  subst ht
  cases run_onlyIf_ok.mp htick with
  | inl hsome =>
    have hs₁ := run_modify_ok.mp hsome.2
    exact ⟨_, _, _, hr.symm, hs₁.symm⟩
  | inr hnone =>
    exact ⟨s.session.tick, s.session.sessionId, s.session.notResumable, hr.symm, hnone.2.symm⟩

theorem tlsProcessHelloReq_ok (h : (tlsProcessHelloReq ans pkt).run s = .ok r t) :
    ∃ ren pend, r = .finishedReading ∧ t = { s with
      renegotiate := ren, s3.renegotiate := pend } := by
  rw [tlsProcessHelloReq, run_check_bind_ok] at h
  obtain ⟨_, h⟩ := h
  split at h
  · rw [ssl3SendWarning_noRenegotiation, pure_bind, run_pure_ok] at h
    exact ⟨s.renegotiate, s.s3.renegotiate, h.1.symm, h.2.symm⟩
  · rw [run_modify_bind_ok, run_pure_ok] at h
    exact ⟨true, true, h.1.symm, h.2.symm⟩

/-- What the preparation of the client's certificates may change. -/
def Prepared (s t : SSL X509 Pkey) : Prop :=
  ∃ sa cert req dg bf, Digested s dg bf ∧ (req = s.s3.tmp.certReq ∨ req = 2) ∧ t = { s with
    s3.tmp.sigalg := sa
    cert := cert
    s3.tmp.certReq := req
    s3.handshakeDgst := dg
    s3.handshakeBuffer := bf }

theorem sendNoCertificate_ok (h : sendNoCertificate.run s = .ok u t) : t = { s with
      s3.tmp.certReq := 2, s3.handshakeDgst := some s.transcript, s3.handshakeBuffer := none } := by
  rw [sendNoCertificate, run_modify_bind_ok] at h
  exact ssl3DigestCachedRecords_ok h

theorem ssl3CheckClientCertificate_ok {hasCert good : Bool}
    (h : (ssl3CheckClientCertificate ans hasCert).run s = .ok good t) :
    t = { s with s3.tmp.sigalg := clientSigalg s hasCert } := by
  rw [ssl3CheckClientCertificate, run_modify_bind_ok, run_get_bind_ok, run_pure_ok] at h
  exact h.2.symm

theorem prepareFromCallback_ok {r : Work} (h : (prepareFromCallback ans).run s = .ok r t) :
    (r = .moreB ∨ r = .finishedContinue) ∧ Prepared s t := by
  unfold prepareFromCallback at h
  split at h
  · obtain ⟨hr, ht⟩ := run_pure_ok.mp h
    exact ⟨.inl hr.symm, s.s3.tmp.sigalg, s.cert, s.s3.tmp.certReq, _, _, .inl ⟨rfl, rfl⟩, .inl rfl, ht.symm⟩
  · obtain ⟨_, s₁, hsend, h⟩ := run_bind_ok.mp h
    obtain ⟨hr, ht⟩ := run_pure_ok.mp h
    have hs₁ := sendNoCertificate_ok hsend
    subst ht
    exact ⟨.inr hr.symm, s.s3.tmp.sigalg, s.cert, 2, _, _, .inr ⟨rfl, .inr rfl⟩, .inr rfl, hs₁⟩
  · next cert _ =>
    rw [run_modify_bind_ok] at h
    obtain ⟨good, s₁, hcheck, h⟩ := run_bind_ok.mp h
    have hs₁ := ssl3CheckClientCertificate_ok hcheck
    obtain ⟨_, s₂, hsend, h⟩ := run_bind_ok.mp h
    obtain ⟨hr, ht⟩ := run_pure_ok.mp h
    subst ht hs₁
    refine ⟨.inr hr.symm, ?_⟩
    cases run_onlyIf_ok.mp hsend with
    | inl hbad =>
      exact ⟨_, cert, 2, _, _, .inr ⟨rfl, .inr rfl⟩, .inr rfl, sendNoCertificate_ok hbad.2⟩
    | inr hgood =>
      exact ⟨_, cert, s.s3.tmp.certReq, _, _, .inl ⟨rfl, rfl⟩, .inl rfl, hgood.2.symm⟩

theorem tlsPrepareClientCertificate_ok {r : Work}
    (h : (tlsPrepareClientCertificate ans wst).run s = .ok r t) :
    (r = .moreA ∨ r = .moreB ∨ r = .finishedContinue) ∧ Prepared s t := by
  unfold tlsPrepareClientCertificate at h
  split at h
  · split at h
    · obtain ⟨hr, ht⟩ := run_pure_ok.mp h
      exact ⟨.inl hr.symm, s.s3.tmp.sigalg, s.cert, s.s3.tmp.certReq, _, _, .inl ⟨rfl, rfl⟩,
        .inl rfl, ht.symm⟩
    · exact (run_throw_ok.mp h).elim
    · obtain ⟨good, s₁, hcheck, h⟩ := run_bind_ok.mp h
      have hs₁ := ssl3CheckClientCertificate_ok hcheck
      subst hs₁
      split at h
      · obtain ⟨hr, ht⟩ := run_pure_ok.mp h
        exact ⟨.inr (.inr hr.symm), _, s.cert, s.s3.tmp.certReq, _, _, .inl ⟨rfl, rfl⟩, .inl rfl, ht.symm⟩
      · obtain ⟨hr, sa, cert, req, dg, bf, hdig, hreq, ht⟩ := prepareFromCallback_ok h
        exact ⟨.inr hr, sa, cert, req, dg, bf, hdig, hreq, ht⟩
  · obtain ⟨hr, hprep⟩ := prepareFromCallback_ok h
    exact ⟨.inr hr, hprep⟩
  · exact (run_throw_ok.mp h).elim

/-! ## the read machine -/

/-- A message that the client read, by its type. -/
inductive ClientRead (lib : Libcrypto X509 Pkey) (s t : SSL X509 Pkey) :
    MsgType → Bytes → Prop where
  | hello (body : Bytes) (sh : ServerHello) (c : NtlsCipher) (dg bf : Option Bytes)
      (hst : s.statem.handState = .cwClntHello) (hparse : parseServerHello body = .ok sh)
      (hc : c ∈ s.ciphers) (hcode : c.1.id % 65536 = sh.cipher)
      (hhash : Synced s → Hashes dg bf
        (transcriptOf s.trace ++ (.accepted .serverHello body : Obs X509).bytes))
      (ht : ∃ hit sess ext npn,
        (hit = false → sess.peer = if s.session.sessionId = [] then s.session.peer else none) ∧
          t = { s with
            statem.handState := .crSrvrHello, statem.readState := .header, version := sh.version,
            hit := hit, session := sess, ext := ext, s3.handshakeDgst := dg,
            s3.handshakeBuffer := bf, s3.npnSeen := npn, s3.serverRandom := sh.random,
            s3.tmp.newCipher := some c.1, trace := s.trace ++ [.accepted .serverHello body] }) :
      ClientRead lib s t .serverHello body
  | certificate (body : Bytes) (certs : List X509) (dg bf : Option Bytes)
      (hst : s.statem.handState = .crSrvrHello) (hfull : s.hit = false)
      (hparse : parseServerCertificate lib body = .ok certs)
      (hfed : Fed s (handshakeBytes .certificate body) dg bf)
      (ht : t = { s with
        statem.handState := .crCert, statem.readState := .postProcess .moreA,
        session.peerChain := certs, s3.handshakeDgst := dg, s3.handshakeBuffer := bf,
        trace := s.trace ++ [.accepted .certificate body] }) :
      ClientRead lib s t .certificate body
  | status (body : Bytes) (dg bf : Option Bytes) (hst : s.statem.handState = .crCert)
      (hfed : Fed s (handshakeBytes .certificateStatus body) dg bf)
      (ht : t = { s with
        statem.handState := .crCertStatus, statem.readState := .header, s3.handshakeDgst := dg,
        s3.handshakeBuffer := bf, trace := s.trace ++ [.accepted .certificateStatus body] }) :
      ClientRead lib s t .certificateStatus body
  | keyExchange (body : Bytes) (dg bf : Option Bytes)
      (hst : (s.statem.handState = .crSrvrHello ∧ s.hit = false ∧
          hasBit s.auth (Auth.aNULL ||| Auth.aSRP ||| Auth.aPSK)) ∨
        s.statem.handState = .crCert ∨ s.statem.handState = .crCertStatus)
      (hsigned : ∀ c, s.s3.tmp.newCipher = some c → ∃ peer, s.session.peer = some peer ∧
        SkeSigned lib c s.session.peerChain s.s3.clientRandom s.s3.serverRandom peer body)
      (hfed : Fed s (handshakeBytes .serverKeyExchange body) dg bf)
      (ht : ∃ kex lu group, t = { s with
        statem.handState := .crKeyExch, statem.readState := .header, session.kexGroup := group,
        s3.tmp.kex := kex, s3.tmp.peerSigalg := lu, s3.handshakeDgst := dg,
        s3.handshakeBuffer := bf, trace := s.trace ++ [.accepted .serverKeyExchange body] }) :
      ClientRead lib s t .serverKeyExchange body
  | request (body : Bytes) (dg bf : Option Bytes) (hst : s.statem.handState = .crKeyExch)
      (hfed : Fed s (handshakeBytes .certificateRequest body) dg bf)
      (ht : t = { s with
        statem.handState := .crCertReq, statem.readState := .postProcess .moreA,
        s3.tmp.certReq := 1, s3.handshakeDgst := dg, s3.handshakeBuffer := bf,
        trace := s.trace ++ [.accepted .certificateRequest body] }) :
      ClientRead lib s t .certificateRequest body
  | done (dg bf : Option Bytes)
      (hst : s.statem.handState = .crKeyExch ∨ s.statem.handState = .crCertReq)
      (hfed : Fed s (handshakeBytes .serverDone []) dg bf)
      (ht : t = { s with
        statem.handState := .crSrvrDone, statem.state := .writing, statem.writeState := .transition,
        s3.handshakeDgst := dg, s3.handshakeBuffer := bf,
        trace := s.trace ++ [.accepted .serverDone []] }) :
      ClientRead lib s t .serverDone []
  | ticket (body : Bytes) (dg bf : Option Bytes)
      (hst : (s.statem.handState = .crSrvrHello ∧ s.hit = true) ∨ s.statem.handState = .cwFinished)
      (hfed : Fed s (handshakeBytes .newSessionTicket body) dg bf)
      (ht : ∃ tick sid nr, t = { s with
        statem.handState := .crSessionTicket, statem.readState := .header, session.tick := tick,
        session.sessionId := sid, session.notResumable := nr, s3.handshakeDgst := dg,
        s3.handshakeBuffer := bf, trace := s.trace ++ [.accepted .newSessionTicket body] }) :
      ClientRead lib s t .newSessionTicket body
  | change (hit : Bool)
      (hst : (s.statem.handState = .crSrvrHello ∧ hit = true) ∨
        ((s.statem.handState = .cwFinished ∨ s.statem.handState = .crSessionTicket) ∧ hit = s.hit))
      (ht : t = { s with
        statem.handState := .crChange, statem.readState := .header, hit := hit,
        s3.changeCipherSpec := true, trace := s.trace ++ [.accepted .changeCipherSpec []] }) :
      ClientRead lib s t .changeCipherSpec []
  | finished (body : Bytes) (c : SslCipher) (hst : s.statem.handState = .crChange)
      (hc : s.s3.tmp.newCipher = some c)
      (hmac : body = finishMac lib c.handshakeMac s.session.masterKey (finishedLabel (!s.server))
        s.transcript)
      (ht : ∃ cl, t = { s with
        statem.handState := .crFinished, statem.state := .writing, statem.writeState := .transition,
        statem.cleanuphand := cl,
        s3.handshakeDgst := some (s.transcript ++ handshakeBytes .finished body),
        s3.handshakeBuffer := none, s3.changeCipherSpec := false, s3.tmp.peerFinishMd := some body,
        trace := s.trace ++ [.accepted .finished body] }) :
      ClientRead lib s t .finished body
  | helloRequest (body : Bytes) (dg bf : Option Bytes) (hst : s.statem.handState = .ok)
      (hfed : Fed s (handshakeBytes .helloRequest body) dg bf)
      (ht : ∃ ren pend, t = { s with
        statem.handState := .crHelloReq, statem.state := .writing, statem.writeState := .transition,
        renegotiate := ren, s3.renegotiate := pend, s3.handshakeDgst := dg,
        s3.handshakeBuffer := bf, trace := s.trace ++ [.accepted .helloRequest body] }) :
      ClientRead lib s t .helloRequest body

/-- A ServerHello is added to the transcript unless it carries the random of a
HelloRetryRequest. -/
theorem hashes_serverHello {hs : HandState}
    (h : (tlsGetMessageBody lib .serverHello pkt).run { s with statem.handState := hs } = .ok u t) :
    ∃ dg bf, (Synced s → Hashes dg bf
        (transcriptOf s.trace ++ (.accepted .serverHello pkt : Obs X509).bytes)) ∧
      t = { s with
        statem.handState := hs, s3.handshakeDgst := dg, s3.handshakeBuffer := bf } := by
  by_cases hhrr : isHrr .serverHello pkt
  · obtain ⟨_, s₁, hmac, h⟩ := run_bind_ok.mp h
    have h₁ : { s with statem.handState := hs } = s₁ := by simpa [run_onlyIf_ok] using hmac
    have h₂ : s₁ = t := by simpa [run_onlyIf_ok, hhrr] using h
    refine ⟨s.s3.handshakeDgst, s.s3.handshakeBuffer, ?_, by rw [← h₂, ← h₁]⟩
    intro hsync
    have hbytes : (.accepted .serverHello pkt : Obs X509).bytes = [] := by simp [Obs.bytes, hhrr]
    rw [hbytes, List.append_nil]
    exact hsync
  · have hfeed := tlsGetMessageBody_other (by simp) (by simp) hhrr h
    obtain ⟨hfed, ht⟩ := Fed.of_ssl3FinishMac hfeed
    refine ⟨_, _, ?_, ht⟩
    intro hsync
    have hbytes : (.accepted .serverHello pkt : Obs X509).bytes =
        handshakeBytes .serverHello pkt := by simp [Obs.bytes, hhrr]
    rw [hbytes]
    exact hfed.hashes _ hsync

/-- **The read machine of the client.** -/
theorem client_readMessage_ok
    (h : (readMessage lib (client lib) mt pkt ans).run s = .ok u t) :
    ClientRead lib s t mt pkt := by
  obtain ⟨s₁, s₂, ret, s₃, htran, hbody, hproc, ht⟩ := readMessage_ok h
  obtain ⟨hs, hnext, hs₁⟩ := clientReadTransition_ok htran
  have hproc' : (clientProcessMessage lib ans pkt).run s₂ = .ok ret s₃ := hproc
  rw [clientProcessMessage, run_get_bind_ok] at hproc'
  have hsame : mt ≠ .changeCipherSpec → s₁ = { s with statem.handState := hs } := by
    intro hmt
    have hno : ¬ secretResumption s mt := fun h => hmt (secretResumption_change h)
    rw [hs₁, decide_eq_false hno, Bool.or_false]
  have hread := fun hmt => fed_of_read hmt (show (tlsGetMessageBody lib mt pkt).run
    { s with statem.handState := hs } = .ok _ s₂ by rw [← hsame hmt.1]; exact hbody)
  rcases clientReadNext_some hnext with h | h | h | h | h | h | h | h | h | h
  · obtain ⟨hmt, hhs, hst⟩ := h
    subst hmt hhs
    rw [hsame (by simp)] at hbody
    obtain ⟨dg, bf, hhash, hs₂⟩ := hashes_serverHello hbody
    subst hs₂
    obtain ⟨sh, c, hit, sess, ext, npn, hret, hparse, _, hc, hcode, hpeer, hs₃⟩ :=
      tlsProcessServerHello_ok hproc'
    subst hret hs₃
    exact .hello pkt sh c dg bf hst hparse hc hcode hhash ⟨hit, sess, ext, npn, hpeer, ht⟩
  · obtain ⟨hmt, hhs, hst, hfull, _⟩ := h
    subst hmt hhs
    obtain ⟨dg, bf, hfed, hs₂⟩ := hread (by simp)
    subst hs₂
    obtain ⟨certs, hret, hparse, hs₃⟩ := tlsProcessServerCertificate_ok hproc'
    subst hret hs₃
    exact .certificate pkt certs dg bf hst hfull hparse hfed ht
  · obtain ⟨hmt, hhs, hst⟩ := h
    subst hmt hhs
    obtain ⟨dg, bf, hfed, hs₂⟩ := hread (by simp)
    subst hs₂
    obtain ⟨hret, hs₃⟩ := tlsProcessCertStatus_ok hproc'
    subst hret hs₃
    exact .status pkt dg bf hst hfed ht
  · obtain ⟨hmt, hhs, hst⟩ := h
    subst hmt hhs
    obtain ⟨dg, bf, hfed, hs₂⟩ := hread (by simp)
    subst hs₂
    obtain ⟨kex, lu, group, hret, hs₃⟩ := processServerKeyExchange_frame hproc'
    have hsigned := fun c hc => processServerKeyExchange_signed (c := c) hc hproc'
    subst hret hs₃
    exact .keyExchange pkt dg bf hst hsigned hfed ⟨kex, lu, group, ht⟩
  · obtain ⟨hmt, hhs, hst⟩ := h
    subst hmt hhs
    obtain ⟨dg, bf, hfed, hs₂⟩ := hread (by simp)
    subst hs₂
    obtain ⟨hret, hs₃⟩ := tlsProcessCertificateRequest_ok hproc'
    subst hret hs₃
    exact .request pkt dg bf hst hfed ht
  · obtain ⟨hmt, hhs, hst⟩ := h
    subst hmt hhs
    obtain ⟨dg, bf, hfed, hs₂⟩ := hread (by simp)
    subst hs₂
    obtain ⟨hret, hpkt, _, hs₃⟩ := tlsProcessServerDone_ok hproc'
    subst hret hpkt hs₃
    exact .done dg bf hst hfed ht
  · obtain ⟨hmt, hhs, hst⟩ := h
    subst hmt hhs
    obtain ⟨dg, bf, hfed, hs₂⟩ := hread (by simp)
    subst hs₂
    obtain ⟨tick, sid, nr, hret, hs₃⟩ := tlsProcessNewSessionTicket_ok hproc'
    subst hret hs₃
    exact .ticket pkt dg bf hst hfed ⟨tick, sid, nr, ht⟩
  · obtain ⟨hmt, hhs, hst⟩ := h
    subst hmt hhs
    have hs₂ := tlsGetMessageBody_changeCipherSpec hbody
    subst hs₂ hs₁
    obtain ⟨hret, hpkt, hs₃⟩ := tlsProcessChangeCipherSpec_ok hproc'
    subst hret hpkt hs₃
    refine .change _ ?_ ht
    cases hst with
    | inl hhello => exact .inl ⟨hhello.1, by simpa using hhello.2⟩
    | inr hlater =>
      refine .inr ⟨hlater, ?_⟩
      have hno : ¬ secretResumption s .changeCipherSpec := fun h => by
        rw [h.1] at hlater
        simp at hlater
      rw [decide_eq_false hno, Bool.or_false]
  · obtain ⟨hmt, hhs, hst⟩ := h
    subst hmt hhs
    rw [hsame (by simp)] at hbody
    obtain ⟨c, hc, hs₂⟩ := tlsGetMessageBody_finished hbody
    subst hs₂
    obtain ⟨hret, hpkt, hs₃⟩ := tlsProcessFinished_ok hproc'
    subst hret hs₃
    have hmac : pkt = finishMac lib c.handshakeMac s.session.masterKey (finishedLabel (!s.server))
        s.transcript := hpkt
    refine .finished pkt c hst hc hmac ⟨s.server || s.statem.cleanuphand, ?_⟩
    rw [ht, hmac]
    rfl
  · obtain ⟨hmt, hhs, hst⟩ := h
    subst hmt hhs
    obtain ⟨dg, bf, hfed, hs₂⟩ := hread (by simp)
    subst hs₂
    obtain ⟨ren, pend, hret, hs₃⟩ := tlsProcessHelloReq_ok hproc'
    subst hret hs₃
    exact .helloRequest pkt dg bf hst hfed ⟨ren, pend, ht⟩

/-- A round of post-processing, by the message it was about. -/
inductive ClientPosted (lib : Libcrypto X509 Pkey) (ans : ClientAnswers X509 Pkey)
    (s t : SSL X509 Pkey) : Prop where
  | certs (r : Work) (s₁ : SSL X509 Pkey) (hst : s.statem.handState = .crCert)
      (hchecked : CertsChecked lib ans s s₁ r) (ht : t = SSL.afterWork r s₁)
  | request (r : Work) (s₁ : SSL X509 Pkey) (hst : s.statem.handState = .crCertReq)
      (hr : r = .moreA ∨ r = .moreB ∨ r = .finishedContinue) (hprep : Prepared s s₁)
      (ht : t = SSL.afterWork r s₁)

theorem client_postProcessRound_ok
    (h : (postProcessRound (client lib) wst ans).run s = .ok u t) :
    ClientPosted lib ans s t := by
  obtain ⟨r, s₁, hpost, ht⟩ := postProcessRound_ok h
  have hpost' : (clientPostProcess lib ans wst).run s = .ok r s₁ := hpost
  rw [clientPostProcess, run_get_bind_ok] at hpost'
  split at hpost'
  · next hst => exact .certs r s₁ hst (tlsPostProcessServerCertificate_ok hpost') ht
  · next hst =>
    obtain ⟨hr, hprep⟩ := tlsPrepareClientCertificate_ok hpost'
    exact .request r s₁ hst hr hprep ht
  · exact (run_throw_ok.mp hpost').elim

/-! ## the client's messages -/

/-- The message of a state that the client writes in. -/
def clientMsgType : HandState → MsgType
  | .cwChange => .changeCipherSpec
  | .cwClntHello => .clientHello
  | .cwCert => .certificate
  | .cwKeyExch => .clientKeyExchange
  | .cwCertVrfy => .certificateVerify
  | .cwNextProto => .nextProto
  | _ => .finished

/-- A ClientHello body with the given random and ciphers. -/
def HelloWith (ciphers : List NtlsCipher) (random body : Bytes) : Prop :=
  ∃ version sessionId reneg fallback exts, body =
    clientHelloBody version random sessionId (sslCipherListToBytes ciphers reneg fallback) exts

/-- A Certificate body is the empty list if the client has no certificate to
send, and is not if it has the two that its signature algorithm is for. -/
def CertificateWith (s : SSL X509 Pkey) (body : Bytes) : Prop :=
  (s.s3.tmp.certReq = 2 → body = [0, 0, 0]) ∧
    ∀ sa a k, s.s3.tmp.certReq ≠ 2 → s.s3.tmp.sigalg = some sa →
      (sa.slots s.cert).1.x509 = some a → (sa.slots s.cert).2.x509 = some k → body ≠ [0, 0, 0]

/-- What the construction of a client message leaves alone. -/
structure ClientFrame (s t : SSL X509 Pkey) (h : HandState) : Prop where
  server : t.server = s.server
  hit : t.hit = s.hit
  verifyMode : t.verifyMode = s.verifyMode
  ciphers : t.ciphers = s.ciphers
  serverRandom : t.s3.serverRandom = s.s3.serverRandom
  newCipher : t.s3.tmp.newCipher = s.s3.tmp.newCipher
  steers : t.clientSteers = s.clientSteers
  peer : h ≠ .cwClntHello → t.session.peer = s.session.peer
  peerChain : h ≠ .cwClntHello → t.session.peerChain = s.session.peerChain
  clientRandom : h ≠ .cwClntHello → t.s3.clientRandom = s.s3.clientRandom
  masterKey : h ≠ .cwClntHello → h ≠ .cwKeyExch → t.session.masterKey = s.session.masterKey

theorem ClientFrame.same (s : SSL X509 Pkey) (h : HandState) : ClientFrame s s h where
  server := rfl
  hit := rfl
  verifyMode := rfl
  ciphers := rfl
  serverRandom := rfl
  newCipher := rfl
  steers := rfl
  peer _ := rfl
  peerChain _ := rfl
  clientRandom _ := rfl
  masterKey _ _ := rfl

theorem ClientFrame.trans {r : SSL X509 Pkey} (hsr : ClientFrame s r h)
    (hrt : ClientFrame r t h) : ClientFrame s t h where
  server := hrt.server.trans hsr.server
  hit := hrt.hit.trans hsr.hit
  verifyMode := hrt.verifyMode.trans hsr.verifyMode
  ciphers := hrt.ciphers.trans hsr.ciphers
  serverRandom := hrt.serverRandom.trans hsr.serverRandom
  newCipher := hrt.newCipher.trans hsr.newCipher
  steers := hrt.steers.trans hsr.steers
  peer hne := (hrt.peer hne).trans (hsr.peer hne)
  peerChain hne := (hrt.peerChain hne).trans (hsr.peerChain hne)
  clientRandom hne := (hrt.clientRandom hne).trans (hsr.clientRandom hne)
  masterKey hne hkex := (hrt.masterKey hne hkex).trans (hsr.masterKey hne hkex)

theorem tlsConstructClientHello_ok
    (h : (tlsConstructClientHello ans).run s = .ok body t) :
    ∃ sess random, HelloWith s.ciphers random body ∧
      t = { s with session := sess, s3.clientRandom := random } := by
  rw [tlsConstructClientHello, run_modify_bind_ok, run_orThrow_bind_ok] at h
  obtain ⟨random, _, h⟩ := h
  rw [run_modify_bind_ok, run_get_bind_ok, run_check_bind_ok] at h
  obtain ⟨_, h⟩ := h
  dsimp only at h
  rw [run_check_bind_ok, run_lift_bind_ok] at h
  obtain ⟨_, exts, _, h⟩ := h
  obtain ⟨hbody, ht⟩ := run_pure_ok.mp h
  exact ⟨_, random.1, ⟨_, _, _, _, exts, hbody.symm⟩, ht.symm⟩

theorem constructClientKeyExchange_ok
    (h : (constructClientKeyExchange lib ans).run s = .ok body t) :
    ∃ kex, t = { s with s3.tmp.kex := kex } := by
  rw [constructClientKeyExchange, run_get_bind_ok, run_lift_bind_ok] at h
  obtain ⟨⟨_, kex⟩, _, h⟩ := h
  rw [run_modify_bind_ok, run_pure_ok] at h
  exact ⟨kex, h.2.symm⟩

theorem tlsConstructCertVerify_ok
    (h : (tlsConstructCertVerify lib ans).run s = .ok body t) :
    t = { s with s3.handshakeDgst := some s.transcript, s3.handshakeBuffer := none } := by
  rw [tlsConstructCertVerify, run_get_bind_ok, run_orThrow_bind_ok] at h
  obtain ⟨lu, _, h⟩ := h
  rw [run_orThrow_bind_ok] at h
  obtain ⟨pkey, _, h⟩ := h
  dsimp only at h
  rw [run_check_bind_ok, run_orThrow_bind_ok] at h
  obtain ⟨_, md, _, h⟩ := h
  rw [run_orThrow_bind_ok] at h
  obtain ⟨sig, _, h⟩ := h
  rw [run_orThrow_bind_ok] at h
  obtain ⟨body', _, h⟩ := h
  obtain ⟨_, s₁, hdigest, h⟩ := run_bind_ok.mp h
  obtain ⟨_, ht⟩ := run_pure_ok.mp h
  subst ht
  exact ssl3DigestCachedRecords_ok hdigest

theorem sslAddCertToWpacket_length {x : X509} {der : Bytes}
    (h : sslAddCertToWpacket lib x = .ok der) : 3 ≤ der.length := by
  rw [sslAddCertToWpacket, orFatal_eq_ok, Option.bind_eq_some_iff] at h
  obtain ⟨bytes, _, hput⟩ := h
  rw [(putPrefixed_eq_some_iff.mp hput).2]
  simp

/-- Two certificates make a list that is not empty. -/
theorem sslAddCertChain_ne_nil {sign enc : CertPkey X509 Pkey} {chain : List X509} {a k : X509}
    (ha : sign.x509 = some a) (hk : enc.x509 = some k)
    (h : sslAddCertChain lib sign enc chain = .ok body) : body ≠ [] := by
  simp only [sslAddCertChain, ha, hk, except_bind_ok, List.mapM_cons] at h
  obtain ⟨_, ⟨der, hder, _, _, hders⟩, hbody⟩ := h
  injection hders with hders
  injection hbody with hbody
  have hlen := sslAddCertToWpacket_length hder
  intro hnil
  rw [hnil, ← hders, List.flatten_cons, List.append_eq_nil_iff] at hbody
  rw [hbody.1] at hlen
  simp at hlen

theorem tlsConstructClientCertificate_ok
    (h : tlsConstructClientCertificate lib ans s = .ok body) : CertificateWith s body := by
  have hempty : putPrefixed 3 [] = some [0, 0, 0] := by decide
  constructor
  · intro hreq
    have hbody : orFatal .internalError .internalError (putPrefixed 3 []) = .ok body := by
      simp only [tlsConstructClientCertificate, hreq, if_true] at h
      split at h <;> exact h
    rw [orFatal_eq_ok, hempty] at hbody
    injection hbody with hbody
    exact hbody.symm
  · intro sa a k hreq hsa ha hk hnil
    simp only [tlsConstructClientCertificate, hsa, if_neg hreq, except_bind_ok, orFatal_eq_ok,
      putPrefixed_eq_some_iff] at h
    obtain ⟨certs, hcerts, _, hbody⟩ := h
    have hlen := congrArg List.length (hbody.symm.trans hnil)
    simp at hlen
    exact sslAddCertChain_ne_nil ha hk hcerts hlen

theorem clientConstructMessage_ok
    (h : (clientConstructMessage lib ans).run s = .ok (mt, body) t) :
    mt = clientMsgType s.statem.handState ∧ ClientFrame s t s.statem.handState ∧
      Digested s t.s3.handshakeDgst t.s3.handshakeBuffer ∧ t.trace = s.trace ∧
      (∃ cl, t.statem = { s.statem with cleanuphand := cl }) ∧
      (s.statem.handState = .cwClntHello → HelloWith s.ciphers t.s3.clientRandom body) ∧
      (s.statem.handState = .cwCert → CertificateWith s body) := by
  rw [clientConstructMessage, run_get_bind_ok] at h
  split at h
  · next hst =>
    obtain ⟨rfl, _, rfl⟩ := constructed_of_pure h
    exact ⟨by rw [hst]; rfl, ClientFrame.same _ _, .inl ⟨rfl, rfl⟩, rfl, ⟨_, rfl⟩,
      by simp [hst], by simp [hst]⟩
  · next hst =>
    obtain ⟨rfl, hhello⟩ := constructed_of_bind h
    obtain ⟨sess, random, hwith, rfl⟩ := tlsConstructClientHello_ok hhello
    exact ⟨by rw [hst]; rfl,
      ⟨rfl, rfl, rfl, rfl, rfl, rfl, rfl, fun hne => absurd hst hne, fun hne => absurd hst hne,
        fun hne => absurd hst hne, fun hne => absurd hst hne⟩,
      .inl ⟨rfl, rfl⟩, rfl, ⟨_, rfl⟩, fun _ => hwith, by simp [hst]⟩
  · next hst =>
    obtain ⟨rfl, hcert⟩ := constructed_of_bind h
    obtain ⟨hbody, rfl⟩ := run_lift_ok.mp hcert
    exact ⟨by rw [hst]; rfl, ClientFrame.same _ _, .inl ⟨rfl, rfl⟩, rfl, ⟨_, rfl⟩,
      by simp [hst], fun _ => tlsConstructClientCertificate_ok hbody⟩
  · next hst =>
    obtain ⟨rfl, hkex⟩ := constructed_of_bind h
    obtain ⟨kex, rfl⟩ := constructClientKeyExchange_ok hkex
    exact ⟨by rw [hst]; rfl,
      ⟨rfl, rfl, rfl, rfl, rfl, rfl, rfl, fun _ => rfl, fun _ => rfl, fun _ => rfl, fun _ _ => rfl⟩,
      .inl ⟨rfl, rfl⟩, rfl, ⟨_, rfl⟩, by simp [hst], by simp [hst]⟩
  · next hst =>
    obtain ⟨rfl, hver⟩ := constructed_of_bind h
    obtain rfl := tlsConstructCertVerify_ok hver
    exact ⟨by rw [hst]; rfl,
      ⟨rfl, rfl, rfl, rfl, rfl, rfl, rfl, fun _ => rfl, fun _ => rfl, fun _ => rfl, fun _ _ => rfl⟩,
      .inr ⟨rfl, .inr rfl⟩, rfl, ⟨_, rfl⟩, by simp [hst], by simp [hst]⟩
  · next hst =>
    obtain ⟨rfl, hproto⟩ := constructed_of_bind h
    obtain ⟨_, rfl⟩ := run_lift_ok.mp hproto
    exact ⟨by rw [hst]; rfl, ClientFrame.same _ _, .inl ⟨rfl, rfl⟩, rfl, ⟨_, rfl⟩,
      by simp [hst], by simp [hst]⟩
  · next hst =>
    obtain ⟨rfl, hfin⟩ := constructed_of_bind h
    obtain ⟨c, _, _, rfl⟩ := tlsConstructFinished_ok hfin
    exact ⟨by rw [hst]; rfl,
      ⟨rfl, rfl, rfl, rfl, rfl, rfl, rfl, fun _ => rfl, fun _ => rfl, fun _ => rfl, fun _ _ => rfl⟩,
      .inr ⟨rfl, .inr rfl⟩, rfl, ⟨_, rfl⟩, by simp [hst], by simp [hst]⟩
  · exact (run_throw_ok.mp h).elim

/-! ## the write machine -/

theorem clientPreWork_ok {r : Work} (h : clientPreWork.run s = .ok r t) :
    (s.statem.handState = .ok ∧ r = .finishedStop ∧ ∃ ren cl te, t = { s with
          renegotiate := ren, statem.cleanuphand := cl, statem.inInit := false,
          ext.ticketExpected := te }) ∨
      (s.statem.handState ≠ .ok ∧ r = .finishedContinue ∧ t = s) := by
  rw [clientPreWork, run_get_bind_ok] at h
  split at h
  · next hst =>
    obtain ⟨hr, ht⟩ := tlsFinishHandshake_ok h
    exact .inl ⟨hst, hr, ht⟩
  · next hst =>
    obtain ⟨hr, ht⟩ := run_pure_ok.mp h
    exact .inr ⟨hst, hr.symm, ht.symm⟩

theorem clientPostWork_ok (h : (clientPostWork lib).run s = .ok u t) :
    ClientFrame s t s.statem.handState ∧ t.statem = s.statem ∧ t.trace = s.trace ∧
      Digested s t.s3.handshakeDgst t.s3.handshakeBuffer := by
  rw [clientPostWork, run_get_bind_ok] at h
  split at h
  · next hst =>
    rw [tlsClientKeyExchangePostWork, run_get_bind_ok, run_orThrow_bind_ok] at h
    obtain ⟨pms, _, h⟩ := h
    obtain ⟨mk, dg, hdg, ht⟩ := sslGenerateMasterSecret_ok h
    subst ht
    refine ⟨⟨rfl, rfl, rfl, rfl, rfl, rfl, rfl, fun _ => rfl, fun _ => rfl, fun _ => rfl,
      fun _ hne => absurd hst hne⟩, rfl, rfl, ?_⟩
    cases hdg with
    | inl hsame => exact .inl ⟨hsame, rfl⟩
    | inr hdone => exact .inr ⟨hdone, .inl rfl⟩
  · have ht := run_modify_ok.mp h
    subst ht
    exact ⟨⟨rfl, rfl, rfl, rfl, rfl, rfl, rfl, fun _ => rfl, fun _ => rfl, fun _ => rfl,
      fun _ _ => rfl⟩, rfl, rfl, .inl ⟨rfl, rfl⟩⟩
  · obtain ⟨_, ht⟩ := run_pure_ok.mp h
    subst ht
    exact ⟨ClientFrame.same _ _, rfl, rfl, .inl ⟨rfl, rfl⟩⟩

/-- What sending the message of state `h` did. -/
structure ClientSent (s t : SSL X509 Pkey) (h : HandState) : Prop where
  frame : ClientFrame s t h
  statem : ∃ cl, t.statem =
    { s.statem with handState := h, writeState := .transition, cleanuphand := cl }
  trace : ∃ body, t.trace = s.trace ++ [.sent (clientMsgType h) body] ∧
    (h = .cwClntHello → HelloWith s.ciphers t.s3.clientRandom body) ∧
    (h = .cwCert → CertificateWith s body)
  synced : Synced s → Synced t

theorem client_sendMessage_ok (h : (sendMessage (client lib) ans).run s = .ok u t) :
    ClientSent s t s.statem.handState := by
  obtain ⟨mt, body, s₁, dg, bf, s₃, hcon, _, hhash, hpost, ht⟩ := sendMessage_ok h
  obtain ⟨hmt, hframe, hdig, htrace, ⟨cl, hstatem⟩, hhello, hcert⟩ := clientConstructMessage_ok hcon
  obtain ⟨hframe', hstatem', htrace', hdig'⟩ := clientPostWork_ok hpost
  have hst : s₁.statem.handState = s.statem.handState := by rw [hstatem]
  rw [hst] at hframe'
  subst ht
  have hmid : ClientFrame s₁ { s₁ with
      s3.handshakeDgst := dg, s3.handshakeBuffer := bf,
      trace := s₁.trace ++ [.sent mt body] } s.statem.handState :=
    ⟨rfl, rfl, rfl, rfl, rfl, rfl, rfl, fun _ => rfl, fun _ => rfl, fun _ => rfl, fun _ _ => rfl⟩
  have hall := (hframe.trans hmid).trans hframe'
  refine ⟨⟨hall.server, hall.hit, hall.verifyMode, hall.ciphers, hall.serverRandom, hall.newCipher,
    hall.steers, hall.peer, hall.peerChain, hall.clientRandom, hall.masterKey⟩, ⟨cl, ?_⟩, ⟨body, ?_, ?_, hcert⟩, ?_⟩
  · simp only [hstatem', hstatem]
  · simp only [htrace', htrace, hmt]
  · intro hch
    have hrandom : s₃.s3.clientRandom = s₁.s3.clientRandom := by
      have hpost' : (clientPostWork lib).run { s₁ with
          s3.handshakeDgst := dg, s3.handshakeBuffer := bf,
          trace := s₁.trace ++ [.sent mt body] } = .ok () s₃ := hpost
      rw [clientPostWork, run_get_bind_ok] at hpost'
      simp only [hst, hch] at hpost'
      rw [run_pure_ok] at hpost'
      rw [← hpost'.2]
    simpa only [hrandom] using hhello hch
  · intro hsync
    have hT := Hashes.digested (s := { s₁ with
      s3.handshakeDgst := dg, s3.handshakeBuffer := bf,
      trace := s₁.trace ++ [.sent mt body] }) (hhash _ (Hashes.digested hsync hdig)) hdig'
    unfold Synced
    simpa [htrace', htrace] using hT

/-- A round of the write machine of the client. -/
inductive ClientWrote (s t : SSL X509 Pkey) : Prop where
  /-- it is the server's turn -/
  | turn (hnext : clientWriteNext s = .ok none)
      (ht : t = { s with statem.state := .reading, statem.readState := .header })
  /-- the handshake is over, or a HelloRequest is not followed -/
  | done (hst : clientWriteNext s = .ok (some .ok) ∨ s.statem.handState = .crHelloReq)
      (ht : s.Done t)
  | sent (h : HandState) (hnext : clientWriteNext s = .ok (some h)) (hne : h ≠ .ok)
      (hsent : ClientSent s t h)
  /-- a HelloRequest is followed by a new handshake -/
  | restart (hst : s.statem.handState = .crHelloReq)
      (hsent : ClientSent { s.clientSetUp with
        statem.inInit := true, statem.requestState := .swHelloReq,
        s3.renegotiate := false } t .cwClntHello)

theorem client_preWorkRound_ok
    (h : (preWorkRound (client lib) wst ans).run s = .ok u t) :
    (s.statem.handState = .ok ∧ ∃ ren cl te, t = { s with
        statem.state := .finished, statem.cleanuphand := cl, statem.inInit := false,
        renegotiate := ren, ext.ticketExpected := te }) ∨
      (s.statem.handState ≠ .ok ∧ (sendMessage (client lib) ans).run s = .ok () t) := by
  obtain ⟨wst', s₁, hpre, hrest⟩ := preWorkRound_ok h
  cases clientPreWork_ok hpre with
  | inl hok =>
    obtain ⟨hst, hwst, ren, cl, te, hs₁⟩ := hok
    subst hwst hs₁
    rcases hrest with hstop | hcont | hmore
    · exact .inl ⟨hst, ren, cl, te, hstop.2⟩
    · exact absurd hcont.1 (by simp)
    · exact absurd rfl hmore.1
  | inr hgo =>
    obtain ⟨hst, hwst, hs₁⟩ := hgo
    subst hwst hs₁
    rcases hrest with hstop | hcont | hmore
    · exact absurd hstop.1 (by simp)
    · exact .inr ⟨hst, hcont.2⟩
    · exact absurd rfl hmore.2.1

/-- A message is sent from the state that the transition led to. -/
theorem ClientSent.of_transition
    (hsent : ClientSent { s with statem.handState := h } t h) : ClientSent s t h := by
  obtain ⟨hf, ⟨cl, hstatem⟩, htrace, hsync⟩ := hsent
  exact ⟨⟨hf.server, hf.hit, hf.verifyMode, hf.ciphers, hf.serverRandom, hf.newCipher, hf.steers,
    hf.peer, hf.peerChain, hf.clientRandom, hf.masterKey⟩, ⟨cl, hstatem⟩, htrace, hsync⟩

/-- A round of the write machine: the client's turn ends, the handshake does, or
a message is sent.  There is no work that is done in parts. -/
theorem client_writeRound_cases (hserver : s.server = false)
    (hwst : s.statem.writeState = .transition)
    (h : (writeRound (client lib) ans).run s = .ok u t) :
    (clientWriteNext s = .ok none ∧
        t = { s with statem.state := .reading, statem.readState := .header }) ∨
      ((clientWriteNext s = .ok (some .ok) ∨ s.statem.handState = .crHelloReq) ∧
        s.Done t) ∨
      (∃ hs, clientWriteNext s = .ok (some hs) ∧ hs ≠ .ok ∧
        (sendMessage (client lib) ans).run { s with statem.handState := hs } = .ok () t) ∨
      (s.statem.handState = .crHelloReq ∧ (sendMessage (client lib) ans).run { s.clientSetUp with
        statem.handState := .cwClntHello, statem.inInit := true, statem.requestState := .swHelloReq,
        s3.renegotiate := false } = .ok () t) := by
  rcases writeRound_ok h with hfin | hcont | hpre
  · obtain ⟨s₁, htran, ht⟩ := hfin
    rcases clientWriteTransition_ok hserver htran with h | h | h | h
    · exact absurd h.2.1 (by simp)
    · exact absurd h.2.1 (by simp)
    · obtain ⟨_, hnext, hs₁⟩ := h
      subst hs₁
      exact .inl ⟨hnext, ht⟩
    · exact absurd h.1 (by simp)
  · obtain ⟨s₁, htran, hround⟩ := hcont
    rcases clientWriteTransition_ok hserver htran with h | h | h | h
    · obtain ⟨hst, _, hs₁⟩ := h
      subst hs₁
      cases client_preWorkRound_ok hround with
      | inl hok => exact absurd hok.1 (by simp)
      | inr hsent => exact .inr (.inr (.inr ⟨hst, hsent.2⟩))
    · obtain ⟨hst, _, hs₁⟩ := h
      subst hs₁
      cases client_preWorkRound_ok hround with
      | inl hok => exact .inr (.inl ⟨.inr hst, hok.2⟩)
      | inr hsent => exact absurd rfl hsent.1
    · exact absurd h.1 (by simp)
    · obtain ⟨_, hs, hnext, hs₁⟩ := h
      subst hs₁
      cases client_preWorkRound_ok hround with
      | inl hok =>
        obtain ⟨hst, hdone⟩ := hok
        have hs_ok : hs = .ok := hst
        subst hs_ok
        exact .inr (.inl ⟨.inl hnext, hdone⟩)
      | inr hsent => exact .inr (.inr (.inl ⟨hs, hnext, hsent⟩))
  · obtain ⟨wst, hpre, _⟩ := hpre
    rw [hwst] at hpre
    exact absurd hpre (by simp)

/-- **The write machine of the client.** -/
theorem client_writeRound_ok (hserver : s.server = false)
    (hwst : s.statem.writeState = .transition)
    (h : (writeRound (client lib) ans).run s = .ok u t) : ClientWrote s t := by
  rcases client_writeRound_cases hserver hwst h with h | h | h | h
  · exact .turn h.1 h.2
  · exact .done h.1 h.2
  · obtain ⟨hs, hnext, hne, hsend⟩ := h
    exact .sent hs hnext hne (client_sendMessage_ok hsend).of_transition
  · exact .restart h.1 (client_sendMessage_ok h.2).of_transition

end Tlcp
