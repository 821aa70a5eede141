import Tlcp.Ntls.Server

/-!
# Tlcp.Ntls.ServerSteps

What each part of the NTLS server did when it went through: one lemma per
transition function, processor and constructor, as an equation for the new
connection object where that is short, and as a list of what was left alone
(`HelloFrame`) for the processing of a ClientHello, which writes many fields.

Proofs about the server use these lemmas and never unfold the programs.
-/

namespace Tlcp

open Octets Fallible

variable {X509 Pkey : Type} {lib : Libcrypto X509 Pkey} {s t : SSL X509 Pkey}
  {ans : ServerAnswers X509} {pkt : Bytes} {u : Unit}
variable {r wst : Work} {mt : MsgType} {body : Bytes} {h : HandState} {hello : ClientHello}

/-! ## transitions -/

/-- The read transitions, by the state they lead to. -/
theorem serverReadTransition_ok
    (ht : serverReadTransition s mt = .ok h) :
    (mt = .clientHello ∧ h = .srClntHello ∧
        (s.statem.handState = .before ∨ s.statem.handState = .ok)) ∨
      (mt = .certificate ∧ h = .srCert ∧ s.statem.handState = .swSrvrDone ∧
        s.s3.tmp.certRequest = true) ∨
      (mt = .clientKeyExchange ∧ h = .srKeyExch ∧ ((s.statem.handState = .swSrvrDone ∧
            (s.s3.tmp.certRequest = false ∨ s.version = ssl3Version)) ∨
          s.statem.handState = .srCert)) ∨
      (mt = .certificateVerify ∧ h = .srCertVrfy ∧ s.statem.handState = .srKeyExch ∧
        s.session.peer.isSome) ∨
      (mt = .changeCipherSpec ∧ h = .srChange ∧ ((s.statem.handState = .srKeyExch ∧
            (s.session.peer = none ∨ s.statem.noCertVerify = true)) ∨
          s.statem.handState = .srCertVrfy ∨ s.statem.handState = .swFinished)) ∨
      (mt = .nextProto ∧ h = .srNextProto ∧ s.statem.handState = .srChange) ∨
      (mt = .finished ∧ h = .srFinished ∧
        (s.statem.handState = .srChange ∨ s.statem.handState = .srNextProto)) := by
  unfold serverReadTransition at ht
  split at ht
  all_goals grind [Option.isNone_iff_eq_none, Option.isSome_iff_ne_none]

/-- The write transitions, by the state they lead to. -/
theorem serverWriteNext_some (ht : serverWriteNext s = .ok (some h)) :
    (h = .ok ∧ (s.statem.handState = .swHelloReq ∨
        (s.statem.handState = .srClntHello ∧ s.isFirstHandshake = false) ∨
        (s.statem.handState = .srFinished ∧ s.hit = true) ∨
        (s.statem.handState = .swFinished ∧ s.hit = false))) ∨
      (h = .swSrvrHello ∧ s.statem.handState = .srClntHello) ∨
      (h = .swCert ∧ s.statem.handState = .swSrvrHello ∧ s.hit = false) ∨
      (h = .swCertStatus ∧ s.statem.handState = .swCert) ∨
      (h = .swKeyExch ∧ ((s.statem.handState = .swSrvrHello ∧ s.hit = false) ∨
        s.statem.handState = .swCert ∨ s.statem.handState = .swCertStatus)) ∨
      (h = .swCertReq ∧ s.statem.handState = .swKeyExch ∧ sendCertificateRequest s) ∨
      (h = .swSrvrDone ∧ ((s.statem.handState = .swKeyExch ∧ ¬ sendCertificateRequest s) ∨
        s.statem.handState = .swCertReq)) ∨
      (h = .swSessionTicket ∧ ((s.statem.handState = .swSrvrHello ∧ s.hit = true) ∨
        (s.statem.handState = .srFinished ∧ s.hit = false))) ∨
      (h = .swChange ∧ ((s.statem.handState = .swSrvrHello ∧ s.hit = true) ∨
        (s.statem.handState = .srFinished ∧ s.hit = false) ∨
        s.statem.handState = .swSessionTicket)) ∨
      (h = .swFinished ∧ s.statem.handState = .swChange) := by
  unfold serverWriteNext at ht
  split at ht
  all_goals grind

theorem serverWriteNext_none (ht : serverWriteNext s = .ok none) :
    s.statem.handState = .before ∨ s.statem.handState = .swSrvrDone ∨
      (s.statem.handState = .swFinished ∧ s.hit = true) := by
  unfold serverWriteNext at ht
  split at ht
  all_goals grind

theorem server_readTransition_ok
    (h : ((server lib).readTransition mt).run s = .ok u t) :
    ∃ hs, serverReadTransition s mt = .ok hs ∧ t = { s with statem.handState := hs } := by
  simp only [server] at h
  rw [run_get_bind_ok, run_lift_bind_ok] at h
  obtain ⟨hs, htran, h⟩ := h
  rw [run_modify_ok] at h
  exact ⟨hs, htran, h.symm⟩

/-! ## ClientHello -/

/-- What the processing of a ClientHello leaves alone. -/
structure HelloFrame (s t : SSL X509 Pkey) : Prop where
  server : t.server = s.server
  version : t.version = s.version
  statem : t.statem = s.statem
  certreqsSent : t.certreqsSent = s.certreqsSent
  trace : t.trace = s.trace
  dgst : t.s3.handshakeDgst = s.s3.handshakeDgst
  buffer : t.s3.handshakeBuffer = s.s3.handshakeBuffer
  certRequest : t.s3.tmp.certRequest = s.s3.tmp.certRequest
  renegotiate : t.renegotiate = s.renegotiate
  first : t.isFirstHandshake = s.isFirstHandshake

theorem HelloFrame.rfl' : HelloFrame s s := ⟨rfl, rfl, rfl, rfl, rfl, rfl, rfl, rfl, rfl, rfl⟩

theorem HelloFrame.trans {r : SSL X509 Pkey} (h : HelloFrame s r) (h' : HelloFrame r t) :
    HelloFrame s t where
  server := h'.server.trans h.server
  version := h'.version.trans h.version
  statem := h'.statem.trans h.statem
  certreqsSent := h'.certreqsSent.trans h.certreqsSent
  trace := h'.trace.trans h.trace
  dgst := h'.dgst.trans h.dgst
  buffer := h'.buffer.trans h.buffer
  certRequest := h'.certRequest.trans h.certRequest
  renegotiate := h'.renegotiate.trans h.renegotiate
  first := h'.first.trans h.first

theorem tlsProcessClientHello_ok {r : MsgProcess}
    (h : (tlsProcessClientHello ans pkt).run s = .ok r t) :
    ((r = .continueProcessing ∧ s.isFirstHandshake = true) ∨
        (r = .finishedReading ∧ s.isFirstHandshake = false)) ∧
      ∃ hello, t = { s with clienthello := hello } := by
  rw [tlsProcessClientHello, run_get_bind_ok] at h
  split at h
  · next hfirst =>
    rw [run_lift_bind_ok] at h
    obtain ⟨hello, _, h⟩ := h
    rw [run_lift_bind_ok] at h
    obtain ⟨_, _, h⟩ := h
    rw [run_modify_bind_ok, run_pure_ok] at h
    exact ⟨.inl ⟨h.1.symm, hfirst⟩, some hello, h.2.symm⟩
  · next hfirst =>
    rw [ssl3SendWarning_noRenegotiation, pure_bind, run_pure_ok] at h
    exact ⟨.inr ⟨h.1.symm, by simpa using hfirst⟩, s.clienthello, h.2.symm⟩

theorem sslGetNewSession_ok (h : (sslGetNewSession ans).run s = .ok u t) :
    ∃ session, session.peer = none ∧ session.cipher = none ∧ t = { s with session := session } := by
  rw [sslGetNewSession, run_orThrow_bind_ok] at h
  obtain ⟨sessionId, _, h⟩ := h
  rw [run_modify_ok] at h
  exact ⟨_, rfl, rfl, h.symm⟩

theorem sslGetPrevSession_ok {found : Bool} (h : (sslGetPrevSession ans).run s = .ok found t) :
    ∃ session vr te, t = { s with session := session, verifyResult := vr, ext.ticketExpected := te } := by
  rw [sslGetPrevSession, run_modify_bind_ok, run_get_bind_ok, run_lift_bind_ok] at h
  obtain ⟨o, _, h⟩ := h
  cases o with
  | none =>
    rw [run_pure_ok] at h
    exact ⟨s.session, s.verifyResult, ans.ticketExpected, h.2.symm⟩
  | some ret =>
    dsimp only at h
    split at h
    · rw [run_pure_ok] at h
      exact ⟨s.session, s.verifyResult, ans.ticketExpected, h.2.symm⟩
    · rw [run_check_bind_ok] at h
      obtain ⟨_, h⟩ := h
      split at h
      · rw [run_pure_ok] at h
        exact ⟨s.session, s.verifyResult, ans.ticketExpected, h.2.symm⟩
      · rw [run_check_bind_ok, run_modify_bind_ok, run_pure_ok] at h
        exact ⟨ret, ret.verifyResult, ans.ticketExpected, h.2.2.symm⟩

theorem chooseSession_ok (h : (chooseSession ans hello).run s = .ok u t) :
    ∃ session vr te hit, (hit = true ∨ session.peer = none) ∧ t = { s with
      session := session, verifyResult := vr, ext.ticketExpected := te, hit := hit } := by
  rw [chooseSession] at h
  split at h
  · obtain ⟨session, hpeer, _, ht⟩ := sslGetNewSession_ok h
    exact ⟨session, s.verifyResult, s.ext.ticketExpected, s.hit, .inr hpeer, ht⟩
  · obtain ⟨found, s₁, hprev, h⟩ := run_bind_ok.mp h
    obtain ⟨session, vr, te, hs₁⟩ := sslGetPrevSession_ok hprev
    subst hs₁
    split at h
    · rw [run_modify_ok] at h
      exact ⟨session, vr, te, true, .inl rfl, h.symm⟩
    · obtain ⟨session', hpeer, _, ht⟩ := sslGetNewSession_ok h
      exact ⟨session', vr, te, s.hit, .inr hpeer, ht⟩

theorem checkResumedCipher_ok
    (h : (checkResumedCipher hello).run s = .ok u t) : t = s := by
  rw [checkResumedCipher, run_get_bind_ok, run_orThrow_bind_ok] at h
  obtain ⟨c, _, h⟩ := h
  rw [run_check_ok] at h
  exact h.2.symm

/-- What the choice of a session leaves: a new one has no certificate. -/
def HelloFresh (s : SSL X509 Pkey) : Prop :=
  (s.hit = true ∨ s.session.peer = none) ∧ s.s3.serverRandom.length = ssl3RandomSize

theorem earlyPostProcess_ok
    (h : (earlyPostProcess ans hello).run s = .ok u t) :
    HelloFrame s t ∧ t.verifyMode = s.verifyMode ∧ t.s3.tmp.newCipher = s.s3.tmp.newCipher ∧
      HelloFresh t := by
  rw [earlyPostProcess, run_modify_bind_ok, run_get_bind_ok, run_lift_bind_ok] at h
  obtain ⟨_, _, h⟩ := h
  rw [run_modify_bind_ok, run_lift_bind_ok] at h
  obtain ⟨_, _, h⟩ := h
  obtain ⟨_, s₁, hsession, h⟩ := run_bind_ok.mp h
  obtain ⟨session, vr, te, hit, hfresh, hs₁⟩ := chooseSession_ok hsession
  rw [run_get_bind_ok] at h
  obtain ⟨_, s₂, hresumed, h⟩ := run_bind_ok.mp h
  have hs₂ : s₂ = s₁ := by
    cases run_onlyIf_ok.mp hresumed with
    | inl hc => exact checkResumedCipher_ok hc.2
    | inr hc => exact hc.2.symm
  rw [run_check_bind_ok, run_lift_bind_ok] at h
  obtain ⟨_, npn, _, h⟩ := h
  rw [run_modify_bind_ok, run_orThrow_bind_ok] at h
  obtain ⟨random, _, h⟩ := h
  rw [run_modify_bind_ok, run_get_bind_ok, run_check_bind_ok, run_modify_ok] at h
  obtain ⟨_, ht⟩ := h
  subst ht hs₂ hs₁
  exact ⟨⟨rfl, rfl, rfl, rfl, rfl, rfl, rfl, rfl, rfl, rfl⟩, rfl, rfl, hfresh, random.2⟩

theorem chooseCipher_ok (h : (chooseCipher ans).run s = .ok u t) :
    HelloFrame s t ∧ t.verifyMode = s.verifyMode ∧ t.hit = s.hit ∧
      ∃ c : NtlsCipher, t.s3.tmp.newCipher = some c.1 := by
  rw [chooseCipher, run_orThrow_bind_ok] at h
  obtain ⟨c, _, h⟩ := h
  rw [run_modify_bind_ok, run_lift_bind_ok] at h
  obtain ⟨sigalg, _, h⟩ := h
  rw [run_modify_ok] at h
  subst h
  exact ⟨⟨rfl, rfl, rfl, rfl, rfl, rfl, rfl, rfl, rfl, rfl⟩, rfl, rfl, c, rfl⟩

theorem tlsHandleStatusRequest_ok {a : StatusAnswer}
    (h : (tlsHandleStatusRequest a).run s = .ok u t) :
    ∃ b, t = { s with ext.statusExpected := b } := by
  unfold tlsHandleStatusRequest at h
  rw [run_modify_bind_ok] at h
  cases a with
  | noack =>
    rw [run_pure_ok] at h
    exact ⟨false, h.2.symm⟩
  | ok resp =>
    rw [run_modify_ok] at h
    exact ⟨resp, h.symm⟩
  | fatal => exact (run_throw_ok.mp h).elim

theorem tlsHandleAlpn_ok {a : AlpnAnswer} (h : (tlsHandleAlpn a).run s = .ok u t) :
    ∃ b, t = { s with s3.npnSeen := b } := by
  cases a with
  | noack =>
    rw [tlsHandleAlpn, run_pure_ok] at h
    exact ⟨s.s3.npnSeen, h.2.symm⟩
  | ok =>
    rw [tlsHandleAlpn, run_modify_ok] at h
    exact ⟨false, h.symm⟩
  | fatal => exact (run_throw_ok.mp h).elim

/-- The end of the ClientHello: the suites with `kSM2DHE` set the verify mode. -/
theorem finishClientHello_ok (h : (finishClientHello ans).run s = .ok r t) :
    r = .finishedStop ∧ HelloFrame s t ∧ t.hit = s.hit ∧ t.s3.tmp.newCipher = s.s3.tmp.newCipher ∧
      t.verifyMode = if hasBit s.mkey Mkey.kSM2DHE then verifySm2dhe else s.verifyMode := by
  rw [finishClientHello, run_modify_bind_ok] at h
  obtain ⟨_, s₁, hstatus, h⟩ := run_bind_ok.mp h
  obtain ⟨b, hs₁⟩ := tlsHandleStatusRequest_ok hstatus
  obtain ⟨_, s₂, halpn, h⟩ := run_bind_ok.mp h
  obtain ⟨b', hs₂⟩ := tlsHandleAlpn_ok halpn
  rw [run_pure_ok] at h
  obtain ⟨hr, ht⟩ := h
  subst ht hs₂ hs₁
  exact ⟨hr.symm, ⟨rfl, rfl, rfl, rfl, rfl, rfl, rfl, rfl, rfl, rfl⟩, rfl, rfl, rfl⟩

/-- Where a ClientHello leaves the cipher and the verify mode: untouched while
a callback is to be asked again, and settled otherwise. -/
def HelloChoice (s t : SSL X509 Pkey) (r : Work) : Prop :=
  ((r = .moreA ∨ r = .moreB) ∧ t.verifyMode = s.verifyMode ∧
      t.s3.tmp.newCipher = s.s3.tmp.newCipher) ∨
    (r = .finishedStop ∧
      t.verifyMode = (if hasBit t.mkey Mkey.kSM2DHE then verifySm2dhe else s.verifyMode) ∧
      (t.hit = false → ∃ c : NtlsCipher, t.s3.tmp.newCipher = some c.1))

theorem chooseRound_ok (h : (chooseRound ans).run s = .ok r t) :
    HelloFrame s t ∧ HelloChoice s t r := by
  rw [chooseRound, run_get_bind_ok] at h
  split at h
  · next hhit =>
    rw [run_modify_bind_ok] at h
    obtain ⟨hr, hframe, hhit', hcipher, hverify⟩ := finishClientHello_ok h
    subst hr
    refine ⟨⟨hframe.1, hframe.2, hframe.3, hframe.4, hframe.5, hframe.6, hframe.7, hframe.8,
      hframe.9, hframe.10⟩,
      .inr ⟨rfl, ?_, ?_⟩⟩
    · rw [hverify, SSL.mkey, SSL.mkey, hcipher]
    · intro hfalse
      rw [hhit'] at hfalse
      simp [hhit] at hfalse
  · split at h
    · exact (run_throw_ok.mp h).elim
    · rw [run_pure_ok] at h
      obtain ⟨hr, ht⟩ := h
      subst hr ht
      exact ⟨HelloFrame.rfl', .inl ⟨by simp, rfl, rfl⟩⟩
    · obtain ⟨_, s₁, hchoose, h⟩ := run_bind_ok.mp h
      obtain ⟨hframe₁, hverify₁, _, c, hc⟩ := chooseCipher_ok hchoose
      obtain ⟨hr, hframe, _, hcipher, hverify⟩ := finishClientHello_ok h
      subst hr
      refine ⟨hframe₁.trans hframe, .inr ⟨rfl, ?_, fun _ => ⟨c, by rw [hcipher, hc]⟩⟩⟩
      rw [hverify, hverify₁, SSL.mkey, SSL.mkey, hcipher]

theorem tlsPostProcessClientHello_ok (hwst : wst = .moreA ∨ wst = .moreB)
    (h : (tlsPostProcessClientHello ans wst).run s = .ok r t) :
    HelloFrame s t ∧ HelloChoice s t r := by
  cases hwst with
  | inr hB =>
    subst hB
    exact chooseRound_ok h
  | inl hA =>
    subst hA
    rw [tlsPostProcessClientHello, run_get_bind_ok, run_orThrow_bind_ok] at h
    obtain ⟨hello, _, h⟩ := h
    split at h
    · rw [run_pure_ok] at h
      obtain ⟨hr, ht⟩ := h
      subst hr ht
      exact ⟨HelloFrame.rfl', .inl ⟨by simp, rfl, rfl⟩⟩
    · exact (run_throw_ok.mp h).elim
    · obtain ⟨_, s₁, hearly, h⟩ := run_bind_ok.mp h
      obtain ⟨hframe₁, hverify₁, hcipher₁, _⟩ := earlyPostProcess_ok hearly
      obtain ⟨hframe, hchoice⟩ := chooseRound_ok h
      refine ⟨hframe₁.trans hframe, ?_⟩
      unfold HelloChoice at hchoice ⊢
      rw [← hverify₁, ← hcipher₁]
      exact hchoice

/-- The end of a ClientHello keeps what does not depend on the verify mode and
on the two extensions that it settles. -/
theorem keeps_finishClientHello {P : SSL X509 Pkey → Prop}
    (hverify : ∀ s, P s → P { s with
      verifyMode := if hasBit s.mkey Mkey.kSM2DHE then verifySm2dhe else s.verifyMode })
    (hstatus : ∀ s b, P s → P { s with ext.statusExpected := b })
    (hnpn : ∀ s b, P s → P { s with s3.npnSeen := b }) : Keeps P (finishClientHello ans) := by
  refine Keeps.bind (keeps_modify hverify) fun _ => Keeps.bind ?_ fun _ =>
    Keeps.bind ?_ fun _ => keeps_pure
  · refine Keeps.bind (keeps_modify fun s => hstatus s false) fun _ => ?_
    split
    · exact keeps_pure
    · exact keeps_modify fun s => hstatus s _
    · exact keeps_throw
  · unfold tlsHandleAlpn
    split
    · exact keeps_pure
    · exact keeps_modify fun s => hnpn s false
    · exact keeps_throw

theorem keeps_helloFresh : Keeps (HelloFresh : SSL X509 Pkey → Prop) (chooseRound ans) := by
  have hfinish : Keeps (HelloFresh : SSL X509 Pkey → Prop) (finishClientHello ans) :=
    keeps_finishClientHello (fun _ h => h) (fun _ _ h => h) fun _ _ h => h
  refine Keeps.bind keeps_get fun s => ?_
  split
  · exact Keeps.bind (keeps_modify fun _ h => h) fun _ => hfinish
  · split
    · exact keeps_throw
    · exact keeps_pure
    · exact Keeps.bind (Keeps.bind keeps_orThrow fun c => Keeps.bind (keeps_modify fun _ h => h)
        fun _ => Keeps.bind keeps_lift fun _ => keeps_modify fun _ h => h) fun _ => hfinish

/-- Once the ClientHello callback is done with, the session is chosen. -/
theorem tlsPostProcessClientHello_fresh (hwst : wst = .moreA ∨ wst = .moreB)
    (hs : wst = .moreB → HelloFresh s) (h : (tlsPostProcessClientHello ans wst).run s = .ok r t) :
    r = .moreA ∨ HelloFresh t := by
  cases hwst with
  | inr hB =>
    subst hB
    exact .inr (keeps_helloFresh.ok (hs rfl) h)
  | inl hA =>
    subst hA
    rw [tlsPostProcessClientHello, run_get_bind_ok, run_orThrow_bind_ok] at h
    obtain ⟨hello, _, h⟩ := h
    split at h
    · rw [run_pure_ok] at h
      exact .inl h.1.symm
    · exact (run_throw_ok.mp h).elim
    · obtain ⟨_, s₁, hearly, h⟩ := run_bind_ok.mp h
      obtain ⟨_, _, _, hfresh⟩ := earlyPostProcess_ok hearly
      exact .inr (keeps_helloFresh.ok hfresh h)

/-! ## the client's certificates -/

theorem verifyClientChain_ok {a : VerifyAnswer} {certs : List X509}
    (h : (verifyClientChain lib a certs).run s = .ok u t) :
    0 < a.i ∧ t = { s with
      trace := s.trace ++ [.chain certs a.i], verifyResult := a.verifyResult } := by
  obtain ⟨i, s₁, hchain, h⟩ := run_bind_ok.mp h
  rw [sslVerifyCertChain, record, run_modify_bind_ok, run_modify_bind_ok, run_pure_ok] at hchain
  obtain ⟨hi, hs₁⟩ := hchain
  subst hi hs₁
  rw [run_check_bind_ok, run_check_ok] at h
  exact ⟨h.1, h.2.2.symm⟩

/-- The checks on the certificates of the client: none at all, if the server
can do without, or two chains. -/
theorem checkClientCerts_ok {certs : List X509}
    (h : (checkClientCerts lib ans certs).run s = .ok u t) :
    (certs = [] ∧ ¬ hasBit s.mkey Mkey.kSM2DHE ∧
        ¬ (hasBit s.verifyMode Verify.peer ∧ hasBit s.verifyMode Verify.failIfNoPeerCert) ∧
        ∃ dg bf, Digested s dg bf ∧
          t = { s with s3.handshakeDgst := dg, s3.handshakeBuffer := bf }) ∨
      (2 ≤ certs.length ∧ 0 < ans.verifyEnc.i ∧ 0 < ans.verifySign.i ∧ t = { s with
          trace := s.trace ++ [.chain (pushShift certs) ans.verifyEnc.i,
            .chain certs ans.verifySign.i]
          verifyResult := ans.verifySign.verifyResult }) := by
  rw [checkClientCerts.eq_def, run_get_bind_ok] at h
  split at h
  · rw [run_check_bind_ok, run_check_bind_ok, run_onlyIf_ok] at h
    obtain ⟨hsm2dhe, hverify, h⟩ := h
    refine .inl ⟨rfl, hsm2dhe, hverify, ?_⟩
    cases h with
    | inl hbuf => exact ⟨_, _, .inr ⟨rfl, .inr rfl⟩, ssl3DigestCachedRecords_ok hbuf.2⟩
    | inr hbuf => exact ⟨_, _, .inl ⟨rfl, rfl⟩, hbuf.2.symm⟩
  · exact (run_throw_ok.mp h).elim
  · obtain ⟨_, s₁, henc, h⟩ := run_bind_ok.mp h
    obtain ⟨hi, hs₁⟩ := verifyClientChain_ok henc
    obtain ⟨hj, ht⟩ := verifyClientChain_ok h
    subst hs₁
    refine .inr ⟨by simp, hi, hj, ?_⟩
    rw [ht, unshiftPop_pushShift]
    simp

theorem tlsProcessClientCertificate_ok {r : MsgProcess}
    (h : (tlsProcessClientCertificate lib ans pkt).run s = .ok r t) :
    ∃ certs s₁, r = .continueReading ∧ parseClientCertificate lib pkt = .ok certs ∧
      (checkClientCerts lib ans certs).run s = .ok () s₁ ∧
      t = { s₁ with
        session.peer := certs.head?, session.verifyResult := s₁.verifyResult,
        session.peerChain := certs.tail } := by
  rw [tlsProcessClientCertificate, run_lift_bind_ok] at h
  obtain ⟨certs, hparse, h⟩ := h
  obtain ⟨_, s₁, hcheck, h⟩ := run_bind_ok.mp h
  rw [run_modify_bind_ok, run_pure_ok] at h
  exact ⟨certs, s₁, h.1.symm, hparse, hcheck, h.2.symm⟩

/-! ## ClientKeyExchange and NextProto -/

theorem processClientKeyExchange_ok {r : MsgProcess}
    (h : (processClientKeyExchange lib ans pkt).run s = .ok r t) :
    r = .continueProcessing ∧
      (∃ res, tlsProcessClientKeyExchange lib ans.heap s pkt = .ok res) ∧
      ∃ kex mk dg, (dg = s.s3.handshakeDgst ∨ dg = some s.transcript) ∧
        t = { s with
          s3.tmp.kex := kex, session.masterKey := mk, s3.handshakeDgst := dg } := by
  rw [processClientKeyExchange, run_get_bind_ok, run_lift_bind_ok] at h
  obtain ⟨⟨pms, kex⟩, hcke, h⟩ := h
  rw [run_modify_bind_ok] at h
  obtain ⟨_, s₁, hmaster, h⟩ := run_bind_ok.mp h
  obtain ⟨mk, dg, hdg, hs₁⟩ := sslGenerateMasterSecret_ok hmaster
  rw [run_pure_ok] at h
  obtain ⟨hr, ht⟩ := h
  subst ht
  exact ⟨hr.symm, ⟨_, hcke⟩, _, mk, dg, hdg, hs₁⟩

theorem tlsPostProcessClientKeyExchange_ok
    (h : tlsPostProcessClientKeyExchange.run s = .ok r t) :
    r = .finishedContinue ∧ t = { s with
        s3.handshakeDgst := some s.transcript
        s3.handshakeBuffer := if s.statem.noCertVerify ∨ s.session.peer.isNone then none
          else s.s3.handshakeBuffer } := by
  rw [tlsPostProcessClientKeyExchange, run_get_bind_ok] at h
  split at h
  · next hpeer =>
    obtain ⟨_, s₁, hdigest, h⟩ := run_bind_ok.mp h
    rw [run_pure_ok] at h
    rw [if_pos hpeer, ← h.2, ssl3DigestCachedRecords_ok hdigest]
    exact ⟨h.1.symm, rfl⟩
  · next hpeer =>
    rw [run_check_bind_ok] at h
    obtain ⟨_, h⟩ := h
    obtain ⟨_, s₁, hdigest, h⟩ := run_bind_ok.mp h
    rw [run_pure_ok] at h
    rw [if_neg hpeer, ← h.2, ssl3DigestCachedRecords_ok hdigest]
    exact ⟨h.1.symm, rfl⟩

theorem tlsProcessNextProto_ok {r : MsgProcess} (h : (tlsProcessNextProto pkt).run s = .ok r t) :
    r = .continueReading ∧ t = s := by
  rw [tlsProcessNextProto, run_orThrow_bind_ok] at h
  obtain ⟨_, _, h⟩ := h
  rw [run_orThrow_bind_ok] at h
  obtain ⟨_, _, h⟩ := h
  rw [run_check_bind_ok, run_pure_ok] at h
  exact ⟨h.2.1.symm, h.2.2.symm⟩

/-! ## the server's messages -/

/-- What decides which messages the server expects and sends, once the hellos
are done. -/
def SSL.serverSteers (s : SSL X509 Pkey) : Ext × Bool × Bool × Bool :=
  (s.ext, s.s3.npnSeen, s.s3.changeCipherSpec, s.renegotiate)

/-- A ServerHello body with the version and the random of the object. -/
def ServerHelloWith (s : SSL X509 Pkey) (body : Bytes) : Prop :=
  s.s3.tmp.newCipher.isSome ∧ ∃ rest, body = putUint 2 s.version ++ s.s3.serverRandom ++ rest

/-- What the construction of a message changes: the temporaries and the
session of its own, the transcript hash, and for a CertificateRequest the two
marks of the request. -/
structure ConstructFrame (s t : SSL X509 Pkey) (mt : MsgType) : Prop where
  server : t.server = s.server
  version : t.version = s.version
  statem : t.statem = s.statem
  hit : t.hit = s.hit
  verifyMode : t.verifyMode = s.verifyMode
  trace : t.trace = s.trace
  peer : t.session.peer = s.session.peer
  masterKey : t.session.masterKey = s.session.masterKey
  newCipher : t.s3.tmp.newCipher = s.s3.tmp.newCipher
  steers : t.serverSteers = s.serverSteers
  certreqsSent : t.certreqsSent = s.certreqsSent + if mt = .certificateRequest then 1 else 0
  certRequest : t.s3.tmp.certRequest = (s.s3.tmp.certRequest || decide (mt = .certificateRequest))
  hash : Digested s t.s3.handshakeDgst t.s3.handshakeBuffer
  peerFinishMd : t.s3.tmp.peerFinishMd = s.s3.tmp.peerFinishMd
  finishMd : mt = .finished ∨ s.s3.tmp.finishMd.isSome → t.s3.tmp.finishMd.isSome

theorem ConstructFrame.same (hmt : mt ≠ .certificateRequest ∧ mt ≠ .finished) :
    ConstructFrame s s mt := by
  refine ⟨rfl, rfl, rfl, rfl, rfl, rfl, rfl, rfl, rfl, rfl, ?_, ?_, .inl ⟨rfl, rfl⟩, rfl, ?_⟩ <;>
    simp [hmt]

/-- The type of the message that the server sends in a state. -/
def serverMsgType : HandState → MsgType
  | .swChange => .changeCipherSpec
  | .swHelloReq => .helloRequest
  | .swSrvrHello => .serverHello
  | .swCert => .certificate
  | .swKeyExch => .serverKeyExchange
  | .swCertReq => .certificateRequest
  | .swSrvrDone => .serverDone
  | .swSessionTicket => .newSessionTicket
  | .swCertStatus => .certificateStatus
  | _ => .finished

theorem tlsConstructServerHello_ok
    (h : (tlsConstructServerHello ans).run s = .ok body t) :
    ConstructFrame s t .serverHello ∧
      (hasBit s.verifyMode Verify.peer → t.s3.handshakeDgst = s.s3.handshakeDgst) ∧
      ServerHelloWith s body := by
  rw [tlsConstructServerHello, run_modify_bind_ok, run_get_bind_ok, run_check_bind_ok,
    run_orThrow_bind_ok] at h
  obtain ⟨_, c, hc, h⟩ := h
  rw [run_lift_bind_ok] at h
  obtain ⟨exts, _, h⟩ := h
  obtain ⟨_, s₁, hdigest, h⟩ := run_bind_ok.mp h
  rw [run_pure_ok] at h
  obtain ⟨hbody, ht⟩ := h
  have hwith : ServerHelloWith s body := by
    rw [List.append_assoc, List.append_assoc, List.append_assoc, List.append_assoc] at hbody
    exact ⟨Option.isSome_of_mem hc, _, hbody.symm⟩
  subst ht
  cases run_onlyIf_ok.mp hdigest with
  | inl hnone =>
    obtain ⟨hpeer, hd⟩ := hnone
    have hs₁ := ssl3DigestCachedRecords_ok hd
    subst hs₁
    exact ⟨⟨rfl, rfl, rfl, rfl, rfl, rfl, rfl, rfl, rfl, rfl, rfl, by simp, .inr ⟨rfl, .inr rfl⟩,
        rfl, by simp⟩,
      fun hp => absurd hp hpeer, hwith⟩
  | inr hpeer =>
    obtain ⟨_, hs₁⟩ := hpeer
    subst hs₁
    exact ⟨⟨rfl, rfl, rfl, rfl, rfl, rfl, rfl, rfl, rfl, rfl, rfl, by simp, .inl ⟨rfl, rfl⟩, rfl,
        by simp⟩,
      fun _ => rfl, hwith⟩

theorem constructServerKeyExchange_ok
    (h : (constructServerKeyExchange lib ans).run s = .ok body t) :
    ∃ kex group, t = { s with s3.tmp.kex := kex, session.kexGroup := group } := by
  rw [constructServerKeyExchange, run_get_bind_ok, run_lift_bind_ok] at h
  obtain ⟨⟨body', s'⟩, _, h⟩ := h
  rw [run_modify_bind_ok, run_pure_ok] at h
  exact ⟨_, _, h.2.symm⟩

theorem tlsConstructCertificateRequest_ok
    (h : (tlsConstructCertificateRequest ans).run s = .ok body t) :
    t = { s with certreqsSent := s.certreqsSent + 1, s3.tmp.certRequest := true } := by
  rw [tlsConstructCertificateRequest, run_orThrow_bind_ok] at h
  obtain ⟨_, _, h⟩ := h
  rw [run_orThrow_bind_ok] at h
  obtain ⟨_, _, h⟩ := h
  rw [run_modify_bind_ok, run_pure_ok] at h
  exact h.2.symm

theorem tlsConstructServerDone_ok
    (h : tlsConstructServerDone.run s = .ok body t) :
    ConstructFrame s t .serverDone ∧ (s.s3.tmp.certRequest = true → t = s) := by
  rw [tlsConstructServerDone, run_get_bind_ok] at h
  obtain ⟨_, s₁, hdigest, h⟩ := run_bind_ok.mp h
  rw [run_pure_ok] at h
  obtain ⟨_, ht⟩ := h
  subst ht
  cases run_onlyIf_ok.mp hdigest with
  | inl hnone =>
    have hs₁ := ssl3DigestCachedRecords_ok hnone.2
    subst hs₁
    exact ⟨⟨rfl, rfl, rfl, rfl, rfl, rfl, rfl, rfl, rfl, rfl, rfl, by simp, .inr ⟨rfl, .inr rfl⟩,
        rfl, by simp⟩,
      fun hreq => by simp [hnone.1] at hreq⟩
  | inr hreq =>
    obtain ⟨_, hs₁⟩ := hreq
    subst hs₁
    exact ⟨ConstructFrame.same (by simp), fun _ => rfl⟩

/-- Whether the construction of the message of a state leaves the running hash
unstarted. -/
def leavesHash (s : SSL X509 Pkey) : Prop :=
  hasBit s.verifyMode Verify.peer ∧ s.statem.handState ≠ .swFinished ∧
    (s.statem.handState = .swSrvrDone → s.s3.tmp.certRequest = true)

theorem serverConstructMessage_ok
    (h : (serverConstructMessage lib ans).run s = .ok (mt, body) t) :
    mt = serverMsgType s.statem.handState ∧ t.statem.handState = s.statem.handState ∧
      (s.server = true → ConstructFrame s t mt) ∧
      (leavesHash s → t.s3.handshakeDgst = s.s3.handshakeDgst) ∧
      (s.statem.handState = .swSrvrHello → ServerHelloWith s body) := by
  rw [serverConstructMessage, run_get_bind_ok] at h
  split at h
  · next hst =>
    obtain ⟨rfl, _, rfl⟩ := constructed_of_pure h
    exact ⟨by rw [hst]; rfl, rfl, fun _ => .same (by simp), fun _ => rfl, by simp [hst]⟩
  · next hst =>
    obtain ⟨rfl, _, rfl⟩ := constructed_of_pure h
    exact ⟨by rw [hst]; rfl, rfl, fun _ => .same (by simp), fun _ => rfl, by simp [hst]⟩
  · next hst =>
    obtain ⟨rfl, hhello⟩ := constructed_of_bind h
    obtain ⟨hframe, hhash, hwith⟩ := tlsConstructServerHello_ok hhello
    exact ⟨by rw [hst]; rfl, by rw [hframe.statem], fun _ => hframe, fun hl => hhash hl.1,
      fun _ => hwith⟩
  · next hst =>
    obtain ⟨rfl, hcert⟩ := constructed_of_bind h
    obtain ⟨_, rfl⟩ := run_lift_ok.mp hcert
    exact ⟨by rw [hst]; rfl, rfl, fun _ => .same (by simp), fun _ => rfl, by simp [hst]⟩
  · next hst =>
    obtain ⟨rfl, hske⟩ := constructed_of_bind h
    obtain ⟨kex, group, rfl⟩ := constructServerKeyExchange_ok hske
    exact ⟨by rw [hst]; rfl, rfl,
      fun _ => ⟨rfl, rfl, rfl, rfl, rfl, rfl, rfl, rfl, rfl, rfl, rfl, by simp, .inl ⟨rfl, rfl⟩,
        rfl, by simp⟩,
      fun _ => rfl, by simp [hst]⟩
  · next hst =>
    obtain ⟨rfl, hreq⟩ := constructed_of_bind h
    obtain rfl := tlsConstructCertificateRequest_ok hreq
    exact ⟨by rw [hst]; rfl, rfl,
      fun _ => ⟨rfl, rfl, rfl, rfl, rfl, rfl, rfl, rfl, rfl, rfl, rfl, by simp, .inl ⟨rfl, rfl⟩,
        rfl, by simp⟩,
      fun _ => rfl, by simp [hst]⟩
  · next hst =>
    obtain ⟨rfl, hdone⟩ := constructed_of_bind h
    obtain ⟨hframe, hhash⟩ := tlsConstructServerDone_ok hdone
    exact ⟨by rw [hst]; rfl, by rw [hframe.statem], fun _ => hframe,
      fun hl => by rw [hhash (hl.2.2 hst)], by simp [hst]⟩
  · next hst =>
    obtain ⟨rfl, hticket⟩ := constructed_of_bind h
    obtain ⟨_, rfl⟩ := run_lift_ok.mp hticket
    exact ⟨by rw [hst]; rfl, rfl, fun _ => .same (by simp), fun _ => rfl, by simp [hst]⟩
  · next hst =>
    rw [run_orThrow_bind_ok] at h
    obtain ⟨resp, _, h⟩ := h
    obtain ⟨rfl, _, rfl⟩ := constructed_of_pure h
    exact ⟨by rw [hst]; rfl, rfl, fun _ => .same (by simp), fun _ => rfl, by simp [hst]⟩
  · next hst =>
    obtain ⟨rfl, hfin⟩ := constructed_of_bind h
    obtain ⟨c, _, _, rfl⟩ := tlsConstructFinished_ok hfin
    refine ⟨by rw [hst]; rfl, rfl, fun hserver => ⟨rfl, rfl, ?_, rfl, rfl, rfl, rfl, rfl, rfl, rfl,
      rfl, by simp, .inr ⟨rfl, .inr rfl⟩, rfl, fun _ => rfl⟩, fun hl => absurd hst hl.2.1,
      by simp [hst]⟩
    simp [hserver]
  · exact (run_throw_ok.mp h).elim

/-! ## the write machine -/

theorem serverPreWork_ok (h : serverPreWork.run s = .ok r t) :
    (s.statem.handState = .ok ∧ r = .finishedStop ∧ ∃ ren cl te, t = { s with
          renegotiate := ren, statem.cleanuphand := cl, statem.inInit := false,
          ext.ticketExpected := te }) ∨
      (s.statem.handState ≠ .ok ∧ r = .finishedContinue ∧
        ∃ c, (s.statem.handState ≠ .swChange → c = s.session.cipher) ∧
          t = { s with session.cipher := c }) := by
  rw [serverPreWork, run_get_bind_ok] at h
  split at h
  · next hst =>
    rw [run_check_bind_ok, run_modify_bind_ok, run_pure_ok] at h
    exact .inr ⟨by simp [hst], h.2.1.symm, _, by simp [hst], h.2.2.symm⟩
  · next hst =>
    obtain ⟨hr, ht⟩ := tlsFinishHandshake_ok h
    exact .inl ⟨hst, hr, ht⟩
  · next hne =>
    rw [run_pure_ok] at h
    obtain ⟨hr, ht⟩ := h
    subst ht
    exact .inr ⟨hne, hr.symm, s.session.cipher, by simp, rfl⟩

theorem serverPostWork_ok (h : serverPostWork.run s = .ok u t) :
    (s.statem.handState = .swHelloReq ∧ t = { s with
        s3.handshakeBuffer := some [], s3.handshakeDgst := none, trace := [] }) ∨
      (s.statem.handState ≠ .swHelloReq ∧ t = s) := by
  rw [serverPostWork, run_get_bind_ok] at h
  split at h
  · next hst =>
    rw [ssl3InitFinishedMac, run_modify_ok] at h
    exact .inl ⟨hst, h.symm⟩
  · next hst =>
    rw [run_pure_ok] at h
    exact .inr ⟨hst, h.2.symm⟩

theorem serverWriteTransition_ok {r : WriteTran} (h : serverWriteTransition.run s = .ok r t) :
    (s.statem.handState = .ok ∧ r = .cont ∧
        t = { s with statem.handState := .swHelloReq, statem.requestState := .before }) ∨
      (s.statem.handState = .ok ∧ r = .finished ∧ tlsSetupHandshake.run s = .ok () t) ∨
      (s.statem.handState ≠ .ok ∧ r = .finished ∧ serverWriteNext s = .ok none ∧ t = s) ∨
      (s.statem.handState ≠ .ok ∧ r = .cont ∧
        ∃ hs, serverWriteNext s = .ok (some hs) ∧ t = { s with statem.handState := hs }) := by
  rw [serverWriteTransition, run_get_bind_ok] at h
  split at h
  · next hst =>
    split at h
    · rw [run_modify_bind_ok, run_pure_ok] at h
      exact .inl ⟨hst, h.1.symm, h.2.symm⟩
    · obtain ⟨_, s₁, hsetup, h⟩ := run_bind_ok.mp h
      rw [run_pure_ok] at h
      obtain ⟨hr, ht⟩ := h
      subst ht
      exact .inr (.inl ⟨hst, hr.symm, hsetup⟩)
  · next hst =>
    rw [run_lift_bind_ok] at h
    obtain ⟨o, ho, h⟩ := h
    cases o with
    | none =>
      rw [run_pure_ok] at h
      exact .inr (.inr (.inl ⟨hst, h.1.symm, ho, h.2.symm⟩))
    | some hs =>
      rw [run_modify_bind_ok, run_pure_ok] at h
      exact .inr (.inr (.inr ⟨hst, h.1.symm, hs, ho, h.2.symm⟩))

/-- What sending the message of state `h` did. -/
structure ServerSent (s t : SSL X509 Pkey) (h : HandState) : Prop where
  server : t.server = s.server
  version : t.version = s.version
  hit : t.hit = s.hit
  verifyMode : t.verifyMode = s.verifyMode
  peer : t.session.peer = s.session.peer
  masterKey : t.session.masterKey = s.session.masterKey
  newCipher : t.s3.tmp.newCipher = s.s3.tmp.newCipher
  steers : t.serverSteers = s.serverSteers
  statem : t.statem = { s.statem with handState := h, writeState := .transition }
  certreqsSent : t.certreqsSent = s.certreqsSent + if h = .swCertReq then 1 else 0
  certRequest : t.s3.tmp.certRequest = (s.s3.tmp.certRequest || decide (h = .swCertReq))
  trace : ∃ body, t.trace = s.trace ++ [.sent (serverMsgType h) body] ∧
    (h = .swSrvrHello → ServerHelloWith s body)
  synced : Synced s → Synced t
  hash : leavesHash { s with statem.handState := h } → s.s3.handshakeDgst = none →
    t.s3.handshakeDgst = none
  peerFinishMd : t.s3.tmp.peerFinishMd = s.s3.tmp.peerFinishMd
  finishMd : h = .swFinished ∨ s.s3.tmp.finishMd.isSome → t.s3.tmp.finishMd.isSome

theorem serverMsgType_eq_certificateRequest (h : HandState) :
    serverMsgType h = .certificateRequest ↔ h = .swCertReq := by
  cases h <;> simp [serverMsgType]

theorem server_sendMessage_ok (hserver : s.server = true) (hne : s.statem.handState ≠ .swHelloReq)
    (h : (sendMessage (server lib) ans).run s = .ok u t) :
    ServerSent s t s.statem.handState := by
  obtain ⟨mt, body, s₁, dg, bf, s₃, hcon, hnone, hhash, hpost, ht⟩ := sendMessage_ok h
  obtain ⟨hmt, _, hframe, hleaves, hhello⟩ := serverConstructMessage_ok hcon
  have hframe := hframe hserver
  cases serverPostWork_ok hpost with
  | inl hreq =>
    have hst : s.statem.handState = .swHelloReq := by
      rw [← hframe.statem]
      exact hreq.1
    exact absurd hst hne
  | inr hother =>
  obtain ⟨_, hs₃⟩ := hother
  subst ht hs₃
  refine ⟨hframe.server, hframe.version, hframe.hit, hframe.verifyMode, hframe.peer,
    hframe.masterKey, hframe.newCipher, hframe.steers, ?_, ?_, ?_, ⟨body, ?_, hhello⟩, ?_, ?_,
    hframe.peerFinishMd, ?_⟩
  · rw [hframe.statem]
  · simp only [hframe.certreqsSent, hmt, serverMsgType_eq_certificateRequest]
  · simp only [hframe.certRequest, hmt, serverMsgType_eq_certificateRequest]
  · rw [hframe.trace, hmt]
  · intro hsync
    have hT := hhash _ (hsync.digested hframe.hash)
    unfold Synced
    simpa [hframe.trace] using hT
  · intro hl hd
    exact hnone (by rw [hleaves hl, hd])
  · intro hfin
    refine hframe.finishMd (hfin.imp_left ?_)
    intro hst
    rw [hmt, hst]
    rfl

theorem server_sendHelloRequest_ok (hst : s.statem.handState = .swHelloReq)
    (h : (sendMessage (server lib) ans).run s = .ok u t) :
    t = { s with
      s3.handshakeBuffer := some [], s3.handshakeDgst := none, trace := [],
      statem.writeState := .transition } := by
  obtain ⟨mt, body, s₁, dg, bf, s₃, hcon, _, _, hpost, ht⟩ := sendMessage_ok h
  have hcon' : mt = .helloRequest ∧ s₁ = s := by
    have hcon' : (serverConstructMessage lib ans).run s = .ok (mt, body) s₁ := hcon
    rw [serverConstructMessage, run_get_bind_ok, hst] at hcon'
    obtain ⟨hmt, hs₁⟩ := run_pure_ok.mp hcon'
    injection hmt with hmt _
    exact ⟨hmt.symm, hs₁.symm⟩
  obtain ⟨hmt, hs₁⟩ := hcon'
  subst hmt hs₁
  cases serverPostWork_ok hpost with
  | inl hreq => rw [ht, hreq.2]
  | inr hother => exact absurd hst hother.1

/-- A round of the write machine, by what it did. -/
inductive ServerWrote (s t : SSL X509 Pkey) : Prop where
  /-- the next handshake was set up, and the server waits for a ClientHello -/
  | setup (hst : s.statem.handState = .ok)
      (ht : t = { s with
        s3.handshakeBuffer := some [], s3.handshakeDgst := none,
        s3.tmp.certRequest := s.isFirstHandshake && s.s3.tmp.certRequest, trace := [],
        statem.state := .reading, statem.readState := .header })
  /-- a HelloRequest was sent, which starts the transcript over -/
  | request (hst : s.statem.handState = .ok)
      (ht : t = { s with
        s3.handshakeBuffer := some [], s3.handshakeDgst := none, trace := [],
        statem.handState := .swHelloReq, statem.requestState := .before,
        statem.writeState := .transition })
  /-- it is the client's turn -/
  | turn (hnext : serverWriteNext s = .ok none)
      (ht : t = { s with statem.state := .reading, statem.readState := .header })
  /-- the handshake is over -/
  | done (hnext : serverWriteNext s = .ok (some .ok))
      (ht : s.Done t)
  /-- the message of state `h` was sent -/
  | sent (h : HandState) (hnext : serverWriteNext s = .ok (some h)) (hne : h ≠ .ok)
      (hsent : ServerSent s t h)

theorem server_preWorkRound_ok
    (hround : (preWorkRound (server lib) wst ans).run { s with statem.handState := h } = .ok u t) :
    (h = .ok ∧ s.Done t) ∨
      (h ≠ .ok ∧ ∃ c, (h ≠ .swChange → c = s.session.cipher) ∧ (sendMessage (server lib) ans).run
        { s with statem.handState := h, session.cipher := c } = .ok () t) := by
  obtain ⟨wst', s₁, hpre, hrest⟩ := preWorkRound_ok hround
  cases serverPreWork_ok hpre with
  | inl hdone =>
    obtain ⟨hok, hwst, ren, cl, te, hs₁⟩ := hdone
    have hok : h = .ok := hok
    subst hwst hs₁ hok
    rcases hrest with hstop | hcont | hmore
    · exact .inl ⟨rfl, ren, cl, te, hstop.2⟩
    · exact absurd hcont.1 (by simp)
    · exact absurd rfl hmore.1
  | inr hother =>
    obtain ⟨hne, hwst, c, hc, hs₁⟩ := hother
    subst hwst hs₁
    rcases hrest with hstop | hcont | hmore
    · exact absurd hstop.1 (by simp)
    · exact .inr ⟨hne, c, hc, hcont.2⟩
    · exact absurd rfl hmore.2.1

/-- A round of the write machine behind a transition: the client's turn comes, the
handshake ends, or a message is sent. -/
theorem server_writeRound_cases (hws : s.statem.writeState = .transition)
    (hok : s.statem.handState ≠ .ok) (h : (writeRound (server lib) ans).run s = .ok u t) :
    (serverWriteNext s = .ok none ∧
        t = { s with statem.state := .reading, statem.readState := .header }) ∨
      (serverWriteNext s = .ok (some .ok) ∧ s.Done t) ∨
      ∃ hs c, serverWriteNext s = .ok (some hs) ∧ hs ≠ .ok ∧ (sendMessage (server lib) ans).run
          { s with statem.handState := hs, session.cipher := c } = .ok () t := by
  rcases writeRound_ok h with hfin | hcont | hpre
  · obtain ⟨s₁, htran, ht⟩ := hfin
    rcases serverWriteTransition_ok htran with h | h | h | h
    · exact absurd h.1 hok
    · exact absurd h.1 hok
    · obtain ⟨_, _, hnext, hs₁⟩ := h
      exact .inl ⟨hnext, by rw [ht, hs₁]⟩
    · exact absurd h.2.1 (by simp)
  · obtain ⟨s₁, htran, hround⟩ := hcont
    rcases serverWriteTransition_ok htran with h | h | h | h
    · exact absurd h.1 hok
    · exact absurd h.1 hok
    · exact absurd h.2.1 (by simp)
    · obtain ⟨_, _, hs, hnext, hs₁⟩ := h
      subst hs₁
      cases server_preWorkRound_ok hround with
      | inl hdone => exact .inr (.inl ⟨hdone.1 ▸ hnext, hdone.2⟩)
      | inr hsent =>
        obtain ⟨hne, c, _, hsend⟩ := hsent
        exact .inr (.inr ⟨hs, c, hnext, hne, hsend⟩)
  · obtain ⟨wst, hpre, _⟩ := hpre
    simp [hws] at hpre

/-- **The write machine of the server.** -/
theorem server_writeRound_ok (hserver : s.server = true)
    (hws : s.statem.writeState = .transition)
    (h : (writeRound (server lib) ans).run s = .ok u t) : ServerWrote s t := by
  by_cases hst : s.statem.handState = .ok
  · rcases writeRound_ok h with hfin | hcont | hpre
    · obtain ⟨s₁, htran, ht⟩ := hfin
      rcases serverWriteTransition_ok htran with h | h | h | h
      · simp at h
      · have hs₁ := tlsSetupHandshake_server hserver h.2.2
        exact .setup hst (by rw [ht, hs₁])
      · exact absurd hst h.1
      · simp at h
    · obtain ⟨s₁, htran, hround⟩ := hcont
      rcases serverWriteTransition_ok htran with h | h | h | h
      · obtain ⟨_, _, hs₁⟩ := h
        subst hs₁
        cases server_preWorkRound_ok (s := { s with statem.requestState := .before }) hround with
        | inl hdone => exact absurd hdone.1 (by simp)
        | inr hsent =>
          obtain ⟨_, c, hc, hsend⟩ := hsent
          rw [hc (by simp)] at hsend
          exact .request hst (server_sendHelloRequest_ok rfl hsend)
      · simp at h
      · simp at h
      · exact absurd hst h.1
    · obtain ⟨wst, hpre, _⟩ := hpre
      simp [hws] at hpre
  · rcases server_writeRound_cases hws hst h with h | h | h
    · exact .turn h.1 h.2
    · exact .done h.1 h.2
    · obtain ⟨hs, c, hnext, hne, hsend⟩ := h
      have hreq : hs ≠ .swHelloReq := by
        have := serverWriteNext_some hnext
        grind
      have H := server_sendMessage_ok (s := { s with statem.handState := hs, session.cipher := c })
        hserver hreq hsend
      exact .sent hs hnext hne ⟨H.server, H.version, H.hit, H.verifyMode, H.peer, H.masterKey,
        H.newCipher, H.steers, H.statem, H.certreqsSent, H.certRequest, H.trace, H.synced, H.hash,
        H.peerFinishMd, H.finishMd⟩

/-! ## the read machine -/

/-- A message of the client that was accepted, by its type.  `dg` and `bf` are
the running hash and the buffer with the message in them. -/
inductive ServerRead (lib : Libcrypto X509 Pkey) (s t : SSL X509 Pkey) :
    MsgType → Bytes → Prop where
  | hello (body : Bytes) (dg bf : Option Bytes) (ch : Option ClientHello) (ret : MsgProcess)
      (hst : s.statem.handState = .before ∨ s.statem.handState = .ok)
      (hret : (ret = .continueProcessing ∧ s.isFirstHandshake = true) ∨
        (ret = .finishedReading ∧ s.isFirstHandshake = false))
      (hfed : Fed s (handshakeBytes .clientHello body) dg bf)
      (ht : t = SSL.afterProcess ret { s with
        statem.handState := .srClntHello, s3.handshakeDgst := dg, s3.handshakeBuffer := bf,
        clienthello := ch, trace := s.trace ++ [.accepted .clientHello body] }) :
      ServerRead lib s t .clientHello body
  /-- an empty list, where the server can do without -/
  | noCertificate (body : Bytes) (dg bf : Option Bytes) (hst : s.statem.handState = .swSrvrDone)
      (hverify : ¬ (hasBit s.verifyMode Verify.peer ∧ hasBit s.verifyMode Verify.failIfNoPeerCert))
      (hsm2dhe : ¬ hasBit s.mkey Mkey.kSM2DHE)
      (hparse : parseClientCertificate lib body = .ok [])
      (hhash : Synced s → Hashes dg bf
        (transcriptOf s.trace ++ handshakeBytes .certificate body))
      (ht : ∃ vr, t = { s with
        statem.handState := .srCert, statem.readState := .header, s3.handshakeDgst := dg,
        s3.handshakeBuffer := bf, session.peer := none, session.verifyResult := vr,
        session.peerChain := [], trace := s.trace ++ [.accepted .certificate body] }) :
      ServerRead lib s t .certificate body
  | certificate (body : Bytes) (certs : List X509) (i j : Int) (dg bf : Option Bytes)
      (hst : s.statem.handState = .swSrvrDone)
      (hparse : parseClientCertificate lib body = .ok certs) (hlen : 2 ≤ certs.length)
      (hi : 0 < i) (hj : 0 < j) (hfed : Fed s (handshakeBytes .certificate body) dg bf)
      (ht : ∃ vr, t = { s with
        statem.handState := .srCert
        statem.readState := .header
        s3.handshakeDgst := dg
        s3.handshakeBuffer := bf
        verifyResult := vr
        session.peer := certs.head?
        session.verifyResult := vr
        session.peerChain := certs.tail
        trace := s.trace ++ [.chain (pushShift certs) i, .chain certs j,
          .accepted .certificate body] }) :
      ServerRead lib s t .certificate body
  | keyExchange (body : Bytes) (dg dg' bf : Option Bytes)
      (hst : (s.statem.handState = .swSrvrDone ∧
          (s.s3.tmp.certRequest = false ∨ s.version = ssl3Version)) ∨
        s.statem.handState = .srCert)
      (hfed : Fed s (handshakeBytes .clientKeyExchange body) dg bf)
      (hhash : Hashes dg bf (transcriptOf s.trace ++ handshakeBytes .clientKeyExchange body) →
        Hashes dg' bf (transcriptOf s.trace ++ handshakeBytes .clientKeyExchange body))
      (ht : ∃ kex mk, t = { s with
        statem.handState := .srKeyExch, statem.readState := .postProcess .moreA,
        s3.handshakeDgst := dg', s3.handshakeBuffer := bf, s3.tmp.kex := kex,
        session.masterKey := mk, trace := s.trace ++ [.accepted .clientKeyExchange body] })
      (hcke : ∃ heap s' res, s'.mkey = s.mkey ∧
        tlsProcessClientKeyExchange lib heap s' body = .ok res) :
      ServerRead lib s t .clientKeyExchange body
  | certVerify (body : Bytes) (peer : X509) (dg bf : Option Bytes)
      (hst : s.statem.handState = .srKeyExch) (hpeer : s.session.peer = some peer)
      (hsigned : SignedBy lib peer body (bf.getD []))
      (hfed : Fed s (handshakeBytes .certificateVerify body) dg bf)
      (ht : ∃ lu, t = { s with
        statem.handState := .srCertVrfy, statem.readState := .header, s3.handshakeDgst := dg,
        s3.handshakeBuffer := none, s3.tmp.peerSigalg := some lu,
        trace := s.trace ++ [.accepted .certificateVerify body] }) :
      ServerRead lib s t .certificateVerify body
  | change
      (hst : (s.statem.handState = .srKeyExch ∧
          (s.session.peer = none ∨ s.statem.noCertVerify = true)) ∨
        s.statem.handState = .srCertVrfy ∨ s.statem.handState = .swFinished)
      (ht : t = { s with
        statem.handState := .srChange, statem.readState := .header, s3.changeCipherSpec := true,
        trace := s.trace ++ [.accepted .changeCipherSpec []] }) :
      ServerRead lib s t .changeCipherSpec []
  | nextProto (body : Bytes) (dg bf : Option Bytes) (hst : s.statem.handState = .srChange)
      (hfed : Fed s (handshakeBytes .nextProto body) dg bf)
      (ht : t = { s with
        statem.handState := .srNextProto, statem.readState := .header, s3.handshakeDgst := dg,
        s3.handshakeBuffer := bf, trace := s.trace ++ [.accepted .nextProto body] }) :
      ServerRead lib s t .nextProto body
  | finished (body : Bytes) (c : SslCipher)
      (hst : s.statem.handState = .srChange ∨ s.statem.handState = .srNextProto)
      (hc : s.s3.tmp.newCipher = some c)
      (hmac : body = finishMac lib c.handshakeMac s.session.masterKey (finishedLabel (!s.server))
        s.transcript)
      (ht : ∃ cl, t = { s with
        statem.handState := .srFinished, statem.state := .writing, statem.writeState := .transition,
        statem.cleanuphand := cl,
        s3.handshakeDgst := some (s.transcript ++ handshakeBytes .finished body),
        s3.handshakeBuffer := none, s3.changeCipherSpec := false, s3.tmp.peerFinishMd := some body,
        trace := s.trace ++ [.accepted .finished body] }) :
      ServerRead lib s t .finished body

/-- **The read machine of the server.** -/
theorem server_readMessage_ok
    (h : (readMessage lib (server lib) mt pkt ans).run s = .ok u t) :
    ServerRead lib s t mt pkt := by
  obtain ⟨s₁, s₂, ret, s₃, htran, hbody, hproc, ht⟩ := readMessage_ok h
  obtain ⟨hs, hnext, hs₁⟩ := server_readTransition_ok htran
  subst hs₁
  have hproc' : (serverProcessMessage lib ans pkt).run s₂ = .ok ret s₃ := hproc
  rw [serverProcessMessage, run_get_bind_ok] at hproc'
  rcases serverReadTransition_ok hnext with h | h | h | h | h | h | h
  · obtain ⟨hmt, hhs, hst⟩ := h
    subst hmt hhs
    obtain ⟨dg, bf, hfed, hs₂⟩ := fed_of_read (by simp) hbody
    subst hs₂
    obtain ⟨hret, ch, hs₃⟩ := tlsProcessClientHello_ok hproc'
    subst hs₃
    exact .hello pkt dg bf ch ret hst hret hfed ht
  · obtain ⟨hmt, hhs, hst, _⟩ := h
    subst hmt hhs
    obtain ⟨dg, bf, hfed, hs₂⟩ := fed_of_read (by simp) hbody
    subst hs₂
    obtain ⟨certs, s', hret, hparse, hcheck, hs₃⟩ := tlsProcessClientCertificate_ok hproc'
    subst hret hs₃
    cases checkClientCerts_ok hcheck with
    | inl hnone =>
      obtain ⟨hcerts, hsm2dhe, hverify, dg', bf', hdig, hs'⟩ := hnone
      subst hcerts hs'
      refine .noCertificate pkt dg' bf' hst hverify hsm2dhe hparse ?_ ⟨_, ht⟩
      intro hsync
      exact Hashes.digested (hfed.hashes _ hsync) hdig
    | inr htwo =>
      obtain ⟨hlen, hi, hj, hs'⟩ := htwo
      subst hs'
      refine .certificate pkt certs _ _ dg bf hst hparse hlen hi hj hfed
        ⟨ans.verifySign.verifyResult, ?_⟩
      rw [ht]
      simp only [List.append_assoc]
      rfl
  · obtain ⟨hmt, hhs, hst⟩ := h
    subst hmt hhs
    obtain ⟨dg, bf, hfed, hs₂⟩ := fed_of_read (by simp) hbody
    subst hs₂
    obtain ⟨hret, ⟨res, hcke⟩, kex, mk, dg', hdg', hs₃⟩ := processClientKeyExchange_ok hproc'
    subst hret hs₃
    refine .keyExchange pkt dg dg' bf hst hfed ?_ ⟨kex, mk, ht⟩ ⟨ans.heap, _, res, rfl, hcke⟩
    intro hhash
    cases hdg' with
    | inl hsame => rw [hsame]; exact hhash
    | inr hdone => exact Hashes.digested hhash (.inr ⟨hdone, .inl rfl⟩)
  · obtain ⟨hmt, hhs, hst, _⟩ := h
    subst hmt hhs
    obtain ⟨dg, bf, hfed, hs₂⟩ := fed_of_read (by simp) hbody
    subst hs₂
    obtain ⟨peer, lu, hret, hpeer, hsigned, hs₃⟩ := tlsProcessCertVerify_ok hproc'
    subst hret hs₃
    exact .certVerify pkt peer dg bf hst hpeer hsigned hfed ⟨lu, ht⟩
  · obtain ⟨hmt, hhs, hst⟩ := h
    subst hmt hhs
    have hs₂ := tlsGetMessageBody_changeCipherSpec hbody
    subst hs₂
    obtain ⟨hret, hpkt, hs₃⟩ := tlsProcessChangeCipherSpec_ok hproc'
    subst hret hpkt hs₃
    exact .change hst ht
  · obtain ⟨hmt, hhs, hst⟩ := h
    subst hmt hhs
    obtain ⟨dg, bf, hfed, hs₂⟩ := fed_of_read (by simp) hbody
    subst hs₂
    obtain ⟨hret, hs₃⟩ := tlsProcessNextProto_ok hproc'
    subst hret hs₃
    exact .nextProto pkt dg bf hst hfed ht
  · obtain ⟨hmt, hhs, hst⟩ := h
    subst hmt hhs
    obtain ⟨c, hc, hs₂⟩ := tlsGetMessageBody_finished hbody
    subst hs₂
    obtain ⟨hret, hpkt, hs₃⟩ := tlsProcessFinished_ok hproc'
    subst hret hs₃
    have hmac : pkt = finishMac lib c.handshakeMac s.session.masterKey (finishedLabel (!s.server))
        s.transcript := hpkt
    refine .finished pkt c hst hc hmac ⟨s.server || s.statem.cleanuphand, ?_⟩
    rw [ht, hmac]
    rfl

/-- A round of post-processing, by the message it was about. -/
inductive ServerPosted (s t : SSL X509 Pkey) : Prop where
  | hello (r : Work) (s₁ : SSL X509 Pkey) (hst : s.statem.handState = .srClntHello)
      (hframe : HelloFrame s s₁) (hchoice : HelloChoice s s₁ r) (ht : t = SSL.afterWork r s₁)
  | keyExchange (hst : s.statem.handState = .srKeyExch)
      (ht : t = { s with
        statem.readState := .header
        s3.handshakeDgst := some s.transcript
        s3.handshakeBuffer := if s.statem.noCertVerify ∨ s.session.peer.isNone then none
          else s.s3.handshakeBuffer })

theorem server_postProcessRound_ok (hwst : wst = .moreA ∨ wst = .moreB)
    (h : (postProcessRound (server lib) wst ans).run s = .ok u t) : ServerPosted s t := by
  obtain ⟨r, s₁, hpost, ht⟩ := postProcessRound_ok h
  have hpost' : (serverPostProcess ans wst).run s = .ok r s₁ := hpost
  rw [serverPostProcess, run_get_bind_ok] at hpost'
  split at hpost'
  · next hst =>
    obtain ⟨hframe, hchoice⟩ := tlsPostProcessClientHello_ok hwst hpost'
    exact .hello r s₁ hst hframe hchoice ht
  · next hst =>
    obtain ⟨hr, hs₁⟩ := tlsPostProcessClientKeyExchange_ok hpost'
    subst hr
    exact .keyExchange hst (by rw [ht, hs₁]; rfl)
  · exact (run_throw_ok.mp hpost').elim

/-! ## the verify mode -/

/-- The server replaces the verify mode by `verifySm2dhe` or leaves it alone. -/
theorem server_keepsMode (lib : Libcrypto X509 Pkey) {p : Nat → Prop}
    (hp : p verifySm2dhe) : (server lib).KeepsMode p := by
  have hfinish : ∀ ans, Keeps (fun s : SSL X509 Pkey => p s.verifyMode) (finishClientHello ans) := by
    refine fun ans => keeps_finishClientHello (fun s h => ?_) (fun _ _ h => h) fun _ _ h => h
    dsimp only
    split
    · exact hp
    · exact h
  constructor
  all_goals
    intros
    simp only [server, serverProcessMessage, tlsProcessClientHello, tlsProcessClientCertificate,
      checkClientCerts.eq_def, verifyClientChain, sslVerifyCertChain, record,
      processClientKeyExchange, sslGenerateMasterSecret, tls1GenerateMasterSecret,
      tlsProcessCertVerify, tlsProcessNextProto, tlsProcessChangeCipherSpec, tlsProcessFinished,
      serverPostProcess, tlsPostProcessClientHello.eq_def, earlyPostProcess, chooseSession,
      sslGetNewSession, sslGetPrevSession, checkResumedCipher, chooseRound, chooseCipher,
      tlsPostProcessClientKeyExchange, serverWriteTransition, serverPreWork, tlsFinishHandshake,
      serverConstructMessage, tlsConstructServerHello, constructServerKeyExchange,
      tlsConstructCertificateRequest, tlsConstructServerDone, tlsConstructFinished,
      serverPostWork, ssl3InitFinishedMac, sslFatal]
    -- each rule follows the shape of the program; only `finishClientHello` writes the mode
    repeat' first
      | with_reducible apply Keeps.bind
      | with_reducible apply Keeps.ite
      | with_reducible apply Keeps.onlyIf
      | with_reducible exact keeps_pure
      | with_reducible exact keeps_get
      | with_reducible exact keeps_throw
      | with_reducible exact keeps_check
      | with_reducible exact keeps_lift
      | with_reducible exact keeps_orThrow
      | with_reducible exact keeps_ssl3DigestCachedRecords ignoresTranscript_mode
      | with_reducible exact keeps_finalFinishMac ignoresTranscript_mode
      | with_reducible exact keeps_tlsSetupHandshake
      | with_reducible exact hfinish _
      | exact keeps_modify fun _ h => h
      | intro _
      | split

end Tlcp
