import Tlcp.Ntls.Within
import Tlcp.Ntls.Compose

/-!
# Tlcp.Ntls.ClientCerts

The client's answer to a CertificateRequest: its Certificate message, and
whether a CertificateVerify follows.

The two are decided in different places.  `cert_req` says whether the client
will sign, and is set while the request is processed, from the key that the
client has at hand; the list of the Certificate message is put together later
and stays empty unless the signing and the encryption certificate are both
there.  `certVerify_follows_iff` says when the two agree.
-/

namespace Tlcp

open Octets Fallible

variable {X509 Pkey : Type} {lib : Libcrypto X509 Pkey} {s t : SSL X509 Pkey}
  {ans : ClientAnswers X509 Pkey} {mt : MsgType} {body : Bytes}

/-! ## cert_req in every run -/

/-- `cert_req` has one of its three values, and signing is never skipped. -/
structure CertReqKnown (s : SSL X509 Pkey) : Prop where
  certReq : s.s3.tmp.certReq ≤ 2
  verifies : s.s3.skipCertVerify = false

theorem CertReqKnown.of_steers (hs : CertReqKnown s) (h : t.clientSteers = s.clientSteers) :
    CertReqKnown t := by
  simp only [SSL.clientSteers, Prod.mk.injEq] at h
  obtain ⟨_, _, hreq, hskip, _⟩ := h
  exact ⟨hreq ▸ hs.certReq, hskip.trans hs.verifies⟩

theorem CertReqKnown.read (hs : CertReqKnown s) (h : ClientRead lib s t mt body) :
    CertReqKnown t := by
  cases h with
  | hello _ _ _ _ _ _ _ _ _ _ ht =>
    obtain ⟨_, _, _, _, _, ht⟩ := ht
    subst ht
    exact ⟨hs.certReq, hs.verifies⟩
  | keyExchange _ _ _ _ _ _ ht | ticket _ _ _ _ _ ht =>
    obtain ⟨_, _, _, ht⟩ := ht
    subst ht
    exact ⟨hs.certReq, hs.verifies⟩
  | request _ _ _ _ _ ht =>
    subst ht
    exact ⟨by simp, hs.verifies⟩
  | certificate _ _ _ _ _ _ _ _ ht | status _ _ _ _ _ ht | done _ _ _ _ ht | change _ _ ht =>
    subst ht
    exact ⟨hs.certReq, hs.verifies⟩
  | finished _ _ _ _ _ ht =>
    obtain ⟨_, ht⟩ := ht
    subst ht
    exact ⟨hs.certReq, hs.verifies⟩
  | helloRequest _ _ _ _ _ ht =>
    obtain ⟨_, _, ht⟩ := ht
    subst ht
    exact ⟨hs.certReq, hs.verifies⟩

theorem CertReqKnown.posted (hs : CertReqKnown s) (h : ClientPosted lib ans s t) : CertReqKnown t := by
  have hwork : ∀ r (s₁ : SSL X509 Pkey), CertReqKnown s₁ → CertReqKnown (SSL.afterWork r s₁) := by
    intro r s₁ hs₁
    cases r <;> exact ⟨hs₁.certReq, hs₁.verifies⟩
  cases h with
  | certs r s₁ _ hchecked ht =>
    subst ht
    apply hwork
    cases hchecked with
    | retryEnc _ _ _ ht | retrySign _ ht | adopted _ _ ht | unverified _ _ _ ht =>
      obtain ⟨_, ht⟩ := ht
      subst ht
      exact ⟨hs.certReq, hs.verifies⟩
  | request r s₁ _ _ hprep ht =>
    obtain ⟨_, _, req, _, _, _, hreq, hs₁⟩ := hprep
    subst ht hs₁
    refine hwork _ _ ⟨?_, hs.verifies⟩
    cases hreq with
    | inl hsame => exact hsame ▸ hs.certReq
    | inr htwo => exact Nat.le_of_eq htwo

theorem CertReqKnown.wrote (hs : CertReqKnown s) (h : ClientWrote s t) : CertReqKnown t := by
  cases h with
  | turn _ ht =>
    subst ht
    exact ⟨hs.certReq, hs.verifies⟩
  | done _ ht =>
    obtain ⟨_, _, _, ht⟩ := ht
    subst ht
    exact ⟨hs.certReq, hs.verifies⟩
  | sent _ _ _ hsent => exact hs.of_steers hsent.frame.steers
  | restart _ hsent =>
    refine CertReqKnown.of_steers ?_ hsent.frame.steers
    exact ⟨Nat.zero_le 2, hs.verifies⟩

theorem client_certReqKnown (lib : Libcrypto X509 Pkey) :
    (client lib).Leads lib anyEvent (fun s => ClientInv s ∧ CertReqKnown s)
      fun _ => CertReqKnown where
  fresh s t h := by
    obtain ⟨_, _, _, _, _, _, _, _, _, hsteers⟩ := enterFresh_client h
    simp only [SSL.clientSteers, Prod.mk.injEq] at hsteers
    exact ⟨by simp [hsteers], hsteers.2.2.2.1⟩
  again s t hs _ h := by
    cases enterAgain_client h with
    | inl ht =>
      subst ht
      exact ⟨hs.2.certReq, hs.2.verifies⟩
    | inr ht =>
      obtain ⟨ht, _⟩ := ht
      subst ht
      exact ⟨by simp, hs.2.verifies⟩
  quiet s r p i q hs _ _ := ⟨hs.2.certReq, hs.2.verifies⟩
  recv s mt body ans t hs _ _ _ h := hs.2.read (client_readMessage_ok h)
  post s wst ans t hs _ _ _ h := hs.2.posted (client_postProcessRound_ok h)
  write s ans t hs _ h := hs.2.wrote (client_writeRound_ok hs.1.client hs.1.writeState h)

/-! ## the Certificate message -/

/-- The client has both certificates that its signature algorithm is for. -/
def hasBothCerts (s : SSL X509 Pkey) : Prop :=
  ∃ sa a k, s.s3.tmp.sigalg = some sa ∧ (sa.slots s.cert).1.x509 = some a ∧
    (sa.slots s.cert).2.x509 = some k

/-- The list of the Certificate message is empty unless both certificates are
there. -/
theorem tlsConstructClientCertificate_empty
    (h : tlsConstructClientCertificate lib ans s = .ok body) (hno : ¬ hasBothCerts s) :
    body = [0, 0, 0] := by
  have hempty : ∀ {certs : Bytes}, certs = [] →
      orFatal .internalError .internalError (putPrefixed 3 certs) = .ok body → body = [0, 0, 0] := by
    intro certs hcerts hput
    have hnil : putPrefixed 3 [] = some [0, 0, 0] := by decide
    rw [orFatal_eq_ok, hcerts, hnil] at hput
    injection hput with hput
    exact hput.symm
  unfold tlsConstructClientCertificate at h
  split at h
  · next sa hsa =>
    split at h
    · exact hempty rfl h
    · obtain ⟨certs, hcerts, hput⟩ := except_bind_ok.mp h
      refine hempty ?_ hput
      simp only [sslAddCertChain] at hcerts
      split at hcerts
      · next a k ha hk => exact absurd ⟨sa, a, k, hsa, ha, hk⟩ hno
      · injection hcerts with hcerts
        exact hcerts.symm
  · exact hempty rfl h

theorem client_sendsCertificate {u : Unit} (hst : s.statem.handState = .cwCert)
    (h : (sendMessage (client lib) ans).run s = .ok u t) :
    ∃ body, tlsConstructClientCertificate lib ans s = .ok body ∧
      t.trace = s.trace ++ [.sent .certificate body] := by
  obtain ⟨mt, body, s₁, dg, bf, s₃, hcon, _, _, hpost, ht⟩ := sendMessage_ok h
  obtain ⟨_, _, htrace, _⟩ := clientPostWork_ok hpost
  have hcon' : (clientConstructMessage lib ans).run s = .ok (mt, body) s₁ := hcon
  rw [clientConstructMessage, run_get_bind_ok, hst] at hcon'
  dsimp only at hcon'
  rw [run_lift_bind_ok] at hcon'
  obtain ⟨body', hbody', hcon'⟩ := hcon'
  obtain ⟨hmt, hbody, hs₁⟩ := constructed_of_pure hcon'
  subst hmt hbody hs₁ ht
  exact ⟨body, hbody', htrace⟩

/-- What a round of the write machine sends is what the transition says. -/
theorem client_sends (hs : HandState) (hinv : ClientInv s) (hreq : s.statem.handState ≠ .crHelloReq)
    (hnext : clientWriteNext s = .ok (some hs)) (hne : hs ≠ .ok)
    (h : step lib (client lib) s (.write ans) = some t) (hlive : t.live) :
    (sendMessage (client lib) ans).run { s with statem.handState := hs } = .ok () t := by
  obtain ⟨_, hround⟩ := step_write h hlive
  rcases client_writeRound_sends hinv.client hinv.writeState hreq hround with hturn | hdone | hsent
  · rw [hturn.1] at hnext
    simp at hnext
  · rw [hdone.1] at hnext
    simp only [Except.ok.injEq, Option.some.injEq] at hnext
    exact absurd hnext.symm hne
  · obtain ⟨hs', hnext', _, hsend⟩ := hsent
    rw [hnext'] at hnext
    simp only [Except.ok.injEq, Option.some.injEq] at hnext
    subst hnext
    exact hsend

/-! ## the client's flight -/

/-- **CertificateVerify and Certificate.**  Asked for a certificate, the client
sends a Certificate, a ClientKeyExchange and then a CertificateVerify or the
ChangeCipherSpec.  A CertificateVerify follows exactly the lists that are not
empty if and only if a client that is going to sign has both certificates of the
suite. -/
theorem certVerify_follows_iff {s₀ : SSL X509 Pkey}
    {es : List (Event (ClientAnswers X509 Pkey))} {a₁ a₂ a₃ : ClientAnswers X509 Pkey}
    (hs₀ : s₀.inBefore) (hrun : Run.run (step lib (client lib)) s₀ es = some s)
    (hhand : s.statem.handState = .crSrvrDone) (hreq : s.s3.tmp.certReq ≠ 0)
    (hflight : Run.run (step lib (client lib)) s [.write a₁, .write a₂, .write a₃] = some t)
    (hlive : t.live) :
    ∃ b kb mt mb, t.trace = s.trace ++
        [.sent .certificate b, .sent .clientKeyExchange kb, .sent mt mb] ∧
      ((mt = .certificateVerify ↔ b ≠ [0, 0, 0]) ↔ (s.s3.tmp.certReq = 1 → hasBothCerts s)) := by
  obtain ⟨s₁, h₁, hflight⟩ := Run.run_cons_eq_some.mp hflight
  obtain ⟨s₂, h₂, hflight⟩ := Run.run_cons_eq_some.mp hflight
  obtain ⟨t', h₃, hend⟩ := Run.run_cons_eq_some.mp hflight
  injection hend with hend
  subst hend
  have hwriting : ∀ {v w : SSL X509 Pkey} {a : ClientAnswers X509 Pkey},
      step lib (client lib) v (.write a) = some w → v.statem.state = .writing := by
    intro v w a h
    cases step_some h with
    | write _ hst => exact hst
  have hst := hwriting h₁
  have hst₁ := hwriting h₂
  have hst₂ := hwriting h₃
  have hrun₁ := Run.run_concat_eq_some.mpr ⟨s, hrun, h₁⟩
  have hrun₂ := Run.run_concat_eq_some.mpr ⟨s₁, hrun₁, h₂⟩
  have hinv₁ := (client_keeps lib).run hs₀ meets_anyEvent hrun₁ (.inr (.inl hst₁))
  have hinv₂ := (client_keeps lib).run hs₀ meets_anyEvent hrun₂ (.inr (.inl hst₂))
  obtain ⟨hinv, hknown⟩ := ((client_keeps lib).and (client_certReqKnown lib)).run hs₀ meets_anyEvent
    hrun (.inr (.inl hst))
  -- the Certificate
  have hsend₁ := client_sends .cwCert hinv (by simp [hhand])
    (by simp [clientWriteNext, hhand, hreq]) (by simp) h₁ (.inr (.inl hst₁))
  have hsent₁ := client_sendMessage_ok hsend₁
  obtain ⟨b, hcert, htrace₁⟩ := client_sendsCertificate rfl hsend₁
  have hhand₁ : s₁.statem.handState = .cwCert := by
    obtain ⟨cl, hstatem⟩ := hsent₁.statem
    rw [hstatem]
  -- the ClientKeyExchange
  have hsent₂ := client_sendMessage_ok (client_sends .cwKeyExch hinv₁ (by simp [hhand₁])
    (by simp [clientWriteNext, hhand₁]) (by simp) h₂ (.inr (.inl hst₂)))
  obtain ⟨kb, htrace₂, _⟩ := hsent₂.trace
  have hhand₂ : s₂.statem.handState = .cwKeyExch := by
    obtain ⟨cl, hstatem⟩ := hsent₂.statem
    rw [hstatem]
  have hsteers : s₂.clientSteers = s.clientSteers := hsent₂.frame.steers.trans hsent₁.frame.steers
  simp only [SSL.clientSteers, Prod.mk.injEq] at hsteers
  obtain ⟨_, _, hreq₂, hskip₂, _⟩ := hsteers
  have hb := tlsConstructClientCertificate_ok hcert
  by_cases hone : s.s3.tmp.certReq = 1
  · have hsent₃ := client_sendMessage_ok (client_sends .cwCertVrfy hinv₂ (by simp [hhand₂])
      (by simp [clientWriteNext, hhand₂, hreq₂, hone, hskip₂, hknown.verifies]) (by simp) h₃ hlive)
    obtain ⟨mb, htrace₃, _⟩ := hsent₃.trace
    refine ⟨b, kb, .certificateVerify, mb, by simp [htrace₃, htrace₂, htrace₁, clientMsgType], ?_⟩
    constructor
    · intro hiff _
      by_contra hno
      exact hiff.mp rfl (tlsConstructClientCertificate_empty hcert hno)
    · intro hboth
      obtain ⟨sa, a, k, hsa, ha, hk⟩ := hboth hone
      exact iff_of_true rfl (hb.2 sa a k (by simp [hone]) hsa ha hk)
  · have htwo : s.s3.tmp.certReq = 2 := by
      have := hknown.certReq
      omega
    have hsent₃ := client_sendMessage_ok (client_sends .cwChange hinv₂ (by simp [hhand₂])
      (by simp [clientWriteNext, hhand₂, hreq₂, hone]) (by simp) h₃ hlive)
    obtain ⟨mb, htrace₃, _⟩ := hsent₃.trace
    refine ⟨b, kb, .changeCipherSpec, mb, by simp [htrace₃, htrace₂, htrace₁, clientMsgType], ?_⟩
    exact iff_of_true (iff_of_false (by simp) (not_not_intro (hb.1 htwo))) fun h => absurd h hone

/-! ## runs -/

/-- A client in a handshake with the suite of code `0xE013` up to the
ServerHelloDone, asked for a certificate. -/
def requestedRun : List (Event (ClientAnswers Bytes (String × Bytes))) :=
  [ .enter, .write {}, .write {},
    .recv .serverHello ([1, 1] ++ List.replicate 32 7 ++ [0, 0xE0, 0x13, 0]) {},
    .recv .certificate plainCertificate {}, .postProcess {},
    .recv .serverKeyExchange [0, 1, 1] {}, .recv .certificateRequest [0, 0, 0] {},
    .postProcess { hasCert := true }, .recv .serverDone [] {} ]

/-- The next three messages of the client. -/
def requestedFlight : List (Event (ClientAnswers Bytes (String × Bytes))) :=
  [.write {}, .write {}, .write {}]

instance (s : SSL X509 Pkey) : Decidable (hasBothCerts s) :=
  decidable_of_iff (s.s3.tmp.sigalg.any fun sa =>
    (sa.slots s.cert).1.x509.isSome && (sa.slots s.cert).2.x509.isSome) (by
      simp [hasBothCerts, Option.any_eq_true, Option.isSome_iff_exists])

theorem certVerify_follows_both :
    ∃ s t, Run.run (step .plain (client .plain)) (pairClient (some [0, 6])) requestedRun = some s ∧
      Run.run (step .plain (client .plain)) s requestedFlight = some t ∧
      ∃ b kb mt mb, t.trace = s.trace ++
          [.sent .certificate b, .sent .clientKeyExchange kb, .sent mt mb] ∧
        (mt = .certificateVerify ↔ b ≠ [0, 0, 0]) := by
  obtain ⟨s, hrun, hhand, hreq, hboth, t, hflight, hst⟩ : ∃ s,
      Run.run (step .plain (client .plain)) (pairClient (some [0, 6])) requestedRun = some s ∧
      s.statem.handState = .crSrvrDone ∧ s.s3.tmp.certReq ≠ 0 ∧ hasBothCerts s ∧
      ∃ t, Run.run (step .plain (client .plain)) s requestedFlight = some t ∧
        t.statem.state = .writing := by decide +kernel
  obtain ⟨b, kb, mt, mb, htrace, hiff⟩ :=
    certVerify_follows_iff ⟨rfl, rfl⟩ hrun hhand hreq hflight (.inr (.inl hst))
  exact ⟨s, t, hrun, hflight, b, kb, mt, mb, htrace, hiff.mpr fun _ => hboth⟩

/-- A client with a signing certificate only sends an empty list and a
CertificateVerify, which a server that asked without insisting does not take. -/
theorem certVerify_follows_empty :
    (∃ s t, Run.run (step .plain (client .plain)) (pairClient none) requestedRun = some s ∧
      Run.run (step .plain (client .plain)) s requestedFlight = some t ∧
      t.trace = s.trace ++ [.sent .certificate [0, 0, 0], .sent .clientKeyExchange pairCke,
        .sent .certificateVerify [0, 1, 5]]) ∧
    ∃ v, Run.run (step .plain (server .plain)) (plainServer Verify.peer) (plainAuthRun.take 10 ++
        [.recv .certificate [0, 0, 0] {}, .recv .clientKeyExchange pairCke {}, .postProcess {}]) =
          some v ∧
      v.statem.state = .reading ∧
      serverReadTransition v .certificateVerify =
        .error ⟨.unexpectedMessage, .unexpectedMessage⟩ := by
  constructor
  · obtain ⟨s, hrun, t, ht⟩ : ∃ s,
        Run.run (step .plain (client .plain)) (pairClient none) requestedRun = some s ∧
        ∃ t, Run.run (step .plain (client .plain)) s requestedFlight = some t ∧
          t.trace = s.trace ++ [.sent .certificate [0, 0, 0], .sent .clientKeyExchange pairCke,
            .sent .certificateVerify [0, 1, 5]] := by decide +kernel
    exact ⟨s, t, hrun, ht⟩
  · decide +kernel

end Tlcp
