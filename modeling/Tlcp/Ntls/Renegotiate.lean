import Tlcp.Ntls.ServerAuth

/-!
# Tlcp.Ntls.Renegotiate

What an NTLS server does after its first handshake.

`MacsInv` says when the server has the two Finished MACs that
`SSL_IS_FIRST_HANDSHAKE` asks for: a handshake that finished has both.  From
then on a ClientHello is declined (`AtRest`), as long as no request of the
application is pending when it comes in.  The path that declines it calls for a
`no_renegotiation` warning, but NTLS has no code for that alert
(`ssl3SendWarning_noRenegotiation`), so the client is told nothing
(`Declines`).  The write transition looks at that
request and not at what the processor did: with a request pending the server
goes on to a ServerHello (`renegotiation_starts`).
-/

namespace Tlcp

open Octets Fallible

variable {X509 Pkey : Type} {lib : Libcrypto X509 Pkey} {s t c : SSL X509 Pkey}
  {mt : MsgType} {body : Bytes}

/-! ## the two Finished messages -/

/-- The states that only a full handshake goes through. -/
def inFull : HandState → Bool
  | .swCert | .swCertStatus | .swKeyExch | .swCertReq | .swSrvrDone | .srCert | .srKeyExch
  | .srCertVrfy => true
  | _ => false

/-- The states between the Finished of the client and the one of the server. -/
def heardFirst : HandState → Bool
  | .swSessionTicket | .swChange | .swFinished => true
  | _ => false

/-- The states between the Finished of the server and the one of the client. -/
def saidFirst : HandState → Bool
  | .srChange | .srNextProto | .srFinished => true
  | _ => false

/-- Which Finished messages the server has the MACs of. -/
structure MacsInv (s : SSL X509 Pkey) : Prop where
  full : inFull s.statem.handState → s.hit = false
  peer : s.statem.handState = .srFinished ∨ (s.hit = false ∧ heardFirst s.statem.handState) →
    s.s3.tmp.peerFinishMd.isSome
  own : s.statem.handState = .swFinished ∨ (s.hit = true ∧ saidFirst s.statem.handState) →
    s.s3.tmp.finishMd.isSome
  both : s.statem.handState = .ok ∨ s.statem.handState = .swHelloReq → s.isFirstHandshake = false

/-- In a state that says nothing about the MACs. -/
theorem MacsInv.of_neutral (hfull : inFull s.statem.handState → s.hit = false)
    (hheard : ¬ heardFirst s.statem.handState) (hsaid : ¬ saidFirst s.statem.handState)
    (hok : s.statem.handState ≠ .ok) (hreq : s.statem.handState ≠ .swHelloReq) : MacsInv s where
  full := hfull
  peer h := by
    cases h with
    | inl hst => simp [hst, saidFirst] at hsaid
    | inr h => exact absurd h.2 hheard
  own h := by
    cases h with
    | inl hst => simp [hst, heardFirst] at hheard
    | inr h => exact absurd h.2 hsaid
  both h := by
    cases h with
    | inl hst => exact absurd hst hok
    | inr hst => exact absurd hst hreq

theorem MacsInv.read (hm : MacsInv s) (h : ServerRead lib s t mt body) : MacsInv t := by
  cases h with
  | hello body dg bf ch ret hfrom hret hfed ht =>
    have hhand : t.statem.handState = .srClntHello := by
      subst ht
      cases ret <;> rfl
    apply MacsInv.of_neutral <;> simp [hhand, inFull, heardFirst, saidFirst]
  | noCertificate _ _ _ hfrom _ _ _ _ ht | certificate _ _ _ _ _ _ hfrom _ _ _ _ _ ht =>
    obtain ⟨vr, ht⟩ := ht
    subst ht
    have hhit := hm.full (by rw [hfrom]; rfl)
    apply MacsInv.of_neutral <;> simp [hhit, heardFirst, saidFirst]
  | keyExchange body dg dg' bf hfrom hfed hhash ht =>
    obtain ⟨kex, mk, ht⟩ := ht
    subst ht
    have hhit := hm.full (by cases hfrom with
      | inl h => rw [h.1]; rfl
      | inr h => rw [h]; rfl)
    apply MacsInv.of_neutral <;> simp [hhit, heardFirst, saidFirst]
  | certVerify body peer dg bf hfrom hpeer hsigned hfed ht =>
    obtain ⟨lu, ht⟩ := ht
    subst ht
    have hhit := hm.full (by rw [hfrom]; rfl)
    apply MacsInv.of_neutral <;> simp [hhit, heardFirst, saidFirst]
  | change hfrom ht =>
    subst ht
    refine ⟨by simp [inFull], by simp [heardFirst], ?_, by simp⟩
    intro h
    -- behind a full handshake's messages the server has not sent its Finished yet
    rcases hfrom with hkex | hvrfy | hfin
    · have hhit := hm.full (by rw [hkex.1]; rfl)
      simp [hhit] at h
    · have hhit := hm.full (by rw [hvrfy]; rfl)
      simp [hhit] at h
    · exact hm.own (.inl hfin)
  | nextProto body dg bf hfrom hfed ht =>
    subst ht
    refine ⟨by simp [inFull], by simp [heardFirst], ?_, by simp⟩
    intro h
    have hhit : s.hit = true := by simpa [saidFirst] using h
    exact hm.own (.inr ⟨hhit, by rw [hfrom]; rfl⟩)
  | finished body c hfrom hc hmac ht =>
    obtain ⟨cl, ht⟩ := ht
    subst ht
    refine ⟨by simp [inFull], by simp, ?_, by simp⟩
    intro h
    have hhit : s.hit = true := by simpa [saidFirst] using h
    refine hm.own (.inr ⟨hhit, ?_⟩)
    cases hfrom with
    | inl hchange => rw [hchange]; rfl
    | inr hnext => rw [hnext]; rfl

theorem MacsInv.posted (hm : MacsInv s) (h : ServerPosted s t) : MacsInv t := by
  cases h with
  | hello r s₁ hfrom hframe hchoice ht =>
    have hhand : t.statem.handState = .srClntHello := by
      subst ht
      rw [← hfrom, ← hframe.statem]
      cases r <;> rfl
    apply MacsInv.of_neutral <;> simp [hhand, inFull, heardFirst, saidFirst]
  | keyExchange hfrom ht =>
    subst ht
    exact ⟨hm.full, hm.peer, hm.own, hm.both⟩

theorem MacsInv.wrote (hm : MacsInv s) (h : ServerWrote s t) : MacsInv t := by
  cases h with
  | setup hfrom ht =>
    subst ht
    exact ⟨hm.full, hm.peer, hm.own, hm.both⟩
  | request hfrom ht =>
    subst ht
    exact ⟨by simp [inFull], by simp [heardFirst], by simp [saidFirst],
      fun _ => hm.both (.inl hfrom)⟩
  | turn hnext ht =>
    subst ht
    exact ⟨hm.full, hm.peer, hm.own, hm.both⟩
  | done hnext ht =>
    obtain ⟨ren, cl, te, ht⟩ := ht
    subst ht
    refine ⟨by simp [inFull], by simp [heardFirst], by simp [saidFirst], fun _ => ?_⟩
    have hboth : s.s3.tmp.finishMd.isSome → s.s3.tmp.peerFinishMd.isSome →
        s.isFirstHandshake = false := by
      intro hown hpeer
      rw [SSL.isFirstHandshake]
      cases hf : s.s3.tmp.finishMd <;> cases hp : s.s3.tmp.peerFinishMd <;> simp_all
    rcases serverWriteNext_some hnext with hok | h
    · rcases hok.2 with hreq | hhello | hres | hfull
      · exact hm.both (.inr hreq)
      · exact hhello.2
      · exact hboth (hm.own (.inr ⟨hres.2, by rw [hres.1]; rfl⟩)) (hm.peer (.inl hres.1))
      · exact hboth (hm.own (.inl hfull.1)) (hm.peer (.inr ⟨hfull.2, by rw [hfull.1]; rfl⟩))
    · simp at h
  | sent h hnext hne hsent =>
    have hhand : t.statem.handState = h := by rw [hsent.statem]
    have hhit : t.hit = s.hit := hsent.hit
    have hmd := hsent.peerFinishMd
    have hnext := serverWriteNext_some hnext
    refine ⟨?_, ?_, ?_, ?_⟩
    · rw [hhand, hhit]
      grind [inFull, hm.full]
    · rw [hhand, hhit, hmd]
      grind [heardFirst, hm.peer]
    · rw [hhand, hhit]
      grind [saidFirst, hsent.finishMd]
    · rw [hhand]
      grind

theorem server_macs (lib : Libcrypto X509 Pkey) :
    (server lib).Leads lib anyEvent (fun s => ServerInv s ∧ MacsInv s) fun _ => MacsInv where
  fresh s t h := by
    rw [enterFresh_server h]
    apply MacsInv.of_neutral <;> simp [sslClear, inFull, heardFirst, saidFirst]
  again s t hs hfin h := by
    have hm := hs.2
    cases enterAgain_server h with
    | inl hsame =>
      subst hsame
      exact ⟨hm.full, hm.peer, hm.own, hm.both⟩
    | inr hsetup =>
      subst hsetup
      exact ⟨hm.full, hm.peer, hm.own, hm.both⟩
  quiet s r p i q hs _ _ := ⟨hs.2.full, hs.2.peer, hs.2.own, hs.2.both⟩
  recv s mt body ans t hs _ _ _ h := hs.2.read (server_readMessage_ok h)
  post s wst ans t hs _ hst hrs h :=
    hs.2.posted (server_postProcessRound_ok (hs.1.post hst wst hrs) h)
  write s ans t hs hst h := hs.2.wrote (server_writeRound_ok hs.1.server hs.1.writeState h)

/-- A server that finished a handshake is past its first one. -/
theorem finished_not_first {es : List (Event (ServerAnswers X509))} (hs : s.inBefore)
    (hrun : Run.run (step lib (server lib)) s es = some c) (hc : c.statem.state = .finished) :
    c.server = true ∧ c.statem.handState = .ok ∧ c.isFirstHandshake = false := by
  obtain ⟨hinv, hmacs⟩ := Machine.Leads.run ((server_keeps lib).and (server_macs lib)) hs
    meets_anyEvent hrun (.inr (.inr hc))
  have hok := hinv.finished hc
  exact ⟨hinv.server, hok, hmacs.both (.inl hok)⟩

/-! ## after the first handshake -/

/-- What the handshake of `c` settled is as it was in `c`: the session, the
cipher, the secrets, the randoms and the Finished MACs.  What the machine
itself needs to go on may differ. -/
def Settled (c t : SSL X509 Pkey) : Prop :=
  ∃ statem ren pend buf dg ccs req tr te ch, t = { c with
    statem := statem
    renegotiate := ren
    s3.renegotiate := pend
    s3.handshakeBuffer := buf
    s3.handshakeDgst := dg
    s3.changeCipherSpec := ccs
    s3.tmp.certRequest := req
    trace := tr
    ext.ticketExpected := te
    clienthello := ch }

theorem Settled.rfl' : Settled c c := ⟨_, _, _, _, _, _, _, _, _, _, rfl⟩

theorem Settled.trans (h : Settled c s) (h' : Settled s t) : Settled c t := by
  obtain ⟨_, _, _, _, _, _, _, _, _, _, hs⟩ := h
  obtain ⟨_, _, _, _, _, _, _, _, _, _, ht⟩ := h'
  subst hs
  exact ⟨_, _, _, _, _, _, _, _, _, _, ht⟩

theorem Settled.first (h : Settled c t) : t.isFirstHandshake = c.isFirstHandshake := by
  obtain ⟨_, _, _, _, _, _, _, _, _, _, ht⟩ := h
  rw [ht]
  rfl

theorem Settled.server (h : Settled c t) : t.server = c.server := by
  obtain ⟨_, _, _, _, _, _, _, _, _, _, ht⟩ := h
  rw [ht]

/-- A server that finished the handshake of `c` and started no other. -/
structure AtRest (c t : SSL X509 Pkey) : Prop where
  settled : Settled c t
  live : t.live
  writing : t.statem.state = .writing → t.statem.writeState = .transition ∧
    (t.statem.handState = .ok ∨ t.statem.handState = .swHelloReq ∨
      (t.statem.handState = .srClntHello ∧ t.renegotiate = false))
  reading : t.statem.state = .reading → t.statem.handState = .ok ∧
    t.statem.readState = .header ∧ t.s3.handshakeDgst = none ∧ t.s3.handshakeBuffer = some []
  finished : t.statem.state = .finished → t.statem.handState = .ok

/-- No request of the application is pending when a ClientHello comes in, or is
made before it is answered.  An object that is cleared is another connection. -/
def Unasked (s : SSL X509 Pkey) : Event (ServerAnswers X509) → Prop
  | .clear _ => False
  | .renegotiate => s.statem.handState ≠ .srClntHello
  | .recv mt _ _ => mt = .clientHello → s.renegotiate = false
  | _ => True

instance (s : SSL X509 Pkey) : (e : Event (ServerAnswers X509)) → Decidable (Unasked s e)
  | .clear _ => isFalse id
  | .renegotiate => inferInstanceAs (Decidable (_ ≠ _))
  | .recv _ _ _ => inferInstanceAs (Decidable (_ → _))
  | .renegotiateCheck | .handshakeData | .enter | .postProcess _ | .write _ | .abort _ =>
    isTrue trivial

theorem AtRest.again (hserver : c.server = true) (hi : AtRest c s)
    (hfin : s.statem.state = .finished) (h : (enterAgain true).run s = .ok () t) : AtRest c t := by
  have hok := hi.finished hfin
  have hs : s.server = true := hi.settled.server.trans hserver
  cases enterAgain_server h with
  | inl hsame =>
    subst hsame
    exact ⟨hi.settled.trans ⟨_, _, _, _, _, _, _, _, _, _, by rw [← hs]⟩, .inr (.inl rfl),
      fun _ => ⟨rfl, .inl hok⟩, by simp, by simp⟩
  | inr hsetup =>
    subst hsetup
    exact ⟨hi.settled.trans ⟨_, _, _, _, _, _, _, _, _, _, by rw [← hs]⟩, .inr (.inl rfl),
      fun _ => ⟨rfl, .inl hok⟩, by simp, by simp⟩

/-- The only message that is read is a ClientHello, and it is not looked at. -/
theorem AtRest.read (hfirst : c.isFirstHandshake = false) (hi : AtRest c s)
    (hst : s.statem.state = .reading) (hask : mt = .clientHello → s.renegotiate = false)
    (h : ServerRead lib s t mt body) : AtRest c t := by
  obtain ⟨hok, _⟩ := hi.reading hst
  cases h with
  | hello body dg bf ch ret hfrom hret hfed ht =>
    have hret : ret = .finishedReading := by
      simp [hi.settled.first, hfirst] at hret
      exact hret
    subst hret ht
    exact ⟨hi.settled.trans ⟨_, _, _, _, _, _, _, _, _, _, rfl⟩, .inr (.inl rfl),
      fun _ => ⟨rfl, .inr (.inr ⟨rfl, hask rfl⟩)⟩, by simp [SSL.afterProcess],
      by simp [SSL.afterProcess]⟩
  | noCertificate body dg bf hfrom => simp [hok] at hfrom
  | certificate body certs i j dg bf hfrom => simp [hok] at hfrom
  | keyExchange body dg dg' bf hfrom => simp [hok] at hfrom
  | certVerify body peer dg bf hfrom => simp [hok] at hfrom
  | change hfrom => simp [hok] at hfrom
  | nextProto body dg bf hfrom => simp [hok] at hfrom
  | finished body c hfrom => simp [hok] at hfrom

/-- The only message that is sent is a HelloRequest. -/
theorem AtRest.wrote (hfirst : c.isFirstHandshake = false) (hi : AtRest c s)
    (hst : s.statem.state = .writing) (h : ServerWrote s t) : AtRest c t := by
  obtain ⟨_, hhand⟩ := hi.writing hst
  have hdone : ∀ o, serverWriteNext s = .ok o → o = some .ok := by
    intro o ho
    rcases hhand with hok | hreq | ⟨hhello, hren⟩
    · simp [serverWriteNext, hok] at ho
    · simpa [serverWriteNext, hreq, eq_comm] using ho
    · simpa [serverWriteNext, hhello, hren, hi.settled.first, hfirst, eq_comm] using ho
  cases h with
  | setup hfrom ht =>
    subst ht
    exact ⟨hi.settled.trans ⟨_, _, _, _, _, _, _, _, _, _, rfl⟩, .inl rfl, by simp,
      fun _ => ⟨hfrom, rfl, rfl, rfl⟩, by simp⟩
  | request hfrom ht =>
    subst ht
    exact ⟨hi.settled.trans ⟨_, _, _, _, _, _, _, _, _, _, rfl⟩, .inr (.inl hst),
      fun _ => ⟨rfl, .inr (.inl rfl)⟩, by simp [hst], by simp [hst]⟩
  | turn hnext ht => simpa using hdone _ hnext
  | done hnext ht =>
    obtain ⟨ren, cl, te, ht⟩ := ht
    subst ht
    exact ⟨hi.settled.trans ⟨_, _, _, _, _, _, _, _, _, _, rfl⟩, .inr (.inr rfl), by simp,
      by simp, fun _ => rfl⟩
  | sent h hnext hne hsent =>
    have hok := hdone _ hnext
    injection hok with hok
    exact absurd hok hne

/-- **One event** of a server after its first handshake. -/
theorem AtRest.step {e : Event (ServerAnswers X509)} (hserver : c.server = true)
    (hfirst : c.isFirstHandshake = false) (hs : orFailed (AtRest c) s) (hask : Unasked s e)
    (h : Tlcp.step lib (Tlcp.server lib) s e = some t) : orFailed (AtRest c) t := by
  cases hs with
  | inl hdead =>
    obtain ⟨f, hf⟩ := hdead
    exact .inl (step_error hf (fun _ h => by rw [h] at hask; exact hask) h)
  | inr hi =>
    cases step_some h with
    | clear b => exact hask.elim
    | renegotiate =>
      refine .inr ⟨hi.settled.trans ⟨_, _, _, _, _, _, _, _, _, _, rfl⟩, hi.live, ?_,
        hi.reading, hi.finished⟩
      intro hw
      obtain ⟨hws, hhand⟩ := hi.writing hw
      exact ⟨hws, hhand.imp_right (Or.imp_right fun hhello => absurd hhello.1 hask)⟩
    | renegotiateCheck | handshakeData =>
      exact .inr ⟨hi.settled.trans ⟨_, _, _, _, _, _, _, _, _, _, rfl⟩, hi.live, hi.writing,
        hi.reading, hi.finished⟩
    | fresh hbefore =>
      have hl := hi.live
      simp [SSL.live, hbefore.2] at hl
    | again hfin => exact orFailed_settle fun t ht => hi.again hserver hfin ht
    | recv mt body ans hst =>
      exact orFailed_settle fun t ht => hi.read hfirst hst hask (server_readMessage_ok ht)
    | post wst ans hst hrs => simp [(hi.reading hst).2.1] at hrs
    | write ans hst =>
      have hs : s.server = true := hi.settled.server.trans hserver
      exact orFailed_settle fun t ht =>
        hi.wrote hfirst hst (server_writeRound_ok hs (hi.writing hst).1 ht)
    | abort e => exact .inl ⟨e, rfl⟩

/-! ## the answer to a ClientHello -/

/-- `tls_finish_handshake_ntls` always goes through. -/
theorem tlsFinishHandshake_total (s : SSL X509 Pkey) :
    ∃ t, tlsFinishHandshake.run s = .ok .finishedStop t := by
  have hclean : ∃ r, (onlyIf (s.statem.cleanuphand = true) (modify fun s : SSL X509 Pkey =>
      { s with renegotiate := false, statem.cleanuphand := false, ext.ticketExpected := false })
      : Handshake X509 Pkey Unit).run s = .ok () r := by
    by_cases hc : s.statem.cleanuphand = true
    · exact ⟨_, run_onlyIf_ok.mpr (.inl ⟨hc, run_modify_ok.mpr rfl⟩)⟩
    · exact ⟨s, run_onlyIf_ok.mpr (.inr ⟨hc, rfl⟩)⟩
  obtain ⟨r, hr⟩ := hclean
  refine ⟨{ r with statem.inInit := false }, ?_⟩
  rw [tlsFinishHandshake, run_get_bind_ok, run_bind_ok]
  exact ⟨(), r, hr, rfl⟩

/-- The connection object after a ClientHello that is not looked at. -/
def SSL.declining (s : SSL X509 Pkey) (body : Bytes) : SSL X509 Pkey := { s with
    statem.state := .writing
    statem.handState := .srClntHello
    statem.writeState := .transition
    s3.handshakeBuffer := some (handshakeBytes .clientHello body)
    trace := s.trace ++ [.accepted .clientHello body] }

theorem readMessage_declining {ans : ServerAnswers X509} (hfirst : s.isFirstHandshake = false)
    (hok : s.statem.handState = .ok) (hdg : s.s3.handshakeDgst = none)
    (hbf : s.s3.handshakeBuffer = some []) (hlen : body.length ≤ 131396) :
    (readMessage lib (server lib) .clientHello body ans).run s = .ok () (s.declining body) := by
  have htran : ((server lib).readTransition .clientHello).run s =
      .ok () { s with statem.handState := .srClntHello } := by
    simp only [server]
    rw [run_get_bind_ok, run_lift_bind_ok]
    exact ⟨.srClntHello, by simp [serverReadTransition, hok], rfl⟩
  have hbody : (tlsGetMessageBody lib .clientHello body).run
      { s with statem.handState := .srClntHello } = .ok () { s with
        statem.handState := .srClntHello
        s3.handshakeBuffer := some (handshakeBytes .clientHello body) } := by
    rw [tlsGetMessageBody, run_bind_ok]
    refine ⟨(), _, run_onlyIf_ok.mpr (.inr ⟨by simp, rfl⟩), ?_⟩
    refine run_onlyIf_ok.mpr (.inl ⟨by simp [isHrr], ?_⟩)
    rw [ssl3FinishMac, run_get_bind_ok]
    simp only [hdg, hbf, run_modify_ok, List.nil_append]
  have hproc : ((server lib).processMessage ans body).run { s with
        statem.handState := .srClntHello
        s3.handshakeBuffer := some (handshakeBytes .clientHello body) } = .ok .finishedReading
      { s with
        statem.handState := .srClntHello
        s3.handshakeBuffer := some (handshakeBytes .clientHello body) } := by
    simp only [server]
    rw [serverProcessMessage, run_get_bind_ok]
    simp only
    rw [tlsProcessClientHello, run_get_bind_ok, if_neg (Bool.not_eq_true _ ▸ hfirst)]
    exact run_pure_ok.mpr ⟨rfl, rfl⟩
  rw [readMessage, run_bind_ok]
  refine ⟨(), _, htran, ?_⟩
  rw [run_get_bind_ok, run_check_bind_ok, run_bind_ok]
  refine ⟨hlen, (), _, hbody, run_bind_ok.mpr ⟨_, _, hproc, ?_⟩⟩
  rw [record, run_modify_bind_ok, run_modify_ok]
  rfl

theorem writeRound_declining {ans : ServerAnswers X509} (hfirst : s.isFirstHandshake = false)
    (hws : s.statem.writeState = .transition) (hst : s.statem.handState = .srClntHello)
    (hask : s.renegotiate = false) :
    ∃ t, (writeRound (server lib) ans).run s = .ok () t ∧ Settled s t ∧ t.trace = s.trace ∧
      t.statem.state = .finished ∧ t.statem.handState = .ok ∧ t.statem.inInit = false := by
  obtain ⟨t, ht⟩ := tlsFinishHandshake_total { s with statem.handState := .ok }
  refine ⟨{ t with statem.state := .finished }, ?_, ?_⟩
  · have htran : ((server lib).writeTransition ans).run s =
        .ok .cont { s with statem.handState := .ok } := by
      simp only [server]
      rw [serverWriteTransition, run_get_bind_ok, if_neg (by simp [hst]), run_lift_bind_ok]
      refine ⟨some .ok, by simp [serverWriteNext, hst, hask, hfirst], ?_⟩
      simp only [run_modify_bind_ok, run_pure_ok, and_self]
    rw [writeRound, run_get_bind_ok, hws, run_bind_ok]
    refine ⟨_, _, htran, ?_⟩
    simp only
    rw [preWorkRound, run_bind_ok]
    exact ⟨_, t, ht, rfl⟩
  · obtain ⟨_, _, _, _, ht⟩ := tlsFinishHandshake_ok ht
    subst ht
    exact ⟨⟨_, _, _, _, _, _, _, _, _, _, rfl⟩, rfl, rfl, rfl, rfl⟩

theorem Settled.warnings (h : Settled c t) : t.warnings = c.warnings := by
  obtain ⟨_, _, _, _, _, _, _, _, _, _, ht⟩ := h
  rw [ht]

/-- The server that reads in `t` does not look at a ClientHello, and with the
next round of the write machine the handshake is over again.  The client gets
nothing for it, no message and no alert. -/
def Declines (lib : Libcrypto X509 Pkey) (c t : SSL X509 Pkey) : Prop :=
  ∀ body (ans ans' : ServerAnswers X509), body.length ≤ 131396 →
    step lib (server lib) t (.recv .clientHello body ans) = some (t.declining body) ∧
    ∃ v, step lib (server lib) (t.declining body) (.write ans') = some v ∧ Settled c v ∧
      v.trace = t.trace ++ [.accepted .clientHello body] ∧ v.warnings = t.warnings ∧
      v.statem.state = .finished ∧ v.statem.handState = .ok ∧ v.statem.inInit = false

theorem AtRest.declines (hfirst : c.isFirstHandshake = false) (hi : AtRest c t)
    (hst : t.statem.state = .reading) (hask : t.renegotiate = false) : Declines lib c t := by
  intro body ans ans' hlen
  obtain ⟨hok, hrs, hdg, hbf⟩ := hi.reading hst
  have hnot : t.isFirstHandshake = false := hi.settled.first.trans hfirst
  have hset : Settled c (t.declining body) := hi.settled.trans ⟨_, _, _, _, _, _, _, _, _, _, rfl⟩
  constructor
  · rw [Tlcp.step, if_pos ⟨hst, hrs⟩, readMessage_declining hnot hok hdg hbf hlen]
    rfl
  · obtain ⟨v, hv, hkept, hover⟩ : ∃ v, (writeRound (Tlcp.server lib) ans').run
        (t.declining body) = .ok () v ∧ _ := writeRound_declining hnot rfl rfl hask
    obtain ⟨htrace, hover⟩ := hover
    refine ⟨v, ?_, hset.trans hkept, htrace, hkept.warnings, hover⟩
    rw [Tlcp.step, if_pos (by rfl), hv]
    rfl

/-- **No renegotiation**: after the first handshake of a server, whatever comes
in and whatever the application does short of a pending request, the server
is in no other handshake, has the session, the cipher and the secrets of the
first, and declines a ClientHello without an answer. -/
theorem never_renegotiates (lib : Libcrypto X509 Pkey)
    {es fs : List (Event (ServerAnswers X509))} (hs : s.inBefore)
    (hrun : Run.run (step lib (server lib)) s es = some c) (hfin : c.statem.state = .finished)
    (hask : Run.Meets (step lib (server lib)) Unasked c fs)
    (h : Run.run (step lib (server lib)) c fs = some t) (ht : t.live) :
    Settled c t ∧ (t.statem.handState = .ok ∨ t.statem.handState = .swHelloReq ∨
        t.statem.handState = .srClntHello) ∧
      (t.statem.state = .reading → t.renegotiate = false → Declines lib c t) := by
  obtain ⟨hserver, hok, hfirst⟩ := finished_not_first hs hrun hfin
  have hstart : AtRest c c := ⟨Settled.rfl', .inr (.inr hfin), by simp [hfin], by simp [hfin],
    fun _ => hok⟩
  have hend : orFailed (AtRest c) t := Run.invariant
    (fun _ _ _ hi hask hstep => AtRest.step hserver hfirst hi hask hstep) (.inr hstart) hask h
  cases hend with
  | inl hdead =>
    obtain ⟨e, he⟩ := hdead
    simp [SSL.live, he] at ht
  | inr hi =>
    refine ⟨hi.settled, ?_, fun hst hren => hi.declines hfirst hst hren⟩
    rcases ht with hread | hwrite | hdone
    · exact .inl (hi.reading hread).1
    · exact (hi.writing hwrite).2.imp_right (Or.imp_right And.left)
    · exact .inl (hi.finished hdone)

/-- A ClientHello that comes in by itself. -/
def unaskedRun : List (Event (ServerAnswers Bytes)) := [.handshakeData, .enter, .write {}]

theorem never_renegotiates_plain :
    ∃ c t, Run.run (step .plain (server .plain)) (plainServer 3) plainAuthRun = some c ∧
      Run.run (step .plain (server .plain)) c unaskedRun = some t ∧
      t.statem.state = .reading ∧ Declines .plain c t := by
  obtain ⟨c, hrun, hfin, hask, t, hrun', hst, hren⟩ : ∃ c,
      Run.run (step .plain (server .plain)) (plainServer 3) plainAuthRun = some c ∧
      c.statem.state = .finished ∧
      Run.Meets (step .plain (server .plain)) Unasked c unaskedRun ∧
      ∃ t, Run.run (step .plain (server .plain)) c unaskedRun = some t ∧
        t.statem.state = .reading ∧ t.renegotiate = false := by decide +kernel
  obtain ⟨_, _, hdecl⟩ := never_renegotiates .plain ⟨rfl, rfl⟩ hrun hfin hask hrun' (.inl hst)
  exact ⟨c, t, hrun, hrun', hst, hdecl hst hren⟩

/-- The application asks for a renegotiation, the server sends a HelloRequest
and is done with it; then a ClientHello comes in. -/
def askedRun : List (Event (ServerAnswers Bytes)) :=
  [.renegotiate, .renegotiateCheck, .enter, .write {}, .write {}, .handshakeData, .enter, .write {},
    .recv .clientHello (plainHello [0xE0, 0x13]) {}, .write {}]

/-- The request is still pending behind the HelloRequest, and the server goes
on to a ServerHello. -/
theorem renegotiation_starts :
    ∃ c t, Run.run (step .plain (server .plain)) (plainServer 3) plainAuthRun = some c ∧
      c.statem.state = .finished ∧ c.isFirstHandshake = false ∧
      Run.run (step .plain (server .plain)) c askedRun = some t ∧
      t.live ∧ t.statem.handState = .swSrvrHello := by
  obtain ⟨c, hrun, hfin, hfirst, t, ht⟩ : ∃ c,
      Run.run (step .plain (server .plain)) (plainServer 3) plainAuthRun = some c ∧
      c.statem.state = .finished ∧ c.isFirstHandshake = false ∧
      ∃ t, Run.run (step .plain (server .plain)) c askedRun = some t ∧
        t.live ∧ t.statem.handState = .swSrvrHello := by decide +kernel
  exact ⟨c, t, hrun, hfin, hfirst, ht⟩

end Tlcp
