import Tlcp.Ntls.Flow

/-!
# Tlcp.Ntls.ClientFlow

The NTLS client keeps to the flow of a handshake.
-/

namespace Tlcp

open Octets Duplex Fallible

variable {X509 Pkey : Type} {lib : Libcrypto X509 Pkey} {c t : SSL X509 Pkey}
  {ans : ClientAnswers X509 Pkey} {g g' : Stage} {mt : MsgType} {body : Bytes}

/-- The state of the client's machine at a stage. -/
def clientHand : Stage → HandState
  | .start => .before
  | .clientHello => .cwClntHello
  | .serverHello _ => .crSrvrHello
  | .certificate _ => .crCert
  | .certificateStatus _ => .crCertStatus
  | .serverKeyExchange _ => .crKeyExch
  | .certificateRequest _ => .crCertReq
  | .serverDone _ _ => .crSrvrDone
  | .clientCertificate _ _ => .cwCert
  | .clientKeyExchange _ _ => .cwKeyExch
  | .certificateVerify _ => .cwCertVrfy
  | .clientChange _ => .cwChange
  | .nextProto _ => .cwNextProto
  | .clientFinished _ => .cwFinished
  | .newSessionTicket _ => .crSessionTicket
  | .serverChange _ => .crChange
  | .serverFinished _ => .crFinished

/-- What `cert_req` is at a stage: 1 if a certificate is to be sent, and 2 if
there is none. -/
def ClientAsked (certReq : Nat) : Stage → Prop
  | .certificateRequest _ => certReq = 1 ∨ certReq = 2
  | .serverDone _ asked => if asked then certReq = 1 ∨ certReq = 2 else certReq = 0
  | .clientCertificate _ given | .clientKeyExchange _ given => certReq = 1 ↔ given = true
  | .start | .clientHello | .serverHello _ | .certificate _ | .certificateStatus _
  | .serverKeyExchange _ => certReq = 0
  | _ => True

/-- The client is at a stage of a handshake. -/
structure ClientAt (c : SSL X509 Pkey) (g : Stage) : Prop where
  inv : ClientInv c
  quiet : c.renegotiate = false
  verifies : c.s3.skipCertVerify = false
  hand : c.statem.handState = clientHand g
  turn : c.statem.state = .writing ∨ (c.statem.state = .reading ∧ g.turn = some .right)
  agreed : ∀ f, g.agreed = some f → c.agreed = f ∧ ∃ ci : NtlsCipher, c.s3.tmp.newCipher = some ci.1
  asked : ClientAsked c.s3.tmp.certReq g
  change : ∀ f, g = .serverChange f → c.s3.changeCipherSpec = true

/-- What the client read is at the end of its history. -/
theorem ClientRead.trace (h : ClientRead lib c t mt body) :
    t.trace = c.trace ++ [.accepted mt body] := by
  cases h with
  | hello _ _ _ _ _ _ _ _ _ _ ht =>
    obtain ⟨_, _, _, _, _, ht⟩ := ht
    rw [ht]
  | certificate _ _ _ _ _ _ _ _ ht => rw [ht]
  | status _ _ _ _ _ ht => rw [ht]
  | keyExchange _ _ _ _ _ _ ht =>
    obtain ⟨_, _, _, ht⟩ := ht
    rw [ht]
  | request _ _ _ _ _ ht => rw [ht]
  | done _ _ _ _ ht => rw [ht]
  | ticket _ _ _ _ _ ht =>
    obtain ⟨_, _, _, ht⟩ := ht
    rw [ht]
  | change _ _ ht => rw [ht]
  | finished _ _ _ _ _ ht =>
    obtain ⟨_, ht⟩ := ht
    rw [ht]
  | helloRequest _ _ _ _ _ ht =>
    obtain ⟨_, _, ht⟩ := ht
    rw [ht]

/-- A message of the server moves the client on. -/
theorem ClientAt.read (hat : ClientAt c g) (hst : c.statem.state = .reading)
    (hturn : g.turn = some .right) (hnext : g.Next (mt, body) g')
    (hread : ClientRead lib c t mt body) (hinv : ClientInv t)
    (hagreed : ∀ f, g' = .serverHello f → t.agreed = f) : ClientAt t g' := by
  cases hread with
  | hello b sh ci dg bf hfrom _ _ _ _ ht =>
    obtain ⟨hit, sess, ext, npn, _, ht⟩ := ht
    cases hnext with
    | serverHello f =>
      have hf := hagreed f rfl
      subst ht
      refine ⟨hinv, hat.quiet, hat.verifies, rfl, .inr ⟨hst, rfl⟩, ?_, hat.asked, by simp⟩
      intro f' hf'
      injection hf' with hf'
      subst hf'
      exact ⟨hf, ci, rfl⟩
  | certificate b certs dg bf hfrom _ _ _ ht =>
    subst ht
    cases hnext with
    | certificate f =>
      exact ⟨hinv, hat.quiet, hat.verifies, rfl, .inr ⟨hst, rfl⟩, hat.agreed, hat.asked, by simp⟩
    | clientCertificate f => simp [Stage.turn] at hturn
  | status b dg bf hfrom _ ht =>
    subst ht
    cases hnext with
    | status f =>
      exact ⟨hinv, hat.quiet, hat.verifies, rfl, .inr ⟨hst, rfl⟩, hat.agreed, hat.asked, by simp⟩
  | keyExchange b dg bf hfrom _ _ ht =>
    obtain ⟨kex, lu, group, ht⟩ := ht
    subst ht
    cases hnext with
    | keyExchange f | keyExchangeAfter f =>
      exact ⟨hinv, hat.quiet, hat.verifies, rfl, .inr ⟨hst, rfl⟩, hat.agreed, hat.asked, by simp⟩
  | request b dg bf hfrom _ ht =>
    subst ht
    cases hnext with
    | request f =>
      exact ⟨hinv, hat.quiet, hat.verifies, rfl, .inr ⟨hst, rfl⟩, hat.agreed, .inl rfl, by simp⟩
  | done dg bf hfrom _ ht =>
    subst ht
    cases hnext with
    | done f | doneAfter f =>
      exact ⟨hinv, hat.quiet, hat.verifies, rfl, .inl rfl, hat.agreed, hat.asked, by simp⟩
  | ticket b dg bf hfrom _ ht =>
    obtain ⟨tick, sid, nr, ht⟩ := ht
    subst ht
    cases hnext with
    | ticket f | ticketLast f =>
      exact ⟨hinv, hat.quiet, hat.verifies, rfl, .inr ⟨hst, rfl⟩, hat.agreed, trivial, by simp⟩
  | change hit hfrom ht =>
    -- a ChangeCipherSpec right behind the ServerHello is one of a resumption
    have hhit : hit = c.hit := by
      rcases hfrom with ⟨hhand, hhit⟩ | ⟨_, hhit⟩
      · rw [hat.hand] at hhand
        cases hnext with
        | serverChange f _ h => rw [hhit, ← h, ← (hat.agreed f rfl).1, SSL.agreed]
        | _ => simp [clientHand] at hhand
      · exact hhit
    subst hhit ht
    cases hnext with
    | serverChange f | serverChangeLast f | serverChangeAfter f =>
      exact ⟨hinv, hat.quiet, hat.verifies, rfl, .inr ⟨hst, rfl⟩, hat.agreed, trivial,
        fun _ _ => rfl⟩
    | clientChange f => simp [Stage.turn] at hturn
    | clientChangeAfter f => simp [Stage.turn] at hturn
    | clientChangeLast f _ h => simp [Stage.turn, h] at hturn
  | finished b ci hfrom _ _ ht =>
    obtain ⟨cl, ht⟩ := ht
    subst ht
    cases hnext with
    | serverFinished f =>
      exact ⟨hinv, hat.quiet, hat.verifies, rfl, .inl rfl, hat.agreed, trivial, by simp⟩
    | clientFinished f => simp [Stage.turn] at hturn
    | clientFinishedAfter f => simp [Stage.turn] at hturn
  | helloRequest b dg bf hfrom _ ht => cases hnext

/-- The check of the server's certificates changes the session and notes the
answers of the verifier. -/
theorem CertsChecked.frame {r : Work} (h : CertsChecked lib ans c t r) :
    (r = .moreA ∨ r = .finishedContinue) ∧ ∃ sess vr chains,
      (∀ o ∈ chains, ∃ sk i, o = .chain sk i) ∧
        t = { c with session := sess, verifyResult := vr, trace := c.trace ++ chains } := by
  cases h with
  | retryEnc hr _ _ ht =>
    obtain ⟨vr, ht⟩ := ht
    exact ⟨.inl hr, _, vr, [_], by simp, ht⟩
  | retrySign hr ht =>
    obtain ⟨vr, ht⟩ := ht
    exact ⟨.inl hr, _, vr, [_, _], by simp, ht⟩
  | adopted hr _ ht =>
    obtain ⟨vr, ht⟩ := ht
    exact ⟨.inr hr, _, vr, [_, _], by simp, ht⟩
  | unverified hr _ _ ht =>
    obtain ⟨vr, ht⟩ := ht
    exact ⟨.inr hr, _, _, [], by simp, by rw [List.append_nil]; exact ht⟩

/-- Post-processing leaves the client at its stage, and it goes on reading. -/
theorem ClientAt.posted (hat : ClientAt c g) (hst : c.statem.state = .reading)
    (hpost : ClientPosted lib ans c t) (hinv : ClientInv t) :
    ClientAt t g ∧
      ∃ chains, (∀ o ∈ chains, ∃ sk i, o = .chain sk i) ∧ t.trace = c.trace ++ chains := by
  have hturn : g.turn = some .right := by
    rcases hat.turn with hw | hr
    · simp [hst] at hw
    · exact hr.2
  cases hpost with
  | certs r s₁ hfrom hchecked ht =>
    obtain ⟨hr, sess, vr, chains, hchains, hs₁⟩ := hchecked.frame
    subst hs₁
    rcases hr with hr | hr
    all_goals
      subst hr ht
      exact ⟨⟨hinv, hat.quiet, hat.verifies, hat.hand, .inr ⟨hst, hturn⟩, hat.agreed, hat.asked,
        hat.change⟩, chains, hchains, rfl⟩
  | request r s₁ hfrom hr hprep ht =>
    obtain ⟨sa, cert, req, dg, bf, _, hreq, hs₁⟩ := hprep
    have hasked : ClientAsked req g := by
      have hold := hat.asked
      rw [hat.hand] at hfrom
      cases g with
      | certificateRequest f =>
        rcases hreq with hreq | hreq
        · rw [hreq]
          exact hold
        · exact .inr hreq
      | _ => simp [clientHand] at hfrom
    subst hs₁
    rcases hr with hr | hr | hr
    all_goals
      subst hr ht
      exact ⟨⟨hinv, hat.quiet, hat.verifies, hat.hand, .inr ⟨hst, hturn⟩, hat.agreed, hasked,
        hat.change⟩, [], by simp, (List.append_nil _).symm⟩

/-- The client has the two certificates that it is going to send. -/
def Equipped (c : SSL X509 Pkey) : Prop :=
  c.statem.handState = .crSrvrDone → c.s3.tmp.certReq = 1 →
    ∃ sa a k, c.s3.tmp.sigalg = some sa ∧ (sa.slots c.cert).1.x509 = some a ∧
      (sa.slots c.cert).2.x509 = some k

/-- What the client may send next is what the flow has at its stage. -/
theorem ClientAt.next {h : HandState} (hat : ClientAt c g) (hst : c.statem.state = .writing)
    (hequipped : Equipped c) (hnext : clientWriteNext c = .ok (some h)) (hne : h ≠ .ok)
    (hbody : h = .cwCert → CertificateWith c body) :
    g.turn = some .left ∧ ∃ g', g.Next (clientMsgType h, body) g' ∧ clientHand g' = h ∧
      (∀ f, g'.agreed = some f → g.agreed = some f) ∧ ClientAsked c.s3.tmp.certReq g' ∧
      ∀ f, g' ≠ .serverChange f := by
  have hhand := hat.hand
  have hasked := hat.asked
  cases g with
  | start =>
    have hh : .cwClntHello = h := by simpa [clientWriteNext, hhand, clientHand] using hnext
    subst hh
    exact ⟨rfl, _, .clientHello body, rfl, by simp [Stage.agreed], hasked, by simp⟩
  | serverHello f => simp [hat.inv.turn hhand] at hst
  | serverDone f asked =>
    cases asked with
    | false =>
      have hreq : c.s3.tmp.certReq = 0 := hasked
      have hh : .cwKeyExch = h := by simpa [clientWriteNext, hhand, clientHand, hreq] using hnext
      subst hh
      exact ⟨rfl, _, .clientKeyExchange f body, rfl, fun _ h => h, by simp [ClientAsked, hreq],
        by simp⟩
    | true =>
      have hreq : c.s3.tmp.certReq = 1 ∨ c.s3.tmp.certReq = 2 := hasked
      have hreq' : c.s3.tmp.certReq ≠ 0 := by omega
      have hh : .cwCert = h := by simpa [clientWriteNext, hhand, clientHand, hreq'] using hnext
      subst hh
      obtain ⟨hnone, hsome⟩ := hbody rfl
      refine ⟨rfl, _, .clientCertificate f body, rfl, fun _ h => h, ?_, by simp⟩
      simp only [ClientAsked, decide_eq_true_eq]
      constructor
      · intro hone
        obtain ⟨sa, a, k, hsa, ha, hk⟩ := hequipped hhand hone
        exact hsome sa a k (by omega) hsa ha hk
      · intro hne'
        exact hreq.resolve_right fun htwo => hne' (hnone htwo)
  | clientCertificate f given =>
    have hh : .cwKeyExch = h := by simpa [clientWriteNext, hhand, clientHand] using hnext
    subst hh
    exact ⟨rfl, _, .clientKeyExchangeAfter f given body, rfl, fun _ h => h, hasked, by simp⟩
  | clientKeyExchange f given =>
    have hreq : c.s3.tmp.certReq = 1 ↔ given = true := hasked
    cases given with
    | true =>
      have hh : .cwCertVrfy = h := by
        simpa [clientWriteNext, hhand, clientHand, hreq, hat.verifies] using hnext
      subst hh
      exact ⟨rfl, _, .verify f body, rfl, fun _ h => h, trivial, by simp⟩
    | false =>
      have hh : .cwChange = h := by simpa [clientWriteNext, hhand, clientHand, hreq] using hnext
      subst hh
      exact ⟨rfl, _, .clientChange f body, rfl, fun _ h => h, trivial, by simp⟩
  | certificateVerify f =>
    have hh : .cwChange = h := by simpa [clientWriteNext, hhand, clientHand] using hnext
    subst hh
    exact ⟨rfl, _, .clientChangeAfter f body, rfl, fun _ h => h, trivial, by simp⟩
  | clientChange f =>
    have hnpn : c.s3.npnSeen = f.npn := congrArg Agreed.npn (hat.agreed f rfl).1
    cases hf : f.npn with
    | true =>
      have hh : .cwNextProto = h := by
        simpa [clientWriteNext, hhand, clientHand, hnpn, hf] using hnext
      subst hh
      exact ⟨rfl, _, .nextProto f body hf, rfl, fun _ h => h, trivial, by simp⟩
    | false =>
      have hh : .cwFinished = h := by
        simpa [clientWriteNext, hhand, clientHand, hnpn, hf] using hnext
      subst hh
      exact ⟨rfl, _, .clientFinished f body hf, rfl, fun _ h => h, trivial, by simp⟩
  | nextProto f =>
    have hh : .cwFinished = h := by simpa [clientWriteNext, hhand, clientHand] using hnext
    subst hh
    exact ⟨rfl, _, .clientFinishedAfter f body, rfl, fun _ h => h, trivial, by simp⟩
  | clientFinished f =>
    have hh : .ok = h := by
      simp only [clientWriteNext, hhand, clientHand, Except.ok.injEq,
        Option.ite_none_right_eq_some] at hnext
      exact Option.some.inj hnext.2
    exact absurd hh.symm hne
  | serverFinished f =>
    have hhit : c.hit = f.hit := congrArg Agreed.hit (hat.agreed f rfl).1
    cases hf : f.hit with
    | true =>
      have hh : .cwChange = h := by
        simpa [clientWriteNext, hhand, clientHand, hhit, hf] using hnext
      subst hh
      exact ⟨by simp [Stage.turn, hf], _, .clientChangeLast f body hf, rfl, fun _ h => h,
        trivial, by simp⟩
    | false =>
      have hh : .ok = h := by simpa [clientWriteNext, hhand, clientHand, hhit, hf] using hnext
      exact absurd hh.symm hne
  | _ => simp [clientWriteNext, hhand, clientHand] at hnext

/-- A message of the client moves it on. -/
theorem ClientAt.sent {h : HandState} (hat : ClientAt c g) (hst : c.statem.state = .writing)
    (hequipped : Equipped c) (hnext : clientWriteNext c = .ok (some h)) (hne : h ≠ .ok)
    (hsent : ClientSent c t h) (hinv : ClientInv t) :
    ∃ body g', t.trace = c.trace ++ [.sent (clientMsgType h) body] ∧ g.turn = some .left ∧
      g.Next (clientMsgType h, body) g' ∧ ClientAt t g' := by
  obtain ⟨body, htrace, _, hbody⟩ := hsent.trace
  obtain ⟨hturn, g', hleads, hhand, hagreed, hasked, hchange⟩ :=
    hat.next hst hequipped hnext hne hbody
  obtain ⟨cl, hstatem⟩ := hsent.statem
  have hsteers := hsent.frame.steers
  simp only [SSL.clientSteers, Prod.mk.injEq] at hsteers
  obtain ⟨hext, hnpn, hreq, hskip, hquiet⟩ := hsteers
  refine ⟨body, g', htrace, hturn, hleads, hinv, hquiet.trans hat.quiet, hskip.trans hat.verifies,
    ?_, .inl ?_, ?_, ?_, fun f hf => absurd hf (hchange f)⟩
  · rw [hstatem, hhand]
  · rw [hstatem]
    exact hst
  · intro f hf
    obtain ⟨hold, hcipher⟩ := hat.agreed f (hagreed f hf)
    rw [SSL.agreed, hsent.frame.hit, hext, hnpn, hsent.frame.newCipher]
    exact ⟨hold, hcipher⟩
  · rw [hreq]
    exact hasked

/-- An NTLS cipher is authenticated by a certificate, and lets the server ask
for one. -/
theorem auth_of_cipher {ci : NtlsCipher} (hci : c.s3.tmp.newCipher = some ci.1) :
    ¬ hasBit c.auth (Auth.aNULL ||| Auth.aSRP ||| Auth.aPSK) ∧ certReqAllowed c := by
  have hbits : ∀ ci ∈ ntlsCiphers, ¬ hasBit ci.algorithmAuth (Auth.aSRP ||| Auth.aPSK) := by decide
  have hauth : c.auth = ci.1.algorithmAuth := by
    rw [SSL.auth, hci]
    rfl
  obtain ⟨hnull, _, _, hall⟩ := ci.auth_certificate
  rw [certReqAllowed, hauth]
  exact ⟨hall, fun h => h.elim (fun h => hnull h.2) (hbits ci.1 ci.2)⟩

/-- What the flow has next from the server, the client has a transition for. -/
theorem ClientAt.readNext (hat : ClientAt c g) (hturn : g.turn = some .right)
    (hnext : g.Next (mt, body) g') : (clientReadNext c mt).isSome := by
  have hhand := hat.hand
  cases hnext with
  | serverHello f => simp [clientReadNext, hhand, clientHand]
  | certificate f _ hhit =>
    obtain ⟨hf, ci, hci⟩ := hat.agreed f rfl
    subst hf
    have hhit' : c.hit = false := hhit
    have hno : ¬ secretResumption c .certificate := fun h => by
      simpa using secretResumption_change h
    simp [clientReadNext, hhand, clientHand, hhit', hno, (auth_of_cipher hci).1]
  | status f _ hstatus =>
    obtain ⟨hf, _⟩ := hat.agreed f rfl
    subst hf
    have hstatus' : c.ext.statusExpected = true := hstatus
    simp [clientReadNext, hhand, clientHand, hstatus']
  | keyExchange f => simp [clientReadNext, hhand, clientHand]
  | keyExchangeAfter f => simp [clientReadNext, hhand, clientHand]
  | request f =>
    obtain ⟨_, ci, hci⟩ := hat.agreed f rfl
    simp [clientReadNext, hhand, clientHand, readRequestOrDone, (auth_of_cipher hci).2]
  | done f => simp [clientReadNext, hhand, clientHand, readRequestOrDone]
  | doneAfter f => simp [clientReadNext, hhand, clientHand]
  | ticket f _ hhit hticket | serverChange f _ hhit hticket =>
    obtain ⟨hf, _⟩ := hat.agreed f rfl
    subst hf
    have hhit' : c.hit = true := hhit
    have hticket' : c.ext.ticketExpected = _ := hticket
    simp [clientReadNext, hhand, clientHand, readTicketOrChange, hhit', hticket']
  | ticketLast f _ _ hticket | serverChangeLast f _ _ hticket =>
    obtain ⟨hf, _⟩ := hat.agreed f rfl
    subst hf
    have hticket' : c.ext.ticketExpected = _ := hticket
    simp [clientReadNext, hhand, clientHand, readTicketOrChange, hticket']
  | serverChangeAfter f => simp [clientReadNext, hhand, clientHand]
  | serverFinished f => simp [clientReadNext, hhand, clientHand]
  | clientChangeLast f _ hhit => simp [Stage.turn, hhit] at hturn
  | _ => simp [Stage.turn] at hturn

theorem ClientAt.expected (hat : ClientAt c g) (hturn : g.turn = some .right)
    (hnext : g.Next (mt, body) g') : Expected (client lib) c mt := by
  obtain ⟨h, hh⟩ := Option.isSome_iff_exists.mp (hat.readNext hturn hnext)
  refine ⟨⟨{ c with hit := c.hit || decide (secretResumption c mt), statem.handState := h }, ?_⟩,
    ?_, ?_⟩
  · change (clientReadTransition mt).run c = _
    rw [clientReadTransition, run_get_bind_ok, run_orThrow_bind_ok]
    exact ⟨h, hh, rfl⟩
  · intro hmt
    cases hg : g.agreed with
    | some f =>
      obtain ⟨_, ci, hci⟩ := hat.agreed f hg
      simp [hci]
    | none =>
      subst hmt
      cases hnext <;> simp [Stage.agreed] at hg
  · intro hmt
    subst hmt
    cases hnext with
    | serverFinished f => exact hat.change f rfl
    | _ => simp [Stage.turn] at hturn

/-! ## the machine -/

/-- Writing, the client keeps to the flow. -/
theorem ClientAt.wrote (hat : ClientAt c g) (hst : c.statem.state = .writing)
    (hequipped : Equipped c) (hw : ClientWrote c t) (hinv : ClientInv t) :
    (t.trace = c.trace ∧ ((ClientAt t g ∧ t.statem.state = .reading ∧
        t.statem.readState = .header) ∨ (g.turn = none ∧ Established t ∧ Synced t))) ∨
      ∃ mt body g', t.trace = c.trace ++ [.sent mt body] ∧ g.turn = some .left ∧
        g.Next (mt, body) g' ∧ ClientAt t g' := by
  have hhand := hat.hand
  cases hw with
  | turn hnext ht =>
    have hturn : g.turn = some .right := by
      rcases clientWriteNext_none hnext with ⟨hok, _⟩ | hhello | ⟨hfin, hfull⟩
      · rw [hhand] at hok
        cases g <;> simp [clientHand] at hok
      · rw [hhand] at hhello
        cases g <;> simp [clientHand] at hhello
        rfl
      · rw [hhand] at hfin
        cases g <;> simp [clientHand] at hfin
        next f =>
          have hhit : c.hit = f.hit := congrArg Agreed.hit (hat.agreed f rfl).1
          simp [Stage.turn, ← hhit, hfull]
    subst ht
    exact .inl ⟨rfl, .inl ⟨⟨hinv, hat.quiet, hat.verifies, hhand, .inr ⟨rfl, hturn⟩, hat.agreed,
      hat.asked, hat.change⟩, rfl, rfl⟩⟩
  | done hend ht =>
    have hturn : g.turn = none := by
      rcases hend with hend | hend
      · rcases clientWriteNext_ok hend with ⟨hfin, hhit⟩ | ⟨hfin, hhit⟩
        all_goals
          rw [hhand] at hfin
          cases g <;> simp [clientHand] at hfin
          next f =>
            have hf : c.hit = f.hit := congrArg Agreed.hit (hat.agreed f rfl).1
            simp [Stage.turn, ← hf, hhit]
      · rw [hhand] at hend
        cases g <;> simp [clientHand] at hend
    obtain ⟨ren, cl, te, ht⟩ := ht
    subst ht
    exact .inl ⟨rfl, .inr ⟨hturn, ⟨rfl, rfl, rfl⟩, hinv.synced⟩⟩
  | sent h hnext hne hsent =>
    obtain ⟨body, g', htrace, hturn, hleads, hat'⟩ := hat.sent hst hequipped hnext hne hsent hinv
    exact .inr ⟨_, body, g', htrace, hturn, hleads, hat'⟩
  | restart hfrom =>
    rw [hhand] at hfrom
    cases g <;> simp [clientHand] at hfrom

/-- What the client may rely on: that the hellos led to an agreement, and that
its own certificates are there. -/
def clientMay (lib : Libcrypto X509 Pkey) (c s : SSL X509 Pkey) :
    Event (ClientAnswers X509 Pkey) → Prop
  | .write _ => Equipped c
  | .recv .serverHello body ans =>
    ∀ t, (readMessage lib (client lib) .serverHello body ans).run c = .ok () t → t.agreed = s.agreed
  | _ => True

/-- **The client keeps to the flow**, next to anyone whose flags are those of
the flow while its first flight is under way. -/
theorem client_follows (lib : Libcrypto X509 Pkey) {W : View (SSL X509 Pkey) Stage Msg}
    (hW : ∀ {u h f}, W.At u h → h.ofFlight f → u.agreed = f) :
    (client lib).Follows lib .left ClientAt Synced W (clientMay lib) where
  live hat := hat.turn.imp_right And.left
  waits hat hread _ := by
    rcases hat.turn with hw | hr
    · simp [hread] at hw
    · exact hr.2
  enter {s t} henter hquiet := by
    obtain ⟨_, _, htrace, hhand, hwriting, _, _, _, _, hsteers⟩ := enterFresh_client henter
    simp only [SSL.clientSteers, Prod.mk.injEq] at hsteers
    obtain ⟨_, _, hreq, hskip, hren⟩ := hsteers
    have hinv := (client_keeps lib (C := anyEvent)).fresh s t henter
    exact ⟨⟨hinv, hren.trans hquiet, hskip, hhand, .inl hwriting, by simp [Stage.agreed], hreq,
      by simp⟩, htrace, hwriting⟩
  post hat hread _ hround := by
    have hpost := client_postProcessRound_ok hround
    exact hat.posted hread hpost (hat.inv.posted hread hpost)
  write hat hc hwrite hround := by
    have hw := client_writeRound_ok hat.inv.client hat.inv.writeState hround
    exact hat.wrote hwrite hc hw (hat.inv.wrote hwrite hw)
  read {s t u g g' h mt body ans queue} hat hturn hnext hsent hu hc hread _ hround := by
    have hr := client_readMessage_ok hround
    refine ⟨hat.read hread hturn hnext hr (hat.inv.read hread hr) ?_, [], by simp, hr.trace⟩
    intro f hf
    subst hf
    cases hnext with
    | serverHello =>
      have hflight : h.ofFlight f := Stage.ofFlight_sent (g := .serverHello f) rfl hsent
      exact (hc t hround).trans (hW hu hflight)

end Tlcp
