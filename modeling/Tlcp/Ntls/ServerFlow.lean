import Tlcp.Ntls.Flow

/-!
# Tlcp.Ntls.ServerFlow

The NTLS server keeps to the flow of a handshake.
-/

namespace Tlcp

open Octets Duplex Fallible

variable {X509 Pkey : Type} {lib : Libcrypto X509 Pkey} {s t : SSL X509 Pkey}
  {ans : ServerAnswers X509} {g g' : Stage} {mt : MsgType} {body : Bytes}

/-- The state of the server's machine at a stage. -/
def serverHand : Stage → HandState
  | .start => .before
  | .clientHello => .srClntHello
  | .serverHello _ => .swSrvrHello
  | .certificate _ => .swCert
  | .certificateStatus _ => .swCertStatus
  | .serverKeyExchange _ => .swKeyExch
  | .certificateRequest _ => .swCertReq
  | .serverDone _ _ => .swSrvrDone
  | .clientCertificate _ _ => .srCert
  | .clientKeyExchange _ _ => .srKeyExch
  | .certificateVerify _ => .srCertVrfy
  | .clientChange _ => .srChange
  | .nextProto _ => .srNextProto
  | .clientFinished _ => .srFinished
  | .newSessionTicket _ => .swSessionTicket
  | .serverChange _ => .swChange
  | .serverFinished _ => .swFinished

/-- Whether the server has asked for a certificate, and whether it has one. -/
def ServerKnows (certRequest peer : Bool) : Stage → Prop
  | .start | .clientHello => certRequest = false
  | .serverHello f => certRequest = false ∧ (f.hit = false → peer = false)
  | .certificate _ | .certificateStatus _ | .serverKeyExchange _ =>
    certRequest = false ∧ peer = false
  | .certificateRequest _ => certRequest = true ∧ peer = false
  | .serverDone _ asked => certRequest = asked ∧ peer = false
  | .clientCertificate _ given | .clientKeyExchange _ given => peer = given
  | _ => True

/-- The session and the cipher are chosen. -/
def Chosen (s : SSL X509 Pkey) : Prop :=
  HelloFresh s ∧ (s.hit = false → ∃ c : NtlsCipher, s.s3.tmp.newCipher = some c.1)

/-- The server reads no ServerHello, and sends none with the random of a
HelloRetryRequest. -/
structure HellosKept (tr : List (Obs X509)) : Prop where
  read : ∀ b, .accepted .serverHello b ∉ tr
  sent : ∀ b, .sent .serverHello b ∈ tr → ¬ isHrr .serverHello b

/-- The server is at a stage of a handshake. -/
structure ServerAt (s : SSL X509 Pkey) (g : Stage) : Prop where
  inv : ServerInv s
  quiet : s.renegotiate = false
  hand : s.statem.handState = serverHand g
  turn : s.statem.state = .writing ∨ (s.statem.state = .reading ∧
    (g.turn = some .left ∨ (g = .clientHello ∧ s.statem.readState ≠ .header)))
  first : g = .start ∨ g = .clientHello → s.isFirstHandshake = true
  fresh : g = .clientHello → s.statem.readState = .postProcess .moreB → HelloFresh s
  chosen : g = .clientHello → s.statem.state = .writing → Chosen s
  agreed : ∀ f, g.agreed = some f → s.agreed = f ∧ s.s3.tmp.newCipher.isSome ∧
    (f.hit = false → ∃ c : NtlsCipher, s.s3.tmp.newCipher = some c.1)
  knows : ServerKnows s.s3.tmp.certRequest s.session.peer.isSome g
  change : ∀ f, g = .clientChange f ∨ g = .nextProto f → s.s3.changeCipherSpec = true
  hellos : HellosKept s.trace

/-- What the server read is at the end of its history. -/
theorem ServerRead.trace (h : ServerRead lib s t mt body) :
    mt ≠ .serverHello ∧ ∃ chains, (∀ o ∈ chains, ∃ sk i, o = .chain sk i) ∧
      t.trace = s.trace ++ (chains ++ [.accepted mt body]) := by
  cases h with
  | hello _ _ _ _ ret _ hret _ ht =>
    refine ⟨by simp, [], by simp, ?_⟩
    rw [ht]
    rcases hret with hret | hret <;> simp [hret, SSL.afterProcess]
  | noCertificate _ _ _ _ _ _ _ _ ht =>
    obtain ⟨_, ht⟩ := ht
    exact ⟨by simp, [], by simp, by rw [ht]; rfl⟩
  | certificate _ certs i j _ _ _ _ _ _ _ _ ht =>
    obtain ⟨_, ht⟩ := ht
    exact ⟨by simp, [.chain (pushShift certs) i, .chain certs j], by simp, by rw [ht]; rfl⟩
  | keyExchange _ _ _ _ _ _ _ ht =>
    obtain ⟨_, _, ht⟩ := ht
    exact ⟨by simp, [], by simp, by rw [ht]; rfl⟩
  | certVerify _ _ _ _ _ _ _ _ ht =>
    obtain ⟨_, ht⟩ := ht
    exact ⟨by simp, [], by simp, by rw [ht]; rfl⟩
  | change _ ht => exact ⟨by simp, [], by simp, by rw [ht]; rfl⟩
  | nextProto _ _ _ _ _ ht => exact ⟨by simp, [], by simp, by rw [ht]; rfl⟩
  | finished _ _ _ _ _ ht =>
    obtain ⟨_, ht⟩ := ht
    exact ⟨by simp, [], by simp, by rw [ht]; rfl⟩

/-- An empty list of certificates has one encoding. -/
theorem parseClientCertificate_nil :
    parseClientCertificate lib body = .ok [] ↔ body = noCertificates := by
  constructor
  · intro h
    simp only [parseClientCertificate, except_bind_ok, orFatal_eq_ok, require_eq_ok] at h
    obtain ⟨⟨spkt, rest⟩, hfront, _, hrest, hitems⟩ := h
    have hspkt : spkt = [] := by
      cases reads_of_readAll hitems
      rfl
    dsimp only at hrest
    rw [hspkt, hrest] at hfront
    obtain ⟨hbody, _⟩ := getPrefixed_eq_some_iff.mp hfront
    rw [hbody]
    rfl
  · intro h
    have hfront : getPrefixed 3 noCertificates = some ([], []) := by decide
    rw [h, parseClientCertificate, hfront]
    rfl

/-- A message of the client moves the server on. -/
theorem ServerAt.read (hat : ServerAt s g) (hst : s.statem.state = .reading)
    (hturn : g.turn = some .left) (hnext : g.Next (mt, body) g')
    (hread : ServerRead lib s t mt body) (hinv : ServerInv t) : ServerAt t g' := by
  obtain ⟨hmt, chains, hchains, htrace⟩ := hread.trace
  have hhellos : HellosKept t.trace := by
    constructor
    · intro b hb
      rw [htrace, List.mem_append, List.mem_append, List.mem_singleton] at hb
      rcases hb with hold | hnew | hlast
      · exact hat.hellos.read b hold
      · obtain ⟨sk, i, hchain⟩ := hchains _ hnew
        simp at hchain
      · injection hlast with hlast
        exact hmt hlast.symm
    · intro b hb
      rw [htrace, List.mem_append, List.mem_append, List.mem_singleton] at hb
      rcases hb with hold | hnew | hlast
      · exact hat.hellos.sent b hold
      · obtain ⟨sk, i, hchain⟩ := hchains _ hnew
        simp at hchain
      · simp at hlast
  have hknows := hat.knows
  cases hread with
  | hello b dg bf ch ret _ hret _ ht =>
    cases hnext with
    | clientHello =>
      have hfirst := hat.first (.inl rfl)
      have hret : ret = .continueProcessing := by
        simp [hfirst] at hret
        exact hret
      subst hret ht
      exact ⟨hinv, hat.quiet, rfl, .inr ⟨hst, .inr ⟨rfl, by simp [SSL.afterProcess]⟩⟩,
        fun _ => hfirst, by simp [SSL.afterProcess], by simp [SSL.afterProcess, hst],
        by simp [Stage.agreed], hknows, by simp, hhellos⟩
  | noCertificate b dg bf _ _ _ hparse _ ht =>
    obtain ⟨vr, ht⟩ := ht
    cases hnext with
    | certificate f => simp [Stage.turn] at hturn
    | clientCertificate f =>
      have hb := parseClientCertificate_nil.mp hparse
      subst ht
      exact ⟨hinv, hat.quiet, rfl, .inr ⟨hst, .inl rfl⟩, by simp, by simp, by simp, hat.agreed,
        by simp [ServerKnows, hb], by simp, hhellos⟩
  | certificate b certs i j dg bf _ hparse hlen _ _ _ ht =>
    obtain ⟨vr, ht⟩ := ht
    cases hnext with
    | certificate f => simp [Stage.turn] at hturn
    | clientCertificate f =>
      have hb : body ≠ noCertificates := by
        intro hb
        rw [parseClientCertificate_nil.mpr hb] at hparse
        injection hparse with hparse
        simp [← hparse] at hlen
      have hpeer : certs.head?.isSome = true := by
        cases certs with
        | nil => simp at hlen
        | cons x xs => rfl
      subst ht
      exact ⟨hinv, hat.quiet, rfl, .inr ⟨hst, .inl rfl⟩, by simp, by simp, by simp, hat.agreed,
        by simp only [ServerKnows, hpeer, hb, ne_eq, not_false_eq_true, decide_true], by simp,
        hhellos⟩
  | keyExchange b dg dg' bf _ _ _ ht =>
    obtain ⟨kex, mk, ht⟩ := ht
    subst ht
    cases hnext with
    | clientKeyExchange f =>
      exact ⟨hinv, hat.quiet, rfl, .inr ⟨hst, .inl rfl⟩, by simp, by simp, by simp, hat.agreed,
        hknows.2, by simp, hhellos⟩
    | clientKeyExchangeAfter f =>
      exact ⟨hinv, hat.quiet, rfl, .inr ⟨hst, .inl rfl⟩, by simp, by simp, by simp, hat.agreed,
        hknows, by simp, hhellos⟩
  | certVerify b peer dg bf _ _ _ _ ht =>
    obtain ⟨lu, ht⟩ := ht
    subst ht
    cases hnext with
    | verify f =>
      exact ⟨hinv, hat.quiet, rfl, .inr ⟨hst, .inl rfl⟩, by simp, by simp, by simp, hat.agreed,
        trivial, by simp, hhellos⟩
  | change _ ht =>
    subst ht
    cases hnext with
    | clientChange f | clientChangeAfter f | clientChangeLast f =>
      exact ⟨hinv, hat.quiet, rfl, .inr ⟨hst, .inl rfl⟩, by simp, by simp, by simp, hat.agreed,
        trivial, fun _ _ => rfl, hhellos⟩
    | serverChange f => simp [Stage.turn] at hturn
    | serverChangeLast f _ h => simp [Stage.turn, h] at hturn
    | serverChangeAfter f => simp [Stage.turn] at hturn
  | nextProto b dg bf _ _ ht =>
    subst ht
    cases hnext with
    | nextProto f =>
      exact ⟨hinv, hat.quiet, rfl, .inr ⟨hst, .inl rfl⟩, by simp, by simp, by simp, hat.agreed,
        trivial, fun _ _ => hat.change f (.inl rfl), hhellos⟩
  | finished b ci _ _ _ ht =>
    obtain ⟨cl, ht⟩ := ht
    subst ht
    cases hnext with
    | clientFinished f | clientFinishedAfter f =>
      exact ⟨hinv, hat.quiet, rfl, .inl rfl, by simp, by simp, by simp, hat.agreed,
        trivial, by simp, hhellos⟩
    | serverFinished f => simp [Stage.turn] at hturn

/-- A round of the choice for a ClientHello. -/
theorem ServerAt.chose {wst r : Work} {s₁ : SSL X509 Pkey} (hat : ServerAt s .clientHello)
    (hst : s.statem.state = .reading) (hwst : s.statem.readState = .postProcess wst)
    (hpost : (tlsPostProcessClientHello ans wst).run s = .ok r s₁)
    (hinv : ServerInv (SSL.afterWork r s₁)) :
    ServerAt (SSL.afterWork r s₁) .clientHello ∧ (SSL.afterWork r s₁).trace = s.trace := by
  have hmore := hat.inv.post hst wst hwst
  obtain ⟨hframe, hchoice⟩ := tlsPostProcessClientHello_ok hmore hpost
  have hfresh := tlsPostProcessClientHello_fresh hmore (fun hB => hat.fresh rfl (hB ▸ hwst)) hpost
  have hhand : s₁.statem.handState = .srClntHello := by rw [hframe.statem, hat.hand]; rfl
  have hstate : s₁.statem.state = .reading := by rw [hframe.statem, hst]
  have hfirst : s₁.isFirstHandshake = true := hframe.first.trans (hat.first (.inr rfl))
  have hknows : s₁.s3.tmp.certRequest = false := hframe.certRequest.trans hat.knows
  have hquiet := hframe.renegotiate.trans hat.quiet
  have hhellos : HellosKept s₁.trace := hframe.trace ▸ hat.hellos
  rcases hchoice with ⟨hr, _⟩ | ⟨hr, _, hcipher⟩
  · -- a callback asks to be called again
    rcases hr with hr | hr
    · subst hr
      exact ⟨⟨hinv, hquiet, hhand, .inr ⟨hstate, .inr ⟨rfl, by simp [SSL.afterWork]⟩⟩,
        fun _ => hfirst, by simp [SSL.afterWork], by simp [SSL.afterWork, hstate],
        by simp [Stage.agreed], hknows, by simp, hhellos⟩, hframe.trace⟩
    · subst hr
      have hf : HelloFresh s₁ := hfresh.resolve_left (by simp)
      exact ⟨⟨hinv, hquiet, hhand, .inr ⟨hstate, .inr ⟨rfl, by simp [SSL.afterWork]⟩⟩,
        fun _ => hfirst, fun _ _ => hf, by simp [SSL.afterWork, hstate],
        by simp [Stage.agreed], hknows, by simp, hhellos⟩, hframe.trace⟩
  · subst hr
    have hf : HelloFresh s₁ := hfresh.resolve_left (by simp)
    exact ⟨⟨hinv, hquiet, hhand, .inl rfl, fun _ => hfirst, fun _ _ => hf,
      fun _ _ => ⟨hf, hcipher⟩, by simp [Stage.agreed], hknows, by simp,
      hhellos⟩, hframe.trace⟩

/-- Post-processing leaves the server at its stage. -/
theorem ServerAt.posted {wst : Work} (hat : ServerAt s g) (hst : s.statem.state = .reading)
    (hwst : s.statem.readState = .postProcess wst)
    (hround : (postProcessRound (server lib) wst ans).run s = .ok () t) (hinv : ServerInv t) :
    ServerAt t g ∧ t.trace = s.trace := by
  have hhand := hat.hand
  obtain ⟨r, s₁, hpost, ht⟩ := postProcessRound_ok hround
  have hpost' : (serverPostProcess ans wst).run s = .ok r s₁ := hpost
  rw [serverPostProcess, run_get_bind_ok] at hpost'
  split at hpost'
  · next hfrom =>
    rw [hhand] at hfrom
    cases g with
    | clientHello =>
      subst ht
      exact hat.chose hst hwst hpost' hinv
    | _ => simp [serverHand] at hfrom
  · next hfrom =>
    obtain ⟨hr, hs₁⟩ := tlsPostProcessClientKeyExchange_ok hpost'
    subst hr ht hs₁
    rw [hhand] at hfrom
    cases g with
    | clientKeyExchange f given =>
      exact ⟨⟨hinv, hat.quiet, hhand, .inr ⟨hst, .inl rfl⟩, by simp, by simp, by simp,
        hat.agreed, hat.knows, by simp, hat.hellos⟩, rfl⟩
    | _ => simp [serverHand] at hfrom
  · exact (run_throw_ok.mp hpost').elim

/-- To send `body` in state `h` is what the flow has at stage `g`, and the stage
behind it fits what the server knows then. -/
def ServerNext (s : SSL X509 Pkey) (g : Stage) (h : HandState) (body : Bytes) : Prop :=
  g.turn = some .right ∧ ∃ g', g.Next (serverMsgType h, body) g' ∧ serverHand g' = h ∧
    (g'.agreed = some s.agreed) ∧ (g.agreed = none → g = .clientHello) ∧
    ServerKnows (s.s3.tmp.certRequest || decide (h = .swCertReq)) s.session.peer.isSome g' ∧
    ∀ f, g' ≠ .clientChange f ∧ g' ≠ .nextProto f

variable {h : HandState} {f : Agreed}

theorem ServerAt.nextHello (body : Bytes) (hat : ServerAt s .clientHello)
    (hst : s.statem.state = .writing) (hnext : serverWriteNext s = .ok (some h)) :
    ServerNext s .clientHello h body := by
  have hhand := hat.hand
  have hknows := hat.knows
  have hh : .swSrvrHello = h := by
    simpa [serverWriteNext, hhand, serverHand, hat.first (.inr rfl)] using hnext
  subst hh
  obtain ⟨⟨hpeer, _⟩, _⟩ := hat.chosen rfl hst
  have hreq : s.s3.tmp.certRequest = false := hknows
  refine ⟨rfl, _, .serverHello s.agreed body, rfl, rfl, fun _ => rfl, ?_, by simp⟩
  refine ⟨by simp [hreq], fun hhit => ?_⟩
  have hhit' : s.hit = false := hhit
  rw [hpeer.resolve_left (by simp [hhit'])]
  rfl

theorem ServerAt.nextAfterHello (body : Bytes)
    (hat : ServerAt s (.serverHello f)) (hnext : serverWriteNext s = .ok (some h)) :
    ServerNext s (.serverHello f) h body := by
  have hhand := hat.hand
  have hknows := hat.knows
  obtain ⟨hf, _, hcipher⟩ := hat.agreed f rfl
  subst hf
  cases hhit : s.hit with
  | true =>
    cases hticket : s.ext.ticketExpected with
    | true =>
      have hh : .swSessionTicket = h := by
        simpa [serverWriteNext, hhand, serverHand, hhit, hticket] using hnext
      subst hh
      exact ⟨rfl, _, .ticket _ body hhit hticket, rfl, rfl, by simp [Stage.agreed], trivial,
        by simp⟩
    | false =>
      have hh : .swChange = h := by
        simpa [serverWriteNext, hhand, serverHand, hhit, hticket] using hnext
      subst hh
      exact ⟨rfl, _, .serverChange _ body hhit hticket, rfl, rfl, by simp [Stage.agreed],
        trivial, by simp⟩
  | false =>
    obtain ⟨c, hc⟩ := hcipher hhit
    have hauth : ¬ hasBit s.auth (Auth.aNULL ||| Auth.aSRP ||| Auth.aPSK) := by
      rw [SSL.auth, hc]
      exact c.auth_certificate.2.2.2
    have hh : .swCert = h := by
      simpa [serverWriteNext, hhand, serverHand, hhit, hauth] using hnext
    subst hh
    exact ⟨rfl, _, .certificate _ body hhit, rfl, rfl, by simp [Stage.agreed],
      ⟨by simp [hknows.1], hknows.2 hhit⟩, by simp⟩

theorem ServerAt.nextAfterCertificate (body : Bytes)
    (hat : ServerAt s (.certificate f)) (hnext : serverWriteNext s = .ok (some h)) :
    ServerNext s (.certificate f) h body := by
  have hhand := hat.hand
  have hknows := hat.knows
  obtain ⟨hf, _⟩ := hat.agreed f rfl
  subst hf
  cases hstatus : s.ext.statusExpected with
  | true =>
    have hh : .swCertStatus = h := by
      simpa [serverWriteNext, hhand, serverHand, hstatus] using hnext
    subst hh
    exact ⟨rfl, _, .status _ body hstatus, rfl, rfl, by simp [Stage.agreed],
      ⟨by simp [hknows.1], hknows.2⟩, by simp⟩
  | false =>
    have hh : .swKeyExch = h := by
      simpa [serverWriteNext, hhand, serverHand, hstatus] using hnext
    subst hh
    exact ⟨rfl, _, .keyExchange _ body hstatus, rfl, rfl, by simp [Stage.agreed],
      ⟨by simp [hknows.1], hknows.2⟩, by simp⟩

theorem ServerAt.nextAfterKeyExchange (body : Bytes)
    (hat : ServerAt s (.serverKeyExchange f)) (hnext : serverWriteNext s = .ok (some h)) :
    ServerNext s (.serverKeyExchange f) h body := by
  have hhand := hat.hand
  have hknows := hat.knows
  obtain ⟨hf, _⟩ := hat.agreed f rfl
  subst hf
  by_cases hsend : sendCertificateRequest s
  · have hh : .swCertReq = h := by
      simpa [serverWriteNext, hhand, serverHand, hsend] using hnext
    subst hh
    exact ⟨rfl, _, .request _ body, rfl, rfl, by simp [Stage.agreed],
      ⟨by simp, hknows.2⟩, by simp⟩
  · have hh : .swSrvrDone = h := by
      simpa [serverWriteNext, hhand, serverHand, hsend] using hnext
    subst hh
    exact ⟨rfl, _, .done _ body, rfl, rfl, by simp [Stage.agreed],
      ⟨by simp [hknows.1], hknows.2⟩, by simp⟩

theorem ServerAt.nextAfterFinished (body : Bytes)
    (hat : ServerAt s (.clientFinished f)) (hnext : serverWriteNext s = .ok (some h)) (hne : h ≠ .ok) :
    ServerNext s (.clientFinished f) h body := by
  have hhand := hat.hand
  obtain ⟨hf, _⟩ := hat.agreed f rfl
  subst hf
  cases hhit : s.hit with
  | true =>
    have hh : .ok = h := by simpa [serverWriteNext, hhand, serverHand, hhit] using hnext
    exact absurd hh.symm hne
  | false =>
    have hturn : Stage.turn (.clientFinished s.agreed) = some .right := by
      simp [Stage.turn, SSL.agreed, hhit]
    cases hticket : s.ext.ticketExpected with
    | true =>
      have hh : .swSessionTicket = h := by
        simpa [serverWriteNext, hhand, serverHand, hhit, hticket] using hnext
      subst hh
      exact ⟨hturn, _, .ticketLast _ body hhit hticket, rfl, rfl, by simp [Stage.agreed],
        trivial, by simp⟩
    | false =>
      have hh : .swChange = h := by
        simpa [serverWriteNext, hhand, serverHand, hhit, hticket] using hnext
      subst hh
      exact ⟨hturn, _, .serverChangeLast _ body hhit hticket, rfl, rfl,
        by simp [Stage.agreed], trivial, by simp⟩

/-- What the server may send next is what the flow has at its stage. -/
theorem ServerAt.next (body : Bytes) (hat : ServerAt s g)
    (hst : s.statem.state = .writing) (hnext : serverWriteNext s = .ok (some h)) (hne : h ≠ .ok) :
    ServerNext s g h body := by
  have hhand := hat.hand
  have hknows := hat.knows
  cases g with
  | clientHello => exact hat.nextHello body hst hnext
  | serverHello f => exact hat.nextAfterHello body hnext
  | certificate f => exact hat.nextAfterCertificate body hnext
  | certificateStatus f =>
    obtain ⟨hf, _⟩ := hat.agreed f rfl
    subst hf
    have hh : .swKeyExch = h := by simpa [serverWriteNext, hhand, serverHand] using hnext
    subst hh
    exact ⟨rfl, _, .keyExchangeAfter _ body, rfl, rfl, by simp [Stage.agreed],
      ⟨by simp [hknows.1], hknows.2⟩, by simp⟩
  | serverKeyExchange f => exact hat.nextAfterKeyExchange body hnext
  | certificateRequest f =>
    obtain ⟨hf, _⟩ := hat.agreed f rfl
    subst hf
    have hh : .swSrvrDone = h := by simpa [serverWriteNext, hhand, serverHand] using hnext
    subst hh
    exact ⟨rfl, _, .doneAfter _ body, rfl, rfl, by simp [Stage.agreed],
      ⟨by simp [hknows.1], hknows.2⟩, by simp⟩
  | clientFinished f => exact hat.nextAfterFinished body hnext hne
  | newSessionTicket f =>
    obtain ⟨hf, _⟩ := hat.agreed f rfl
    subst hf
    have hh : .swChange = h := by simpa [serverWriteNext, hhand, serverHand] using hnext
    subst hh
    exact ⟨rfl, _, .serverChangeAfter _ body, rfl, rfl, by simp [Stage.agreed], trivial, by simp⟩
  | serverChange f =>
    obtain ⟨hf, _⟩ := hat.agreed f rfl
    subst hf
    have hh : .swFinished = h := by simpa [serverWriteNext, hhand, serverHand] using hnext
    subst hh
    exact ⟨rfl, _, .serverFinished _ body, rfl, rfl, by simp [Stage.agreed], trivial, by simp⟩
  | serverFinished f =>
    have hh : .ok = h := by
      simp only [serverWriteNext, hhand, serverHand] at hnext
      split at hnext
      · simp at hnext
      · simpa using hnext
    exact absurd hh.symm hne
  | _ => simp [serverWriteNext, hhand, serverHand] at hnext


/-- The random of a ServerHello is the one of the object. -/
theorem ServerHelloWith.not_isHrr (h : ServerHelloWith s body)
    (hlen : s.s3.serverRandom.length = ssl3RandomSize) (hne : s.s3.serverRandom ≠ hrrrandom) :
    ¬ isHrr .serverHello body := by
  obtain ⟨_, rest, hbody⟩ := h
  intro hhrr
  obtain ⟨_, _, hrandom⟩ := hhrr
  rw [hbody, List.append_assoc, List.drop_left' (length_putUint 2 _), List.take_left' hlen]
    at hrandom
  exact hne hrandom

/-- The random that the server drew is the mark of a HelloRetryRequest. -/
def Marked (s : SSL X509 Pkey) : Prop :=
  s.statem.handState = .srClntHello ∧ s.s3.serverRandom = hrrrandom

/-- The ServerHello is what follows the ClientHello. -/
theorem ServerAt.hello_iff (hat : ServerAt s g)
    (hnext : serverWriteNext s = .ok (some h)) : h = .swSrvrHello ↔ g = .clientHello := by
  have hhand := hat.hand
  constructor
  · intro hh
    subst hh
    have hfrom : s.statem.handState = .srClntHello := by simpa using serverWriteNext_some hnext
    rw [hhand] at hfrom
    cases g <;> simp [serverHand] at hfrom
    rfl
  · intro hg
    subst hg
    have hh : .swSrvrHello = h := by
      simpa [serverWriteNext, hhand, serverHand, hat.first (.inr rfl)] using hnext
    exact hh.symm

theorem serverMsgType_eq_serverHello (h : HandState) :
    serverMsgType h = .serverHello ↔ h = .swSrvrHello := by
  cases h <;> simp [serverMsgType]

/-- A message of the server moves it on. -/
theorem ServerAt.sent (hat : ServerAt s g) (hst : s.statem.state = .writing)
    (hrandom : ¬ Marked s) (hnext : serverWriteNext s = .ok (some h)) (hne : h ≠ .ok)
    (hsent : ServerSent s t h) (hinv : ServerInv t) :
    ∃ body g', t.trace = s.trace ++ [.sent (serverMsgType h) body] ∧ g.turn = some .right ∧
      g.Next (serverMsgType h, body) g' ∧ ServerAt t g' := by
  obtain ⟨body, htrace, hbody⟩ := hsent.trace
  obtain ⟨hturn, g', hleads, hhand, hagreed, hfirst, hknows, hchange⟩ := hat.next body hst hnext hne
  have hsteers := hsent.steers
  simp only [SSL.serverSteers, Prod.mk.injEq] at hsteers
  obtain ⟨hext, hnpn, _, hquiet⟩ := hsteers
  have hstate : t.statem.state = .writing := by
    rw [hsent.statem]
    exact hst
  have hhello : g' ≠ .start ∧ g' ≠ .clientHello := by
    constructor <;>
    · intro hg
      rw [hg] at hagreed
      simp [Stage.agreed] at hagreed
  have hcipher : s.s3.tmp.newCipher.isSome ∧
      (s.agreed.hit = false → ∃ c : NtlsCipher, s.s3.tmp.newCipher = some c.1) := by
    cases hg : g.agreed with
    | some f =>
      obtain ⟨hf, hcipher⟩ := hat.agreed f hg
      rw [hf]
      exact hcipher
    | none =>
      have hg' := hfirst hg
      obtain ⟨hsome, _⟩ := hbody ((hat.hello_iff hnext).mpr hg')
      exact ⟨hsome, (hat.chosen hg' hst).2⟩
  refine ⟨body, g', htrace, hturn, hleads, hinv, hquiet.trans hat.quiet, ?_, .inl hstate, ?_, ?_,
    ?_, ?_, ?_, ?_, ⟨?_, ?_⟩⟩
  · rw [hsent.statem, hhand]
  · intro hg
    exact (hg.elim hhello.1 hhello.2).elim
  · intro hg
    exact absurd hg hhello.2
  · intro hg
    exact absurd hg hhello.2
  · intro f hf
    rw [hagreed] at hf
    injection hf with hf
    subst hf
    rw [hsent.newCipher]
    refine ⟨?_, hcipher⟩
    rw [SSL.agreed, hsent.hit, hext, hnpn, SSL.agreed]
  · rw [hsent.certRequest, hsent.peer]
    exact hknows
  · intro f hf
    exact (hf.elim (hchange f).1 (hchange f).2).elim
  · intro b hb
    rw [htrace, List.mem_append, List.mem_singleton] at hb
    rcases hb with hold | hnew
    · exact hat.hellos.read b hold
    · simp at hnew
  · intro b hb
    rw [htrace, List.mem_append, List.mem_singleton] at hb
    rcases hb with hold | hnew
    · exact hat.hellos.sent b hold
    · injection hnew with hmt hb
      have hh := (serverMsgType_eq_serverHello h).mp hmt.symm
      have hg := (hat.hello_iff hnext).mp hh
      have hlen := (hat.chosen hg hst).1.2
      have hfrom := hat.hand
      rw [hg] at hfrom
      rw [hb]
      exact (hbody hh).not_isHrr hlen fun hr => hrandom ⟨hfrom, hr⟩

/-- What the flow has next from the client, the server has a transition for. -/
theorem ServerAt.readNext (hat : ServerAt s g) (hturn : g.turn = some .left)
    (hnext : g.Next (mt, body) g') : ∃ h, serverReadTransition s mt = .ok h := by
  have hhand := hat.hand
  have hknows := hat.knows
  have hcv := hat.inv.certVerify
  cases hnext with
  | clientHello => exact ⟨.srClntHello, by simp [serverReadTransition, hhand, serverHand]⟩
  | clientCertificate f =>
    have hreq : s.s3.tmp.certRequest = true := hknows.1
    exact ⟨.srCert, by simp [serverReadTransition, hhand, serverHand, hreq]⟩
  | clientKeyExchange f =>
    have hreq : s.s3.tmp.certRequest = false := hknows.1
    exact ⟨.srKeyExch, by simp [serverReadTransition, hhand, serverHand, hreq]⟩
  | clientKeyExchangeAfter f =>
    exact ⟨.srKeyExch, by simp [serverReadTransition, hhand, serverHand]⟩
  | verify f =>
    have hpeer : s.session.peer.isSome = true := hknows
    have hnone : s.session.peer.isNone = false := by
      rw [Option.isNone_eq_false_iff]
      exact hpeer
    exact ⟨.srCertVrfy, by simp [serverReadTransition, hhand, serverHand, hnone, hcv]⟩
  | clientChange f =>
    have hpeer : s.session.peer.isSome = false := hknows
    have hnone : s.session.peer.isNone = true := Option.isSome_eq_false_iff.mp hpeer
    exact ⟨.srChange, by simp [serverReadTransition, hhand, serverHand, hnone]⟩
  | clientChangeAfter f | clientChangeLast f =>
    exact ⟨.srChange, by simp [serverReadTransition, hhand, serverHand]⟩
  | nextProto f _ hnpn =>
    obtain ⟨hf, _⟩ := hat.agreed f rfl
    subst hf
    have hnpn' : s.s3.npnSeen = true := hnpn
    exact ⟨.srNextProto, by simp [serverReadTransition, hhand, serverHand, hnpn']⟩
  | clientFinished f _ hnpn =>
    obtain ⟨hf, _⟩ := hat.agreed f rfl
    subst hf
    have hnpn' : s.s3.npnSeen = false := hnpn
    exact ⟨.srFinished, by simp [serverReadTransition, hhand, serverHand, hnpn']⟩
  | clientFinishedAfter f => exact ⟨.srFinished, by simp [serverReadTransition, hhand, serverHand]⟩
  | ticketLast f _ hhit | serverChangeLast f _ hhit => simp [Stage.turn, hhit] at hturn
  | _ => simp [Stage.turn] at hturn

theorem expected_of_serverReadTransition (hh : serverReadTransition s mt = .ok h)
    (hcipher : mt = .changeCipherSpec → s.s3.tmp.newCipher.isSome)
    (hchange : mt = .finished → s.s3.changeCipherSpec = true) : Expected (server lib) s mt := by
  refine ⟨⟨{ s with statem.handState := h }, ?_⟩, hcipher, hchange⟩
  simp only [server]
  rw [run_get_bind_ok, run_lift_bind_ok]
  exact ⟨h, hh, rfl⟩

theorem ServerAt.expected (hat : ServerAt s g) (hturn : g.turn = some .left)
    (hnext : g.Next (mt, body) g') : Expected (server lib) s mt := by
  obtain ⟨h, hh⟩ := hat.readNext hturn hnext
  refine expected_of_serverReadTransition hh ?_ ?_
  · intro hmt
    subst hmt
    cases hg : g.agreed with
    | some f => exact (hat.agreed f hg).2.1
    | none => cases hnext <;> simp [Stage.agreed] at hg
  · intro hmt
    subst hmt
    cases hnext with
    | clientFinished f => exact hat.change f (.inl rfl)
    | clientFinishedAfter f => exact hat.change f (.inr rfl)
    | serverFinished f => simp [Stage.turn] at hturn

/-- Before its handshake the server can do with a ClientHello only. -/
theorem Unused.expected (hs : Unused s) (hnext : Stage.start.Next (mt, body) g') :
    Expected (server lib) s mt := by
  have hhand := hs.before.1
  cases hnext with
  | clientHello =>
    have hh : serverReadTransition s .clientHello = .ok .srClntHello := by
      simp [serverReadTransition, hhand]
    exact expected_of_serverReadTransition hh (by simp) (by simp)

/-! ## the machine -/

/-- Writing, the server keeps to the flow. -/
theorem ServerAt.wrote (hat : ServerAt s g) (hst : s.statem.state = .writing)
    (hrandom : ¬ Marked s) (hw : ServerWrote s t) (hinv : ServerInv t) :
    (t.trace = s.trace ∧ ((ServerAt t g ∧ t.statem.state = .reading ∧
        t.statem.readState = .header) ∨
          (g.turn = none ∧ Established t ∧ Synced t ∧ HellosKept t.trace))) ∨
      ∃ mt body g', t.trace = s.trace ++ [.sent mt body] ∧ g.turn = some .right ∧
        g.Next (mt, body) g' ∧ ServerAt t g' := by
  have hhand := hat.hand
  cases hw with
  | setup hfrom =>
    rw [hhand] at hfrom
    cases g <;> simp [serverHand] at hfrom
  | request hfrom =>
    rw [hhand] at hfrom
    cases g <;> simp [serverHand] at hfrom
  | turn hnext ht =>
    have hturn : g.turn = some .left := by
      rcases serverWriteNext_none hnext with hbefore | hdone | ⟨hfin, hhit⟩
      · rw [hhand] at hbefore
        cases g <;> simp [serverHand] at hbefore
        rfl
      · rw [hhand] at hdone
        cases g <;> simp [serverHand] at hdone
        rfl
      · rw [hhand] at hfin
        cases g <;> simp [serverHand] at hfin
        next f =>
          have hf : s.hit = f.hit := congrArg Agreed.hit (hat.agreed f rfl).1
          simp [Stage.turn, ← hf, hhit]
    have hg : g ≠ .clientHello := by
      intro hg
      rw [hg] at hturn
      simp [Stage.turn] at hturn
    subst ht
    exact .inl ⟨rfl, .inl ⟨⟨hinv, hat.quiet, hhand, .inr ⟨rfl, .inl hturn⟩, hat.first,
      fun h => absurd h hg, fun h => absurd h hg, hat.agreed, hat.knows, hat.change, hat.hellos⟩, rfl, rfl⟩⟩
  | done hend ht =>
    have hturn : g.turn = none := by
      have hfrom : s.statem.handState = .swHelloReq ∨
          (s.statem.handState = .srClntHello ∧ s.isFirstHandshake = false) ∨
          (s.statem.handState = .srFinished ∧ s.hit = true) ∨
          (s.statem.handState = .swFinished ∧ s.hit = false) := by
        simpa using serverWriteNext_some hend
      rw [hhand] at hfrom
      rcases hfrom with hreq | ⟨hhello, hfirst⟩ | ⟨hfin, hhit⟩ | ⟨hfin, hhit⟩
      · cases g <;> simp [serverHand] at hreq
      · cases g <;> simp [serverHand] at hhello
        simp [hat.first (.inr rfl)] at hfirst
      all_goals
        cases g <;> simp [serverHand] at hfin
        next f =>
          have hf : s.hit = f.hit := congrArg Agreed.hit (hat.agreed f rfl).1
          simp [Stage.turn, ← hf, hhit]
    obtain ⟨ren, cl, te, ht⟩ := ht
    subst ht
    exact .inl ⟨rfl, .inr ⟨hturn, ⟨rfl, rfl, rfl⟩, hinv.synced, hat.hellos⟩⟩
  | sent h hnext hne hsent =>
    obtain ⟨body, g', htrace, hturn, hleads, hat'⟩ := hat.sent hst hrandom hnext hne hsent hinv
    exact .inr ⟨_, body, g', htrace, hturn, hleads, hat'⟩

/-- What the server may rely on: that its random is no mark. -/
def serverMay (s _c : SSL X509 Pkey) : Event (ServerAnswers X509) → Prop
  | .write _ => ¬ Marked s
  | _ => True

/-- **The server keeps to the flow**, next to anyone. -/
theorem server_follows (lib : Libcrypto X509 Pkey) (W : View (SSL X509 Pkey) Stage Msg) :
    (server lib).Follows lib .right ServerAt (fun s => Synced s ∧ HellosKept s.trace) W serverMay where
  live hat := hat.turn.imp_right And.left
  waits hat hread hheader := by
    rcases hat.turn with hw | ⟨_, hleft | ⟨_, hpost⟩⟩
    · simp [hread] at hw
    · exact hleft
    · exact absurd hheader hpost
  enter {s t} henter hquiet := by
    have hinv := (server_keeps lib).fresh s t henter
    have ht := enterFresh_server henter
    subst ht
    exact ⟨⟨hinv, hquiet, rfl, .inl rfl, fun _ => rfl, by simp, by simp, by simp [Stage.agreed],
      rfl, by simp, ⟨by simp [sslClear], by simp [sslClear]⟩⟩, rfl, rfl⟩
  post {s t g wst ans} hat hread hpost hround := by
    have hposted := server_postProcessRound_ok (hat.inv.post hread wst hpost) hround
    obtain ⟨hat', htrace⟩ := hat.posted hread hpost hround (hat.inv.posted hread hposted)
    exact ⟨hat', [], by simp, htrace.trans (List.append_nil _).symm⟩
  write hat hc hwrite hround := by
    have hw := server_writeRound_ok hat.inv.server hat.inv.writeState hround
    exact hat.wrote hwrite hc hw (hat.inv.wrote hwrite hw)
  read hat hturn hnext _ _ _ hread hheader hround := by
    have hr := server_readMessage_ok hround
    exact ⟨hat.read hread hturn hnext hr (hat.inv.read hread hheader hr), hr.trace.2⟩

end Tlcp
