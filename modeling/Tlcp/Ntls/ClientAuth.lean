import Tlcp.Ntls.ClientSteps

/-!
# Tlcp.Ntls.ClientAuth

How the NTLS client authenticates the server, for every order of messages
that a server may send.

A history in which a client may send its ClientKeyExchange is built up in
layers: `Hellos` (the ServerHello names a cipher of the ClientHello),
`Certified` (the Certificate message was read and, if the client verifies,
both chains of it were good), `Signed` (the ServerKeyExchange is signed with
the first certificate of that message) and `Vouched` (the ServerHelloDone
came).  `Confirmed` adds the server's Finished.

The client keeps to this order in every run whose events are `steady`.  Two
things break it: a verifier that asks for a retry on the first of the two
chains leaves the list of certificates rotated, and a session that was offered
without an id keeps the certificate of the server it came from.
-/

namespace Tlcp

open Octets Fallible

variable {X509 Pkey : Type} {lib : Libcrypto X509 Pkey} {s t : SSL X509 Pkey}
  {ans : ClientAnswers X509 Pkey} {mt : MsgType} {body : Bytes}

/-! ## histories -/

/-- The last thing in `tr` is a ServerHello that names the cipher `c`, which the
ClientHello in front of it offered. -/
def Hellos (tr : List (Obs X509)) (c : NtlsCipher) (clientRandom serverRandom : Bytes) : Prop :=
  ∃ before ch sh hello ciphers, tr = before ++ [.sent .clientHello ch, .accepted .serverHello sh] ∧
      HelloWith ciphers clientRandom ch ∧ c ∈ ciphers ∧ parseServerHello sh = .ok hello ∧
      hello.random = serverRandom ∧ c.1.id % 65536 = hello.cipher

variable (lib)

/-- After the hellos, the Certificate message with `certs` came, and the
verifier was asked as in `chains`. -/
def CertRead (tr : List (Obs X509)) (c : NtlsCipher)
    (clientRandom serverRandom : Bytes) (certs : List X509) (chains : List (Obs X509)) : Prop :=
  ∃ tr₀ cb, Hellos tr₀ c clientRandom serverRandom ∧
    tr = tr₀ ++ .accepted .certificate cb :: chains ∧
    (∀ o ∈ chains, ∃ sk i, o = .chain sk i) ∧ parseServerCertificate lib cb = .ok certs

/-- The verifier's last two answers were about the two chains, and good. -/
def BothVerified (certs : List X509) (chains : List (Obs X509)) : Prop :=
  ∃ older i j, chains = older ++ [.chain (pushShift certs) i, .chain certs j] ∧ 0 < i ∧ 0 < j

/-- The Certificate message was read and checked as the verify mode asks. -/
def Certified (mode : Nat) (tr : List (Obs X509)) (c : NtlsCipher)
    (clientRandom serverRandom : Bytes) (certs : List X509) : Prop :=
  ∃ chains, CertRead lib tr c clientRandom serverRandom certs chains ∧
    (mode ≠ Verify.none → BothVerified certs chains)

/-- Then a ServerKeyExchange came, signed with the first certificate of that
message, which is of the suite's type, over the randoms of the hellos and the
parameters of the suite. -/
def Signed (mode : Nat) (tr : List (Obs X509)) : Prop :=
  ∃ tr₀ status kb c clientRandom serverRandom certs leaf,
    Certified lib mode tr₀ c clientRandom serverRandom certs ∧
      (status = [] ∨ ∃ b, status = [.accepted .certificateStatus b]) ∧
      tr = tr₀ ++ status ++ [.accepted .serverKeyExchange kb] ∧
      certs.head? = some leaf ∧ OfType lib c.1.algorithmAuth leaf ∧
      SkeSigned lib c.1 certs clientRandom serverRandom leaf kb

/-- Then the ServerHelloDone came, with or without a CertificateRequest before
it. -/
def FlightDone (mode : Nat) (tr : List (Obs X509)) : Prop :=
  ∃ tr₀ request, Signed lib mode tr₀ ∧
    (request = [] ∨ ∃ b, request = [.accepted .certificateRequest b]) ∧
    tr = tr₀ ++ request ++ [.accepted .serverDone []]

/-- A history after which a client may send its ClientKeyExchange: the server's
flight, and at most the client's own Certificate. -/
def Vouched (mode : Nat) (tr : List (Obs X509)) : Prop :=
  ∃ tr₀ mine, FlightDone lib mode tr₀ ∧
    (mine = [] ∨ ∃ b, mine = [.sent .certificate b]) ∧ tr = tr₀ ++ mine

/-- The ClientKeyExchange was sent to a server that had vouched for itself. -/
def KexSent (mode : Nat) (tr : List (Obs X509)) : Prop :=
  ∃ pre kb post, tr = pre ++ .sent .clientKeyExchange kb :: post ∧ Vouched lib mode pre

/-- Whenever a ClientKeyExchange was sent, the server had vouched for itself. -/
def KexVouched (mode : Nat) (tr : List (Obs X509)) : Prop :=
  ∀ pre kb post, tr = pre ++ .sent .clientKeyExchange kb :: post → Vouched lib mode pre

/-- After the ClientKeyExchange, the server's ChangeCipherSpec came and a
Finished with the expected MAC. -/
def Confirmed (s : SSL X509 Pkey) : Prop :=
  ∃ tr fb rest c, KexSent lib s.verifyMode tr ∧
    s.trace = tr ++ .accepted .changeCipherSpec [] :: .accepted .finished fb :: rest ∧
    s.s3.tmp.newCipher = some c ∧
    fb = finishMac lib c.handshakeMac s.session.masterKey "server finished" (transcriptOf tr)

variable {lib}

variable {mode : Nat} {tr : List (Obs X509)} {o : Obs X509}

theorem KexSent.concat (h : KexSent lib mode tr) (o : Obs X509) : KexSent lib mode (tr ++ [o]) := by
  obtain ⟨pre, kb, post, htr, hpre⟩ := h
  exact ⟨pre, kb, post ++ [o], by rw [htr, List.append_assoc, List.cons_append], hpre⟩

theorem Confirmed.concat (h : Confirmed lib s) {o : Obs X509} (htrace : t.trace = s.trace ++ [o])
    (hmode : t.verifyMode = s.verifyMode) (hcipher : t.s3.tmp.newCipher = s.s3.tmp.newCipher)
    (hkey : t.session.masterKey = s.session.masterKey) : Confirmed lib t := by
  obtain ⟨tr, fb, rest, c, hkex, htr, hc, hfb⟩ := h
  refine ⟨tr, fb, rest ++ [o], c, by rw [hmode]; exact hkex, ?_, hcipher.trans hc, by rw [hkey, hfb]⟩
  rw [htrace, htr, List.append_assoc, List.cons_append, List.cons_append]

theorem KexVouched.nil : KexVouched lib mode ([] : List (Obs X509)) := by
  intro pre kb post h
  simp at h

/-- A history grows by one entry; a ClientKeyExchange needs its reason. -/
theorem KexVouched.concat (h : KexVouched lib mode tr)
    (ho : ∀ kb, o = .sent .clientKeyExchange kb → Vouched lib mode tr) :
    KexVouched lib mode (tr ++ [o]) := by
  intro pre kb post htr
  rcases List.eq_nil_or_concat post with hpost | ⟨post', x, hpost⟩
  · subst hpost
    obtain ⟨hpre, hlast⟩ := List.append_inj' htr rfl
    injection hlast with hlast _
    rw [← hpre]
    exact ho kb hlast
  · subst hpost
    have htr' : tr ++ [o] = (pre ++ .sent .clientKeyExchange kb :: post') ++ [x] := by
      rw [htr]
      simp
    exact h pre kb post' (List.append_inj' htr' rfl).1

theorem KexVouched.accepted (h : KexVouched lib mode tr) (mt : MsgType) (b : Bytes) :
    KexVouched lib mode (tr ++ [.accepted mt b]) :=
  h.concat fun kb hkb => by simp at hkb

theorem KexVouched.chain (h : KexVouched lib mode tr) (sk : List X509) (i : Int) :
    KexVouched lib mode (tr ++ [.chain sk i]) :=
  h.concat fun kb hkb => by simp at hkb

/-- The verifier was asked about two more chains. -/
theorem CertRead.chains {c : NtlsCipher} {cr sr : Bytes} {certs : List X509}
    {chains : List (Obs X509)} (h : CertRead lib tr c cr sr certs chains) (sk sk' : List X509)
    (i j : Int) :
    CertRead lib (tr ++ [.chain sk i, .chain sk' j]) c cr sr certs
      (chains ++ [.chain sk i, .chain sk' j]) := by
  obtain ⟨tr₀, cb, hhellos, htr, hall, hparse⟩ := h
  refine ⟨tr₀, cb, hhellos, by rw [htr, List.append_assoc, List.cons_append], ?_, hparse⟩
  intro o ho
  rw [List.mem_append] at ho
  cases ho with
  | inl hold => exact hall o hold
  | inr hnew =>
    rcases List.mem_pair.mp hnew with hnew | hnew
    · exact ⟨sk, i, hnew⟩
    · exact ⟨sk', j, hnew⟩

/-! ## the object -/

/-- The states of a full handshake from the server's Certificate to the client's. -/
def inFlight : HandState → Prop
  | .crCert | .crCertStatus | .crKeyExch | .crCertReq | .crSrvrDone | .cwCert => True
  | _ => False

/-- What every live client object keeps. -/
structure ClientInv (s : SSL X509 Pkey) : Prop where
  client : s.server = false
  writeState : s.statem.writeState = .transition
  synced : Synced s
  turn : s.statem.handState = .crSrvrHello → s.statem.state = .reading
  begun : s.statem.handState ≠ .before → s.statem.handState ≠ .ok → s.trace ≠ []
  /-- in `TLS_ST_OK` the history is empty only if a renegotiation was set up -/
  idle : s.statem.handState = .ok → s.trace = [] → s.statem.state = .writing ∧ s.renegotiate = true
  finished : s.statem.state = .finished → s.statem.handState = .ok
  full : inFlight s.statem.handState → s.hit = false

theorem ClientInv.read (hs : ClientInv s) (hst : s.statem.state = .reading)
    (h : ClientRead lib s t mt body) : ClientInv t := by
  cases h with
  | hello body sh c dg bf hfrom hparse hc hcode hhash ht =>
    obtain ⟨hit, sess, ext, npn, _, ht⟩ := ht
    have hsync := hhash hs.synced
    subst ht
    exact ⟨hs.client, hs.writeState, by simpa [Synced] using hsync, fun _ => hst, by simp, by simp,
      by simp [hst], by simp [inFlight]⟩
  | certificate body certs dg bf hfrom hfull hparse hfed ht =>
    have hsync := synced_accepted (by simp) (by simp) (hfed.hashes _ hs.synced)
    subst ht
    exact ⟨hs.client, hs.writeState, hsync, by simp, by simp, by simp, by simp [hst],
      fun _ => hfull⟩
  | status body dg bf hfrom hfed ht | request body dg bf hfrom hfed ht =>
    have hsync := synced_accepted (by simp) (by simp) (hfed.hashes _ hs.synced)
    have hfull := hs.full (by simp [hfrom, inFlight])
    subst ht
    exact ⟨hs.client, hs.writeState, hsync, by simp, by simp, by simp, by simp [hst],
      fun _ => hfull⟩
  | keyExchange body dg bf hfrom hsigned hfed ht =>
    obtain ⟨kex, lu, group, ht⟩ := ht
    have hsync := synced_accepted (by simp) (by simp) (hfed.hashes _ hs.synced)
    have hfull : s.hit = false := by
      rcases hfrom with hanon | hcert | hstatus
      · exact hanon.2.1
      · exact hs.full (by simp [hcert, inFlight])
      · exact hs.full (by simp [hstatus, inFlight])
    subst ht
    exact ⟨hs.client, hs.writeState, hsync, by simp, by simp, by simp, by simp [hst],
      fun _ => hfull⟩
  | done dg bf hfrom hfed ht =>
    have hsync := synced_accepted (by simp) (by simp) (hfed.hashes _ hs.synced)
    have hfull : s.hit = false := by
      cases hfrom with
      | inl hkex => exact hs.full (by simp [hkex, inFlight])
      | inr hreq => exact hs.full (by simp [hreq, inFlight])
    subst ht
    exact ⟨hs.client, rfl, hsync, by simp, by simp, by simp, by simp, fun _ => hfull⟩
  | ticket body dg bf hfrom hfed ht =>
    obtain ⟨tick, sid, nr, ht⟩ := ht
    have hsync := synced_accepted (by simp) (by simp) (hfed.hashes _ hs.synced)
    subst ht
    exact ⟨hs.client, hs.writeState, hsync, by simp, by simp, by simp, by simp [hst],
      by simp [inFlight]⟩
  | change hit hfrom ht =>
    have hsync := hs.synced
    subst ht
    exact ⟨hs.client, hs.writeState, by simpa [Synced] using hsync, by simp, by simp, by simp,
      by simp [hst], by simp [inFlight]⟩
  | finished body c hfrom hc hmac ht =>
    obtain ⟨cl, ht⟩ := ht
    have htrans : s.transcript = transcriptOf s.trace := hs.synced.transcript
    subst ht
    refine ⟨hs.client, rfl, synced_accepted (by simp) (by simp) ⟨?_, by simp⟩, by simp, by simp,
      by simp, by simp, by simp [inFlight]⟩
    intro d hd
    injection hd with hd
    rw [← hd, htrans]
  | helloRequest body dg bf hfrom hfed ht =>
    obtain ⟨ren, pend, ht⟩ := ht
    have hsync := synced_accepted (by simp) (by simp) (hfed.hashes _ hs.synced)
    subst ht
    exact ⟨hs.client, rfl, hsync, by simp, by simp, by simp, by simp, by simp [inFlight]⟩

theorem ClientInv.posted (hs : ClientInv s) (hst : s.statem.state = .reading)
    (h : ClientPosted lib ans s t) : ClientInv t := by
  have hsync := hs.synced
  cases h with
  | certs r s₁ hfrom hchecked ht =>
    have hfull := hs.full (by simp [hfrom, inFlight])
    cases hchecked with
    | retryEnc hr _ _ hs₁ | retrySign hr hs₁ | adopted hr _ hs₁ =>
      obtain ⟨vr, hs₁⟩ := hs₁
      subst hr hs₁ ht
      exact ⟨hs.client, hs.writeState, by simpa [Synced, SSL.afterWork] using hsync,
        by simp [SSL.afterWork, hfrom], by simp [SSL.afterWork],
        by simp [SSL.afterWork, hfrom], by simp [SSL.afterWork, hst], fun _ => hfull⟩
    | unverified hr hmode _ hs₁ =>
      obtain ⟨vr, hs₁⟩ := hs₁
      subst hr hs₁ ht
      exact ⟨hs.client, hs.writeState, hsync, by simp [SSL.afterWork, hfrom], hs.begun,
        by simp [SSL.afterWork, hfrom], by simp [SSL.afterWork, hst], fun _ => hfull⟩
  | request r s₁ hfrom hr hprep ht =>
    obtain ⟨sa, cert, req, dg, bf, hdig, _, hs₁⟩ := hprep
    have hfull := hs.full (by simp [hfrom, inFlight])
    have hbegun := hs.begun (by simp [hfrom]) (by simp [hfrom])
    have hsync' : Hashes dg bf (transcriptOf s.trace) := Hashes.digested hsync hdig
    subst hs₁ ht
    rcases hr with hr | hr | hr
    all_goals
      subst hr
      exact ⟨hs.client, hs.writeState, hsync', by simp [SSL.afterWork, hfrom],
        fun _ _ => hbegun, by simp [SSL.afterWork, hfrom], by simp [SSL.afterWork, hst],
        fun _ => hfull⟩

theorem ClientSent.inv {h : HandState} (hsent : ClientSent s t h) (hclient : s.server = false)
    (hsync : Synced s) (hst : s.statem.state = .writing) (hhello : h ≠ .crSrvrHello) (hok : h ≠ .ok)
    (hfull : inFlight h → s.hit = false) : ClientInv t := by
  obtain ⟨cl, hstatem⟩ := hsent.statem
  obtain ⟨body, htrace, _⟩ := hsent.trace
  have hstate : t.statem.handState = h := by rw [hstatem]
  refine ⟨hsent.frame.server.trans hclient, by rw [hstatem], hsent.synced hsync, ?_, ?_, ?_, ?_, ?_⟩
  · intro hh
    exact absurd (hstate.symm.trans hh) hhello
  · intro _ _
    rw [htrace]
    simp
  · intro hh
    exact absurd (hstate.symm.trans hh) hok
  · intro hfin
    rw [hstatem] at hfin
    simp [hst] at hfin
  · intro hh
    rw [hstate] at hh
    rw [hsent.frame.hit]
    exact hfull hh

theorem ClientInv.wrote (hs : ClientInv s) (hst : s.statem.state = .writing)
    (h : ClientWrote s t) : ClientInv t := by
  cases h with
  | turn hnext ht =>
    subst ht
    refine ⟨hs.client, hs.writeState, hs.synced, fun _ => rfl, hs.begun, ?_, by simp, hs.full⟩
    intro hok hnil
    have hren := (hs.idle hok hnil).2
    rcases clientWriteNext_none hnext with hidle | hch | hfin
    · rw [hidle.2] at hren
      contradiction
    · exact absurd (hch.symm.trans hok) (by simp)
    · exact absurd (hfin.1.symm.trans hok) (by simp)
  | done hfrom ht =>
    obtain ⟨ren, cl, te, ht⟩ := ht
    have hbegun : s.trace ≠ [] := by
      cases hfrom with
      | inl hnext =>
        cases clientWriteNext_ok hnext with
        | inl hfin => exact hs.begun (by simp [hfin.1]) (by simp [hfin.1])
        | inr hfin => exact hs.begun (by simp [hfin.1]) (by simp [hfin.1])
      | inr hreq => exact hs.begun (by simp [hreq]) (by simp [hreq])
    subst ht
    exact ⟨hs.client, hs.writeState, hs.synced, by simp, by simp, fun _ hnil => absurd hnil hbegun,
      fun _ => rfl, by simp [inFlight]⟩
  | sent h hnext hne hsent =>
    refine hsent.inv hs.client hs.synced hst ?_ hne ?_
    · intro hh
      subst hh
      have hfrom := clientWriteNext_some hnext
      simp at hfrom
    · intro hin
      rcases clientWriteNext_some hnext with h | h | h | h | h | h | h | h
      all_goals
        rw [h.1] at hin
        simp only [inFlight] at hin
      exact hs.full (by simp [h.2, inFlight])
  | restart hfrom hsent =>
    exact hsent.inv hs.client ⟨by simp, by simp⟩ hst (by simp) (by simp) (by simp [inFlight])

variable (lib)

/-- The client object: it reads and writes in turns, and its transcript is the
one of its history. -/
theorem client_keeps {C : SSL X509 Pkey → Event _ → Prop} :
    (client lib).Leads lib C ClientInv fun _ => ClientInv where
  fresh s t h := by
    obtain ⟨hclient, _, htrace, hstate, hwriting, hwrite, hhit, hdg, hbf, _⟩ := enterFresh_client h
    refine ⟨hclient, hwrite, ⟨by simp [hdg], by simp [hbf, htrace]⟩, by simp [hstate],
      by simp [hstate], by simp [hstate], by simp [hwriting], by simp [hstate, inFlight]⟩
  again s t hs hfin h := by
    have hok := hs.finished hfin
    cases enterAgain_client h with
    | inl ht =>
      subst ht
      exact ⟨rfl, rfl, hs.synced, by simp [hok], by simp [hok],
        fun _ hnil => ⟨rfl, (hs.idle hok hnil).2⟩, by simp, by simp [hok, inFlight]⟩
    | inr ht =>
      obtain ⟨ht, hren⟩ := ht
      subst ht
      exact ⟨rfl, rfl, ⟨by simp, by simp⟩, by simp [hok], by simp [hok],
        fun _ _ => ⟨rfl, hren⟩, by simp, by simp [hok, inFlight]⟩
  quiet s r p i q hs _ hr := ⟨hs.client, hs.writeState, hs.synced, hs.turn, hs.begun,
    fun hok hnil => ⟨(hs.idle hok hnil).1, hr (hs.idle hok hnil).2⟩, hs.finished, hs.full⟩
  recv s mt body ans t hs _ hst _ h := hs.read hst (client_readMessage_ok h)
  post s wst ans t hs _ hst _ h := hs.posted hst (client_postProcessRound_ok h)
  write s ans t hs hst h := hs.wrote hst (client_writeRound_ok hs.client hs.writeState h)

/-! ## authentication of the server -/

/-- The session holds no certificate from before, or the client will not go on
without a new one. -/
def FreshPeer (s : SSL X509 Pkey) : Prop := s.verifyMode ≠ Verify.none ∨ s.session.peer = none

/-- The server's certificates were checked: the peer is the first of them, and
of the suite's type. -/
def CertsKnown (s : SSL X509 Pkey) (tr : List (Obs X509)) : Prop :=
  ∃ c : NtlsCipher, s.s3.tmp.newCipher = some c.1 ∧
    Certified lib s.verifyMode tr c s.s3.clientRandom s.s3.serverRandom s.session.peerChain ∧
    (s.session.peer = s.session.peerChain.head? ∨ s.session.peer = none) ∧
    ∀ x, s.session.peer = some x → OfType lib c.1.algorithmAuth x

/-- What has to be true in each state of a full handshake. -/
def ClientStage (s : SSL X509 Pkey) : Prop :=
  match s.statem.handState with
  | .crSrvrHello =>
    ∃ c : NtlsCipher, s.s3.tmp.newCipher = some c.1 ∧
      Hellos s.trace c s.s3.clientRandom s.s3.serverRandom ∧ FreshPeer s
  | .crCert =>
    match s.statem.readState with
    | .header => CertsKnown lib s s.trace
    | .postProcess _ =>
      ∃ (c : NtlsCipher) (chains : List (Obs X509)), s.s3.tmp.newCipher = some c.1 ∧
        CertRead lib s.trace c s.s3.clientRandom s.s3.serverRandom s.session.peerChain chains ∧
        FreshPeer s
  | .crCertStatus => ∃ tr b, s.trace = tr ++ [.accepted .certificateStatus b] ∧ CertsKnown lib s tr
  | .crKeyExch => Signed lib s.verifyMode s.trace
  | .crCertReq =>
    ∃ tr b, s.trace = tr ++ [.accepted .certificateRequest b] ∧ Signed lib s.verifyMode tr
  | .crSrvrDone => FlightDone lib s.verifyMode s.trace
  | .cwCert => Vouched lib s.verifyMode s.trace
  | .cwKeyExch | .cwCertVrfy | .cwChange | .cwNextProto | .cwFinished | .crSessionTicket =>
    KexSent lib s.verifyMode s.trace
  | .crChange =>
    ∃ tr, s.trace = tr ++ [.accepted .changeCipherSpec []] ∧ KexSent lib s.verifyMode tr
  | .crFinished | .crHelloReq => Confirmed lib s
  | .ok => s.trace = [] ∨ Confirmed lib s
  | _ => True

/-- How far the client has authenticated the server. -/
structure ClientAuth (s : SSL X509 Pkey) : Prop where
  hello : s.statem.handState = .cwClntHello → ∃ before ch,
    s.trace = before ++ [.sent .clientHello ch] ∧ HelloWith s.ciphers s.s3.clientRandom ch
  kex : KexVouched lib s.verifyMode s.trace
  stage : s.hit = false → ClientStage lib s

variable {lib}

/-- The condition on the events of a run: the verifier does not ask for a retry
on the first of the two chains, and a client that does not verify offered no
session without an id that holds a certificate. -/
def steady (s : SSL X509 Pkey) : Event (ClientAnswers X509 Pkey) → Prop
  | .recv .serverHello _ _ =>
    s.verifyMode ≠ Verify.none ∨ s.session.sessionId ≠ [] ∨ s.session.peer = none
  | .postProcess ans =>
    s.statem.handState = .crCert → ¬ (0 < ans.verifyEnc.i ∧ ans.verifyEnc.retry = true)
  | _ => True

instance (s : SSL X509 Pkey) (e : Event (ClientAnswers X509 Pkey)) : Decidable (steady s e) := by
  unfold steady
  split <;> infer_instance

/-- A ServerKeyExchange that was accepted under the peer's key is signed with
the first certificate. -/
theorem CertsKnown.signed {tr tr' status : List (Obs X509)} {kb : Bytes}
    (h : CertsKnown lib s tr)
    (hsigned : ∀ c, s.s3.tmp.newCipher = some c → ∃ peer, s.session.peer = some peer ∧
      SkeSigned lib c s.session.peerChain s.s3.clientRandom s.s3.serverRandom peer kb)
    (hstatus : status = [] ∨ ∃ b, status = [.accepted .certificateStatus b])
    (htr : tr' = tr ++ status ++ [.accepted .serverKeyExchange kb]) :
    Signed lib s.verifyMode tr' := by
  obtain ⟨c, hc, hcert, hpeer, htype⟩ := h
  obtain ⟨peer, hsome, hske⟩ := hsigned c.1 hc
  have hleaf : s.session.peerChain.head? = some peer := by
    cases hpeer with
    | inl hhead => rw [← hhead, hsome]
    | inr hnone => rw [hnone] at hsome; contradiction
  exact ⟨tr, status, kb, c, _, _, _, peer, hcert, hstatus, htr, hleaf, htype peer hsome, hske⟩

theorem ClientAuth.readHello (ha : ClientAuth lib s)
    (hsteady : s.statem.handState = .cwClntHello →
      s.verifyMode ≠ Verify.none ∨ s.session.sessionId ≠ [] ∨ s.session.peer = none)
    (h : ClientRead lib s t .serverHello body) : ClientAuth lib t := by
  cases h with
  | hello body sh c dg bf hfrom hparse hc hcode hhash ht =>
    obtain ⟨hit, sess, ext, npn, hpeer, ht⟩ := ht
    obtain ⟨before, ch, htr, hwith⟩ := ha.hello hfrom
    subst ht
    refine ⟨by simp, ha.kex.accepted _ _, ?_⟩
    intro hhit
    refine ⟨c, rfl, ⟨before, ch, body, sh, s.ciphers, ?_, hwith, hc, hparse, rfl, hcode⟩, ?_⟩
    · rw [htr, List.append_assoc]
      rfl
    · have hp := hpeer hhit
      rcases hsteady hfrom with hmode | hid | hnone
      · exact .inl hmode
      · rw [if_neg hid] at hp
        exact .inr hp
      · rw [hnone, ite_self] at hp
        exact .inr hp

theorem ClientAuth.readKeyExchange (ha : ClientAuth lib s) (hrs : s.statem.readState = .header)
    (h : ClientRead lib s t .serverKeyExchange body) : ClientAuth lib t := by
  cases h with
  | keyExchange body dg bf hfrom hsigned hfed ht =>
    obtain ⟨kex, lu, group, ht⟩ := ht
    subst ht
    refine ⟨by simp, ha.kex.accepted _ _, ?_⟩
    intro hhit
    have hstage := ha.stage hhit
    rw [ClientStage] at hstage
    rcases hfrom with hanon | hcert | hstatus
    · -- no NTLS suite does without a certificate
      rw [hanon.1] at hstage
      obtain ⟨c, hc, _⟩ := hstage
      have hauth := hanon.2.2
      rw [SSL.auth, hc] at hauth
      exact absurd hauth c.auth_certificate.2.2.2
    · rw [hcert, hrs] at hstage
      exact hstage.signed hsigned (.inl rfl) (by rw [List.append_nil])
    · rw [hstatus] at hstage
      obtain ⟨tr, b, htr, hknown⟩ := hstage
      exact hknown.signed hsigned (.inr ⟨b, rfl⟩) (by rw [htr])

theorem ClientAuth.readDone (ha : ClientAuth lib s) (h : ClientRead lib s t .serverDone body) :
    ClientAuth lib t := by
  cases h with
  | done dg bf hfrom hfed ht =>
    subst ht
    refine ⟨by simp, ha.kex.accepted _ _, ?_⟩
    intro hhit
    have hstage := ha.stage hhit
    rw [ClientStage] at hstage
    cases hfrom with
    | inl hkex =>
      rw [hkex] at hstage
      exact ⟨s.trace, [], hstage, .inl rfl, by rw [List.append_nil]⟩
    | inr hreq =>
      rw [hreq] at hstage
      obtain ⟨tr, b, htr, hsigned⟩ := hstage
      exact ⟨tr, _, hsigned, .inr ⟨b, rfl⟩, by rw [htr]⟩

theorem ClientAuth.readChange (ha : ClientAuth lib s)
    (h : ClientRead lib s t .changeCipherSpec body) : ClientAuth lib t := by
  cases h with
  | change hit hfrom ht =>
    subst ht
    refine ⟨by simp, ha.kex.accepted _ _, ?_⟩
    intro hhit
    cases hfrom with
    | inl hres => exact absurd (hres.2.symm.trans hhit) (by simp)
    | inr hlater =>
      have hstage := ha.stage (hlater.2.symm.trans hhit)
      rw [ClientStage] at hstage
      refine ⟨s.trace, rfl, ?_⟩
      cases hlater.1 with
      | inl hfin => rw [hfin] at hstage; exact hstage
      | inr htick => rw [htick] at hstage; exact hstage

theorem ClientAuth.readFinished (ha : ClientAuth lib s) (hs : ClientInv s)
    (h : ClientRead lib s t .finished body) : ClientAuth lib t := by
  cases h with
  | finished body c hfrom hc hmac ht =>
    obtain ⟨cl, ht⟩ := ht
    have htrans : s.transcript = transcriptOf s.trace := hs.synced.transcript
    subst ht
    refine ⟨by simp, ha.kex.accepted _ _, ?_⟩
    intro hhit
    have hstage := ha.stage hhit
    rw [ClientStage, hfrom] at hstage
    obtain ⟨tr, htr, hkex⟩ := hstage
    refine ⟨tr, body, [], c, hkex, ?_, hc, ?_⟩
    · rw [htr, List.append_assoc]
      rfl
    · rw [hmac, htrans, htr, hs.client]
      simp [finishedLabel]

theorem ClientAuth.read (ha : ClientAuth lib s) (hs : ClientInv s)
    (hst : s.statem.state = .reading) (hrs : s.statem.readState = .header)
    (hsteady : s.statem.handState = .cwClntHello →
      s.verifyMode ≠ Verify.none ∨ s.session.sessionId ≠ [] ∨ s.session.peer = none)
    (h : ClientRead lib s t mt body) : ClientAuth lib t := by
  have hread := h
  cases h with
  | hello => exact ha.readHello hsteady hread
  | certificate body certs dg bf hfrom hfull hparse hfed ht =>
    have hstage := ha.stage hfull
    rw [ClientStage, hfrom] at hstage
    obtain ⟨c, hc, hhellos, hpeer⟩ := hstage
    subst ht
    exact ⟨by simp, ha.kex.accepted _ _,
      fun _ => ⟨c, [], hc, ⟨s.trace, body, hhellos, rfl, by simp, hparse⟩, hpeer⟩⟩
  | status body dg bf hfrom hfed ht =>
    have hstage := ha.stage (hs.full (by simp [hfrom, inFlight]))
    rw [ClientStage, hfrom, hrs] at hstage
    subst ht
    exact ⟨by simp, ha.kex.accepted _ _, fun _ => ⟨s.trace, body, rfl, hstage⟩⟩
  | keyExchange => exact ha.readKeyExchange hrs hread
  | request body dg bf hfrom hfed ht =>
    have hstage := ha.stage (hs.full (by simp [hfrom, inFlight]))
    rw [ClientStage, hfrom] at hstage
    subst ht
    exact ⟨by simp, ha.kex.accepted _ _, fun _ => ⟨s.trace, body, rfl, hstage⟩⟩
  | done => exact ha.readDone hread
  | ticket body dg bf hfrom hfed ht =>
    obtain ⟨tick, sid, nr, ht⟩ := ht
    subst ht
    refine ⟨by simp, ha.kex.accepted _ _, ?_⟩
    intro hhit
    have hstage := ha.stage hhit
    rw [ClientStage] at hstage
    cases hfrom with
    | inl hres => exact absurd (hres.2.symm.trans hhit) (by simp)
    | inr hfin =>
      rw [hfin] at hstage
      exact hstage.concat _
  | change => exact ha.readChange hread
  | finished => exact ha.readFinished hs hread
  | helloRequest body dg bf hfrom hfed ht =>
    obtain ⟨ren, pend, ht⟩ := ht
    have hbegun : s.trace ≠ [] := by
      intro hnil
      have hwriting := (hs.idle hfrom hnil).1
      rw [hst] at hwriting
      contradiction
    subst ht
    refine ⟨by simp, ha.kex.accepted _ _, ?_⟩
    intro hhit
    have hstage := ha.stage hhit
    rw [ClientStage, hfrom] at hstage
    exact (hstage.resolve_left hbegun).concat rfl rfl rfl rfl

/-- A round of checking the certificates that is not put off on the first chain
leaves the list as it was received. -/
theorem ClientAuth.posted (ha : ClientAuth lib s) (hs : ClientInv s) {wst : Work}
    (hrs : s.statem.readState = .postProcess wst)
    (hsteady : s.statem.handState = .crCert → ¬ (0 < ans.verifyEnc.i ∧ ans.verifyEnc.retry = true))
    (h : ClientPosted lib ans s t) : ClientAuth lib t := by
  cases h with
  | certs r s₁ hfrom hchecked ht =>
    have hstage := ha.stage (hs.full (by simp [hfrom, inFlight]))
    rw [ClientStage, hfrom, hrs] at hstage
    obtain ⟨c, chains, hc, hread, hfresh⟩ := hstage
    have hkex := (ha.kex.chain (pushShift s.session.peerChain) ans.verifyEnc.i).chain
      s.session.peerChain ans.verifySign.i
    rw [List.append_assoc] at hkex
    cases hchecked with
    | retryEnc hr hi hretry hs₁ => exact absurd ⟨hi, hretry⟩ (hsteady hfrom)
    | retrySign hr hs₁ =>
      obtain ⟨vr, hs₁⟩ := hs₁
      subst hr hs₁ ht
      refine ⟨by simp [SSL.afterWork, hfrom], hkex, ?_⟩
      intro _
      simp only [ClientStage, SSL.afterWork, hfrom]
      exact ⟨c, _, hc, hread.chains _ _ _ _, hfresh⟩
    | adopted hr hverified hs₁ htype =>
      obtain ⟨vr, hs₁⟩ := hs₁
      rw [SSL.auth, hc] at htype
      subst hr hs₁ ht
      refine ⟨by simp [SSL.afterWork, hfrom], hkex, ?_⟩
      intro _
      simp only [ClientStage, SSL.afterWork, hfrom]
      exact ⟨c, hc, ⟨_, hread.chains _ _ _ _,
        fun hmode => ⟨chains, _, _, rfl, hverified hmode⟩⟩, .inl rfl, htype⟩
    | unverified hr hmode _ hs₁ =>
      obtain ⟨vr, hs₁⟩ := hs₁
      subst hr hs₁ ht
      refine ⟨by simp [SSL.afterWork, hfrom], ha.kex, ?_⟩
      intro _
      simp only [ClientStage, SSL.afterWork, hfrom]
      have hnone : s.session.peer = none := hfresh.resolve_left fun hne => hne hmode
      exact ⟨c, hc, ⟨chains, hread, fun hne => absurd hmode hne⟩, .inr hnone,
        fun x hx => absurd (hnone.symm.trans hx) (by simp)⟩
  | request r s₁ hfrom hr hprep ht =>
    obtain ⟨sa, cert, req, dg, bf, _, _, hs₁⟩ := hprep
    have hstage := ha.stage (hs.full (by simp [hfrom, inFlight]))
    rw [ClientStage, hfrom] at hstage
    subst hs₁ ht
    rcases hr with hr | hr | hr
    all_goals
      subst hr
      refine ⟨by simp [SSL.afterWork, hfrom], ha.kex, ?_⟩
      intro _
      simpa only [ClientStage, SSL.afterWork, hfrom] using hstage

/-- The client goes on to its ClientKeyExchange only if the server has vouched
for itself. -/
theorem ClientAuth.vouched (ha : ClientAuth lib s) (hs : ClientInv s)
    (hnext : clientWriteNext s = .ok (some .cwKeyExch)) : Vouched lib s.verifyMode s.trace := by
  have hfrom : s.statem.handState = .crSrvrDone ∨ s.statem.handState = .cwCert := by
    simpa using clientWriteNext_some hnext
  cases hfrom with
  | inl hdone =>
    have hstage := ha.stage (hs.full (by simp [hdone, inFlight]))
    rw [ClientStage, hdone] at hstage
    exact ⟨s.trace, [], hstage, .inl rfl, (List.append_nil _).symm⟩
  | inr hcert =>
    have hstage := ha.stage (hs.full (by simp [hcert, inFlight]))
    rw [ClientStage, hcert] at hstage
    exact hstage

/-- A ClientHello starts over. -/
theorem ClientAuth.of_hello (hkex : KexVouched lib s.verifyMode s.trace)
    (hsent : ClientSent s t .cwClntHello) : ClientAuth lib t := by
  obtain ⟨cl, hstatem⟩ := hsent.statem
  obtain ⟨body, htrace, hwith, _⟩ := hsent.trace
  have hstate : t.statem.handState = .cwClntHello := by rw [hstatem]
  refine ⟨?_, ?_, ?_⟩
  · intro _
    refine ⟨s.trace, body, htrace, ?_⟩
    rw [hsent.frame.ciphers]
    exact hwith rfl
  · rw [hsent.frame.verifyMode, htrace]
    exact hkex.concat fun kb hkb => by simp [clientMsgType] at hkb
  · intro _
    rw [ClientStage, hstate]
    trivial

theorem ClientAuth.sent {h : HandState} (ha : ClientAuth lib s) (hs : ClientInv s)
    (hst : s.statem.state = .writing) (hnext : clientWriteNext s = .ok (some h)) (hne : h ≠ .ok)
    (hsent : ClientSent s t h) : ClientAuth lib t := by
  obtain ⟨cl, hstatem⟩ := hsent.statem
  obtain ⟨body, htrace, _⟩ := hsent.trace
  have hstate : t.statem.handState = h := by rw [hstatem]
  have hmode := hsent.frame.verifyMode
  have hhit := hsent.frame.hit
  -- what a message other than the hello and the key exchange does
  have hlater : h ≠ .cwClntHello → h ≠ .cwKeyExch → (s.hit = false → ClientStage lib t) →
      ClientAuth lib t := by
    intro hch hkx hstage
    refine ⟨fun hh => absurd (hstate.symm.trans hh) hch, ?_, fun hh => hstage (hhit ▸ hh)⟩
    rw [hmode, htrace]
    refine ha.kex.concat fun kb hkb => absurd hkb ?_
    cases h <;> simp_all [clientMsgType]
  rcases clientWriteNext_some hnext with hf | hf | hf | hf | hf | hf | hf | hf
  · obtain ⟨hh, _⟩ := hf
    subst hh
    exact ClientAuth.of_hello ha.kex hsent
  · obtain ⟨hh, hfrom⟩ := hf
    subst hh
    refine hlater (by simp) (by simp) fun hfull => ?_
    have hstage := ha.stage hfull
    rw [ClientStage, hfrom] at hstage
    rw [ClientStage, hstate, hmode]
    exact ⟨s.trace, _, hstage, .inr ⟨body, rfl⟩, htrace⟩
  · obtain ⟨hh, _⟩ := hf
    subst hh
    have hvouched := ha.vouched hs hnext
    refine ⟨fun hh => absurd (hstate.symm.trans hh) (by simp), ?_, ?_⟩
    · rw [hmode, htrace]
      exact ha.kex.concat fun _ _ => hvouched
    · intro _
      rw [ClientStage, hstate, hmode]
      exact ⟨s.trace, body, [], htrace, hvouched⟩
  · obtain ⟨hh, hfrom⟩ := hf
    subst hh
    refine hlater (by simp) (by simp) fun hfull => ?_
    have hstage := ha.stage hfull
    rw [ClientStage, hfrom] at hstage
    rw [ClientStage, hstate, hmode, htrace]
    exact hstage.concat _
  · obtain ⟨hh, hfrom⟩ := hf
    subst hh
    refine hlater (by simp) (by simp) fun hfull => ?_
    have hstage := ha.stage hfull
    rw [ClientStage] at hstage
    rw [ClientStage, hstate, hmode, htrace]
    rcases hfrom with hfrom | hfrom | hfrom | hfrom
    · rw [hfrom] at hstage
      exact hstage.concat _
    · rw [hfrom] at hstage
      exact hstage.concat _
    · have hreading := hs.turn hfrom
      rw [hst] at hreading
      contradiction
    · exact absurd (hfrom.2.symm.trans hfull) (by simp)
  · obtain ⟨hh, hfrom⟩ := hf
    subst hh
    refine hlater (by simp) (by simp) fun hfull => ?_
    have hstage := ha.stage hfull
    rw [ClientStage, hfrom] at hstage
    rw [ClientStage, hstate, hmode, htrace]
    exact hstage.concat _
  · obtain ⟨hh, hfrom⟩ := hf
    subst hh
    refine hlater (by simp) (by simp) fun hfull => ?_
    have hstage := ha.stage hfull
    rw [ClientStage] at hstage
    rw [ClientStage, hstate, hmode, htrace]
    cases hfrom with
    | inl hfrom => rw [hfrom] at hstage; exact hstage.concat _
    | inr hfrom => rw [hfrom] at hstage; exact hstage.concat _
  · exact absurd hf.1 hne

theorem ClientAuth.wrote (ha : ClientAuth lib s) (hs : ClientInv s)
    (hst : s.statem.state = .writing) (h : ClientWrote s t) : ClientAuth lib t := by
  cases h with
  | turn hnext ht =>
    subst ht
    refine ⟨ha.hello, ha.kex, ?_⟩
    intro hhit
    have hstage := ha.stage hhit
    rw [ClientStage] at hstage
    rcases clientWriteNext_none hnext with hfrom | hfrom | hfrom
    · rw [hfrom.1] at hstage
      simp only [ClientStage, hfrom.1]
      exact hstage
    · simp only [ClientStage, hfrom]
    · rw [hfrom.1] at hstage
      simp only [ClientStage, hfrom.1]
      exact hstage
  | done hfrom ht =>
    obtain ⟨ren, cl, te, ht⟩ := ht
    subst ht
    refine ⟨by simp, ha.kex, ?_⟩
    intro hhit
    have hstage := ha.stage hhit
    rw [ClientStage] at hstage
    cases hfrom with
    | inl hnext =>
      cases clientWriteNext_ok hnext with
      | inl hres => exact absurd (hres.2.symm.trans hhit) (by simp)
      | inr hfin =>
        rw [hfin.1] at hstage
        exact .inr hstage
    | inr hreq =>
      rw [hreq] at hstage
      exact .inr hstage
  | sent h hnext hne hsent => exact ha.sent hs hst hnext hne hsent
  | restart hfrom hsent => exact ClientAuth.of_hello KexVouched.nil hsent

/-- The client authenticates the server as far as it goes. -/
theorem client_authenticates (lib : Libcrypto X509 Pkey) :
    (client lib).Leads lib steady (fun s => ClientInv s ∧ ClientAuth lib s)
      fun _ => ClientAuth lib where
  fresh s t h := by
    obtain ⟨_, _, htrace, hstate, _, _⟩ := enterFresh_client h
    exact ⟨by simp [hstate], by rw [htrace]; exact KexVouched.nil,
      fun _ => by rw [ClientStage, hstate]; trivial⟩
  again s t hs hfin h := by
    obtain ⟨hs, ha⟩ := hs
    have hok := hs.finished hfin
    cases enterAgain_client h with
    | inl ht =>
      subst ht
      refine ⟨by simp [hok], ha.kex, ?_⟩
      intro hhit
      have hstage := ha.stage hhit
      rw [ClientStage, hok] at hstage
      simp only [ClientStage, hok]
      exact hstage
    | inr ht =>
      obtain ⟨ht, _⟩ := ht
      subst ht
      exact ⟨by simp [hok], KexVouched.nil, fun _ => by simp [ClientStage, hok]⟩
  quiet s r p i q hs _ _ := ⟨hs.2.hello, hs.2.kex, hs.2.stage⟩
  recv s mt body ans t hs hc hst hrs h := by
    refine hs.2.read hs.1 hst hrs ?_ (client_readMessage_ok h)
    intro hfrom
    have hmt : mt = .serverHello := by
      obtain ⟨s₁, _, _, _, htran, _⟩ := readMessage_ok h
      obtain ⟨hstate, hnext, _⟩ := clientReadTransition_ok htran
      have hread := clientReadNext_some hnext
      simp [hfrom] at hread
      exact hread.1
    subst hmt
    exact hc
  post s wst ans t hs hc _ hrs h := hs.2.posted hs.1 hrs hc (client_postProcessRound_ok h)
  write s ans t hs hst h := hs.2.wrote hs.1 hst (client_writeRound_ok hs.1.client hs.1.writeState h)

/-- **The client authenticates the server.**  In every run whose events are
steady, the client goes on to its ClientKeyExchange only after a server's
flight that vouches for the server, whenever it sent one such a flight came
before it, and it comes to `TLS_ST_OK` in a full handshake only after a
Finished with the expected MAC. -/
theorem client_authenticates_server (lib : Libcrypto X509 Pkey)
    {es : List (Event (ClientAnswers X509 Pkey))} (hs : s.inBefore)
    (hsteady : Run.Meets (step lib (client lib)) steady s es)
    (hrun : Run.run (step lib (client lib)) s es = some t) (hlive : t.live) :
    (clientWriteNext t = .ok (some .cwKeyExch) → Vouched lib t.verifyMode t.trace) ∧
      KexVouched lib t.verifyMode t.trace ∧
      (t.statem.handState = .ok → t.trace ≠ [] → t.hit = false → Confirmed lib t) := by
  obtain ⟨hinv, hauth⟩ :=
    ((client_keeps lib).and (client_authenticates lib)).run hs hsteady hrun hlive
  refine ⟨hauth.vouched hinv, hauth.kex, ?_⟩
  intro hok hne hfull
  have hstage := hauth.stage hfull
  rw [ClientStage, hok] at hstage
  exact hstage.resolve_left hne

/-! ## runs -/

/-- What a vouched history says about the messages in it. -/
theorem Vouched.ske_signed (h : Vouched lib mode tr) :
    ∃ (c : NtlsCipher) (sh cb kb : Bytes) (hello : ServerHello) (certs : List X509) (leaf : X509)
      (cr sr : Bytes),
      .accepted .serverHello sh ∈ tr ∧ parseServerHello sh = .ok hello ∧
        c.1.id % 65536 = hello.cipher ∧
        .accepted .certificate cb ∈ tr ∧ parseServerCertificate lib cb = .ok certs ∧
        .accepted .serverKeyExchange kb ∈ tr ∧ certs.head? = some leaf ∧
        OfType lib c.1.algorithmAuth leaf ∧ SkeSigned lib c.1 certs cr sr leaf kb := by
  obtain ⟨tr₁, mine, ⟨tr₂, request, hsigned, _, htr₁⟩, _, htr⟩ := h
  obtain ⟨tr₃, status, kb, c, cr, sr, certs, leaf, hcert, _, htr₂, hleaf, htype, hske⟩ := hsigned
  obtain ⟨chains, ⟨tr₄, cb, hhellos, htr₃, _, hparse⟩, _⟩ := hcert
  obtain ⟨before, ch, sh, hello, ciphers, htr₄, _, _, hhello, _, hid⟩ := hhellos
  refine ⟨c, sh, cb, kb, hello, certs, leaf, cr, sr, ?_, hhello, hid, ?_, hparse, ?_, hleaf, htype,
    hske⟩ <;>
    simp [htr, htr₁, htr₂, htr₃, htr₄]

/-- A client that offers every NTLS suite, before its first handshake. -/
def plainClient : SSL Bytes (String × Bytes) where
  server := false
  ciphers := ntlsCiphers.attach

/-- A ServerHello for `ECC-SM2-SM4-CBC-SM3`. -/
def plainServerHello : Bytes := [1, 1] ++ List.replicate 32 7 ++ [0, 0xE0, 0x13, 0]

/-- A Certificate with the keys 1 and 2. -/
def plainCertificate : Bytes := [0, 0, 10, 0, 0, 2, 0, 1, 0, 0, 2, 0, 2]

/-- A ServerKeyExchange signed with the key `k`. -/
def plainKeyExchange (k : UInt8) : Bytes := [0, 1, k]

/-- What the client does for its ClientKeyExchange. -/
def plainCke : ClientAnswers Bytes (String × Bytes) :=
  { cke := { pms := Buf.zero 46, ephemeral := [7, 7] } }

/-- A full handshake. -/
def plainClientRun : List (Event (ClientAnswers Bytes (String × Bytes))) :=
  [ .enter, .write {}, .write {}, .recv .serverHello plainServerHello {},
    .recv .certificate plainCertificate {}, .postProcess {},
    .recv .serverKeyExchange (plainKeyExchange 1) {}, .recv .serverDone [] {},
    .write plainCke, .write {}, .write {}, .write {},
    .recv .changeCipherSpec [] {},
    .recv .finished ([80, 32, 1, 1] ++ List.replicate 8 0) {}, .write {} ]

theorem client_authenticates_server_plain :
    ∃ t, Run.run (step .plain (client .plain)) plainClient plainClientRun = some t ∧
      KexVouched .plain t.verifyMode t.trace ∧ Confirmed .plain t := by
  obtain ⟨t, hrun, hstate, hok, hne, hfull⟩ : ∃ t,
      Run.run (step .plain (client .plain)) plainClient plainClientRun = some t ∧
      t.statem.state = .finished ∧ t.statem.handState = .ok ∧ t.trace ≠ [] ∧ t.hit = false := by
    decide +kernel
  have hsteady : Run.Meets (step .plain (client .plain)) steady plainClient plainClientRun := by
    decide +kernel
  obtain ⟨_, hkex, hconfirmed⟩ :=
    client_authenticates_server .plain ⟨rfl, rfl⟩ hsteady hrun (.inr (.inr hstate))
  exact ⟨t, hrun, hkex, hconfirmed hok hne hfull⟩

/-- The ClientHello of `plainClient`. -/
def plainClientHello : Bytes := clientHelloBody ntlsVersion (List.replicate 32 2) []
    (sslCipherListToBytes plainClient.ciphers false false) []

/-- A ServerHello for `ECDHE-KYBER-SM4-GCM-SM3`. -/
def ecdhekyberHello : Bytes := [1, 1] ++ List.replicate 32 7 ++ [0, 0xE0, 0x1B, 0]

/-- A certificate with a key of the length of a point. -/
def pointCert : Bytes := 0 :: List.replicate 65 1

/-- A Certificate with it and the key 2. -/
def pointCertificate : Bytes := [0, 0, 74, 0, 0, 66] ++ pointCert ++ [0, 0, 2, 0, 2]

/-- A ServerKeyExchange with a point and a Kyber key, signed with the key 2. -/
def ecdhekyberKeyExchange : Bytes :=
  [3, 0, 41, 2, 5, 6, 4, 160] ++ List.replicate 1184 0 ++ [0, 1, 2]

/-- A ServerKeyExchange that the second certificate's key signed does not
vouch for the server. -/
theorem not_vouched_retry {tr : List (Obs Bytes)}
    (hsh : ∀ b, .accepted .serverHello b ∈ tr → b = ecdhekyberHello)
    (hcb : ∀ b, .accepted .certificate b ∈ tr → b = pointCertificate)
    (hkb : ∀ b, .accepted .serverKeyExchange b ∈ tr → b = ecdhekyberKeyExchange) :
    ¬ Vouched .plain mode tr := by
  intro h
  obtain ⟨c, sh, cb, kb, hello, certs, leaf, cr, sr, hshm, hhello, hid, hcbm, hcerts, hkbm,
    hleaf, _, hske⟩ := h.ske_signed
  rw [hsh sh hshm] at hhello
  rw [hcb cb hcbm] at hcerts
  rw [hkb kb hkbm] at hske
  have hcerts' : parseServerCertificate .plain pointCertificate = .ok [pointCert, [0, 2]] := by
    decide +kernel
  rw [hcerts'] at hcerts
  injection hcerts with hcerts
  subst hcerts
  injection hleaf with hleaf
  subst hleaf
  have hcipher : hello.cipher = 0xE01B := by
    have hhello' : parseServerHello ecdhekyberHello =
        .ok ⟨0x0101, List.replicate 32 7, [], 0xE01B, 0⟩ := rfl
    rw [← Except.ok.inj (hhello'.symm.trans hhello)]
  have hc : ∀ c ∈ ntlsCiphers, c.id % 65536 = 0xE01B → c.algorithmMkey = Mkey.kECDHEKyber := by
    decide
  obtain ⟨p, params, key, lu, sig, hp, _, hkey, _, hsig, hverify⟩ := hske
  have hmkey : (skeView c.1 [pointCert, [0, 2]] cr sr : SSL Bytes (String × Bytes)).mkey =
      Mkey.kECDHEKyber := hc c.1 c.2 (hid.trans hcipher)
  have hrest : p.rest = [0, 1, 2] := by
    have hp' : (tlsProcessSkeEcdhekyber .plain {} ecdhekyberKeyExchange).map SkeRead.rest =
        .ok [0, 1, 2] := by decide +kernel
    rw [processSkeParams, hmkey, if_neg (by decide), if_pos (by decide)] at hp
    change tlsProcessSkeEcdhekyber .plain {} ecdhekyberKeyExchange = .ok p at hp
    rw [hp] at hp'
    injection hp'
  have hsig' : getPrefixed 2 [0, 1, 2] = some ([2], []) := by decide
  rw [hrest, hsig'] at hsig
  injection hsig with hsig
  injection hsig with hsig _
  injection hkey with hkey
  subst hsig hkey
  simp [Libcrypto.plain, pointCert] at hverify

/-- The verifier asks to be called again on the first of the two chains, and
then the key of the other certificate signs. -/
def retryRun : List (Event (ClientAnswers Bytes (String × Bytes))) :=
  [ .enter, .write {}, .write {}, .recv .serverHello ecdhekyberHello {},
    .recv .certificate pointCertificate {}, .postProcess { verifyEnc := ⟨1, 0, true⟩ },
    .postProcess {}, .recv .serverKeyExchange ecdhekyberKeyExchange {}, .recv .serverDone [] {},
    .write plainCke ]

theorem client_sends_kex_unvouched :
    ∃ t, Run.run (step .plain (client .plain)) { plainClient with verifyMode := Verify.peer }
        retryRun = some t ∧ t.live ∧ t.hit = false ∧ ¬ KexVouched .plain t.verifyMode t.trace := by
  obtain ⟨t, hrun, hstate, hfull, htrace⟩ : ∃ t, Run.run (step .plain (client .plain))
        { plainClient with verifyMode := Verify.peer } retryRun = some t ∧
      t.statem.state = .writing ∧ t.hit = false ∧
      t.trace = [.sent .clientHello plainClientHello, .accepted .serverHello ecdhekyberHello,
      .accepted .certificate pointCertificate, .chain [[0, 2], pointCert] 1,
      .chain [pointCert, [0, 2]] 1, .chain [[0, 2], pointCert] 1,
      .accepted .serverKeyExchange ecdhekyberKeyExchange, .accepted .serverDone []] ++
      [.sent .clientKeyExchange ([3, 0, 41, 2, 7, 7, 4, 64] ++ List.replicate 1088 0)] := by
    decide +kernel
  refine ⟨t, hrun, .inr (.inl hstate), hfull, fun hkex => ?_⟩
  exact not_vouched_retry (by simp) (by simp) (by simp) (hkex _ _ _ htrace)

end Tlcp
