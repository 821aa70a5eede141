import Tlcp.Ntls.ServerSteps

/-!
# Tlcp.Ntls.ServerAuth

How the NTLS server authenticates its client.

Two invariants of the server machine carry the results.  `ServerInv` is about
the object itself: the transcript it hashes is the one of its history, and a
CertificateRequest in the history is marked.  `AuthInv` describes, state by
state, what the history has to look like once a certificate was requested
under a verify mode that insists on one (`Heard`, `Authenticated`).
-/

namespace Tlcp

open Octets Fallible

variable {X509 Pkey : Type} {lib : Libcrypto X509 Pkey} {s t : SSL X509 Pkey}
  {mt : MsgType} {body : Bytes}
variable {tr : List (Obs X509)} {h : HandState} {b : Bytes}

/-! ## what a history says -/

/-- A certificate was requested. -/
def requested (tr : List (Obs X509)) : Prop := ∃ b, Obs.sent .certificateRequest b ∈ tr

/-- Only messages of this side. -/
def AllSent (tr : List (Obs X509)) : Prop := ∀ o ∈ tr, ∃ mt b, o = Obs.sent mt b

@[simp] theorem not_requested_nil : ¬ requested ([] : List (Obs X509)) := by
  simp [requested]

theorem requested_concat {o : Obs X509} :
    requested (tr ++ [o]) ↔ requested tr ∨ ∃ b, o = .sent .certificateRequest b := by
  simp [requested, exists_or, eq_comm]

@[simp] theorem requested_accepted {mt : MsgType} :
    requested (tr ++ [.accepted mt b]) ↔ requested tr := by
  simp [requested]

@[simp] theorem requested_certificate {c c' : List X509} {i j : Int}
    {mt : MsgType} :
    requested (tr ++ [.chain c i, .chain c' j, .accepted mt b]) ↔ requested tr := by
  simp [requested]

theorem requested_sent :
    requested (tr ++ [.sent (serverMsgType h) b]) ↔ requested tr ∨ h = .swCertReq := by
  rw [requested_concat]
  simp [serverMsgType_eq_certificateRequest]

theorem AllSent.concat {mt : MsgType} (h : AllSent tr) : AllSent (tr ++ [.sent mt b]) := by
  intro o ho
  rw [List.mem_append, List.mem_singleton] at ho
  cases ho with
  | inl hold => exact h o hold
  | inr hnew => exact ⟨mt, b, hnew⟩

/-! ## the object -/

/-- What every live server object keeps. -/
structure ServerInv (s : SSL X509 Pkey) : Prop where
  server : s.server = true
  version : s.version = ntlsVersion
  certVerify : s.statem.noCertVerify = false
  writeState : s.statem.writeState = .transition
  post : s.statem.state = .reading → ∀ wst, s.statem.readState = .postProcess wst →
    wst = .moreA ∨ wst = .moreB
  synced : Synced s
  request : requested s.trace → s.s3.tmp.certRequest = true
  /-- a handshake that was set up has no history yet -/
  before : s.statem.handState = .before → s.trace = [] ∧ s.s3.handshakeDgst = none
  opening : s.statem.state = .reading → s.statem.handState = .ok →
    s.trace = [] ∧ s.s3.handshakeDgst = none
  /-- the server waits behind its own Finished only in a resumption -/
  waiting : s.statem.state = .reading → s.statem.handState = .swFinished → s.hit = true
  /-- the running hash was started when the ClientKeyExchange is done with -/
  digested : s.statem.handState = .srKeyExch → s.statem.readState = .header →
    s.s3.handshakeDgst ≠ none
  finished : s.statem.state = .finished → s.statem.handState = .ok

/-- A message of the client was fed to the transcript and noted. -/
theorem ServerInv.read (hs : ServerInv s) (hst : s.statem.state = .reading)
    (hrs : s.statem.readState = .header) (h : ServerRead lib s t mt body) : ServerInv t := by
  cases h with
  | hello body dg bf ch ret hfrom hret hfed ht =>
    have hsync := synced_accepted (by simp) (by simp) (hfed.hashes _ hs.synced)
    have hreq : requested (s.trace ++ [.accepted .clientHello body]) →
        s.s3.tmp.certRequest = true := fun h => hs.request (requested_accepted.mp h)
    cases hret with
    | inl hcont =>
      obtain ⟨hcont, _⟩ := hcont
      subst ht hcont
      exact ⟨hs.server, hs.version, hs.certVerify, hs.writeState,
        by simp [SSL.afterProcess], hsync, hreq, by simp [SSL.afterProcess],
        by simp [SSL.afterProcess], by simp [SSL.afterProcess], by simp [SSL.afterProcess],
        by simp [SSL.afterProcess, hst]⟩
    | inr hfin =>
      obtain ⟨hfin, _⟩ := hfin
      subst ht hfin
      exact ⟨hs.server, hs.version, hs.certVerify, rfl, by simp [SSL.afterProcess], hsync, hreq,
        by simp [SSL.afterProcess], by simp [SSL.afterProcess], by simp [SSL.afterProcess],
        by simp [SSL.afterProcess], by simp [SSL.afterProcess]⟩
  | noCertificate body dg bf hfrom hverify hsm2dhe _ hhash ht =>
    obtain ⟨vr, ht⟩ := ht
    subst ht
    exact ⟨hs.server, hs.version, hs.certVerify, hs.writeState, by simp,
      synced_accepted (by simp) (by simp) (hhash hs.synced),
      fun h => hs.request (requested_accepted.mp h), by simp, by simp, by simp, by simp, by simp [hst]⟩
  | certificate body certs i j dg bf hfrom hparse hlen hi hj hfed ht =>
    obtain ⟨vr, ht⟩ := ht
    subst ht
    refine ⟨hs.server, hs.version, hs.certVerify, hs.writeState, by simp, ?_,
      fun h => hs.request (requested_certificate.mp h), by simp, by simp, by simp, by simp, by simp [hst]⟩
    have hsync : Hashes dg bf (transcriptOf (s.trace ++ [.accepted .certificate body])) :=
      synced_accepted (by simp) (by simp) (hfed.hashes _ hs.synced)
    unfold Synced
    simpa [Obs.bytes] using hsync
  | keyExchange body dg dg' bf hfrom hfed hhash ht =>
    obtain ⟨kex, mk, ht⟩ := ht
    subst ht
    exact ⟨hs.server, hs.version, hs.certVerify, hs.writeState, by simp,
      synced_accepted (by simp) (by simp) (hhash (hfed.hashes _ hs.synced)),
      fun h => hs.request (requested_accepted.mp h), by simp, by simp, by simp, by simp, by simp [hst]⟩
  | certVerify body peer dg bf hfrom hpeer hsigned hfed ht =>
    obtain ⟨lu, ht⟩ := ht
    subst ht
    have hsync := synced_accepted (by simp) (by simp) (hfed.hashes _ hs.synced)
    refine ⟨hs.server, hs.version, hs.certVerify, hs.writeState, by simp, ⟨hsync.dgst, ?_⟩,
      fun h => hs.request (requested_accepted.mp h), by simp, by simp, by simp, by simp, by simp [hst]⟩
    intro hnone
    exact absurd (hfed.unstarted.mp hnone) (hs.digested hfrom hrs)
  | change hfrom ht =>
    subst ht
    refine ⟨hs.server, hs.version, hs.certVerify, hs.writeState, by simp, ?_,
      fun h => hs.request (requested_accepted.mp h), by simp, by simp, by simp, by simp, by simp [hst]⟩
    have hsync := hs.synced
    unfold Synced at hsync ⊢
    simpa [Obs.bytes] using hsync
  | nextProto body dg bf hfrom hfed ht =>
    subst ht
    exact ⟨hs.server, hs.version, hs.certVerify, hs.writeState, by simp,
      synced_accepted (by simp) (by simp) (hfed.hashes _ hs.synced),
      fun h => hs.request (requested_accepted.mp h), by simp, by simp, by simp, by simp, by simp [hst]⟩
  | finished body c hfrom hc hmac ht =>
    obtain ⟨cl, ht⟩ := ht
    subst ht
    have htrans : s.transcript = transcriptOf s.trace := hs.synced.transcript
    refine ⟨hs.server, hs.version, hs.certVerify, rfl, by simp,
      synced_accepted (by simp) (by simp) ⟨?_, by simp⟩,
      fun h => hs.request (requested_accepted.mp h), by simp, by simp, by simp, by simp, by simp⟩
    intro d hd
    injection hd with hd
    rw [← hd, htrans]

theorem ServerInv.posted (hs : ServerInv s) (hst : s.statem.state = .reading)
    (h : ServerPosted s t) : ServerInv t := by
  cases h with
  | hello r s₁ hfrom hframe hchoice ht =>
    have hsync : Synced s₁ := by
      have hsync := hs.synced
      unfold Synced at hsync ⊢
      rw [hframe.dgst, hframe.buffer, hframe.trace]
      exact hsync
    have hst₁ : s₁.statem.handState = .srClntHello := by rw [hframe.statem, hfrom]
    have hreq : requested s₁.trace → s₁.s3.tmp.certRequest = true := by
      rw [hframe.trace, hframe.certRequest]
      exact hs.request
    have hver : s₁.version = ntlsVersion := by rw [hframe.version, hs.version]
    have hsrv : s₁.server = true := by rw [hframe.server, hs.server]
    have hcv : s₁.statem.noCertVerify = false := by rw [hframe.statem, hs.certVerify]
    subst ht
    cases hchoice with
    | inl hmore =>
      obtain ⟨hr, _, _⟩ := hmore
      have ht : SSL.afterWork r s₁ = { s₁ with statem.readState := .postProcess r } := by
        cases hr with
        | inl hA => subst hA; rfl
        | inr hB => subst hB; rfl
      rw [ht]
      refine ⟨hsrv, hver, hcv, by simp [hframe.statem, hs.writeState], ?_, hsync, hreq,
        by simp [hst₁], by simp [hst₁], by simp [hst₁], by simp, by simp [hframe.statem, hst]⟩
      intro _ wst hwst
      injection hwst with hwst
      rw [← hwst]
      exact hr
    | inr hstop =>
      obtain ⟨hr, _, _⟩ := hstop
      subst hr
      exact ⟨hsrv, hver, hcv, rfl, by simp [SSL.afterWork], hsync, hreq,
        by simp [SSL.afterWork, hst₁], by simp [SSL.afterWork], by simp [SSL.afterWork],
        by simp [SSL.afterWork, hst₁], by simp [SSL.afterWork]⟩
  | keyExchange hfrom ht =>
    subst ht
    refine ⟨hs.server, hs.version, hs.certVerify, hs.writeState, by simp, ?_, hs.request,
      by simp [hfrom], by simp [hfrom], by simp [hfrom], by simp, by simp [hst]⟩
    exact ⟨fun d hd => by injection hd with hd; rw [← hd, hs.synced.transcript], by simp⟩

theorem ServerInv.wrote (hs : ServerInv s) (hst : s.statem.state = .writing)
    (h : ServerWrote s t) : ServerInv t := by
  cases h with
  | setup hfrom ht =>
    subst ht
    refine ⟨hs.server, hs.version, hs.certVerify, hs.writeState, by simp,
      ⟨by simp, by simp⟩, by simp, by simp, by simp, by simp [hfrom], by simp [hfrom], by simp⟩
  | request hfrom ht =>
    subst ht
    exact ⟨hs.server, hs.version, hs.certVerify, rfl, by simp [hst], ⟨by simp, by simp⟩,
      by simp, by simp, by simp, by simp, by simp, by simp [hst]⟩
  | turn hnext ht =>
    subst ht
    have hfrom := serverWriteNext_none hnext
    refine ⟨hs.server, hs.version, hs.certVerify, hs.writeState, by simp, hs.synced, hs.request,
      hs.before, ?_, ?_, ?_, by simp⟩
    · grind
    · grind
    · grind
  | done hnext ht =>
    obtain ⟨ren, cl, te, ht⟩ := ht
    subst ht
    exact ⟨hs.server, hs.version, hs.certVerify, hs.writeState, by simp, hs.synced, hs.request,
      by simp, by simp, by simp, by simp, by simp⟩
  | sent h hnext hne hsent =>
    obtain ⟨body, htrace, _⟩ := hsent.trace
    have hto : h ≠ .before ∧ h ≠ .srKeyExch := by
      have := serverWriteNext_some hnext
      grind
    have hstate : t.statem.state = .writing := by rw [hsent.statem, hst]
    have hhand : t.statem.handState = h := by rw [hsent.statem]
    refine ⟨by rw [hsent.server, hs.server], by rw [hsent.version, hs.version],
      by rw [hsent.statem, hs.certVerify], by rw [hsent.statem], by simp [hstate], hsent.synced hs.synced, ?_,
      by simp [hhand, hto.1], by simp [hstate], by simp [hstate], by simp [hhand, hto.2],
      by simp [hstate]⟩
    · rw [htrace, requested_sent, hsent.certRequest]
      intro hreq
      cases hreq with
      | inl hold => simp [hs.request hold]
      | inr hnew => simp [hnew]

theorem server_keeps (lib : Libcrypto X509 Pkey) :
    (server lib).Leads lib anyEvent ServerInv fun _ => ServerInv where
  fresh s t h := by
    rw [enterFresh_server h]
    exact ⟨rfl, rfl, rfl, rfl, by simp, ⟨by simp [sslClear], by simp [sslClear]⟩,
      by simp [sslClear], by simp [sslClear], by simp, by simp, by simp [sslClear], by simp⟩
  again s t hs hfin h := by
    cases enterAgain_server h with
    | inl hsame =>
      subst hsame
      exact ⟨rfl, hs.version, hs.certVerify, rfl, by simp, hs.synced, hs.request, hs.before,
        by simp, by simp, hs.digested, by simp⟩
    | inr hsetup =>
      subst hsetup
      exact ⟨rfl, hs.version, hs.certVerify, rfl, by simp, ⟨by simp, by simp⟩, by simp, by simp,
        by simp, by simp, by simp [hs.finished hfin], by simp⟩
  quiet s r p i q hs _ _ := ⟨hs.server, hs.version, hs.certVerify, hs.writeState, hs.post, hs.synced,
    hs.request, hs.before, hs.opening, hs.waiting, hs.digested, hs.finished⟩
  recv s mt body ans t hs _ hst hrs h := hs.read hst hrs (server_readMessage_ok h)
  post s wst ans t hs _ hst hrs h :=
    hs.posted hst (server_postProcessRound_ok (hs.post hst wst hrs) h)
  write s ans t hs hst h := hs.wrote hst (server_writeRound_ok hs.server hs.writeState h)

/-! ## a client that has to authenticate -/

/-- The verify mode insists on a certificate. -/
def insists (s : SSL X509 Pkey) : Prop :=
  hasBit s.verifyMode Verify.peer ∧ hasBit s.verifyMode Verify.failIfNoPeerCert

/-- What the server heard, in order, up to the state it reached: a ClientHello,
then a Certificate with two chains that verified, and so on. `leaf` is the
first certificate. -/
inductive Heard (lib : Libcrypto X509 Pkey) :
    HandState → Option X509 → List (Obs X509) → Prop where
  | hello {ch : Bytes} {out : List (Obs X509)} (hout : AllSent out) :
      Heard lib .swSrvrDone none (.accepted .clientHello ch :: out)
  | certificate {tr : List (Obs X509)} {cb : Bytes} {certs : List X509} {leaf : X509} {i j : Int}
      (h : Heard lib .swSrvrDone none tr) (hparse : parseClientCertificate lib cb = .ok certs)
      (hlen : 2 ≤ certs.length) (hleaf : certs.head? = some leaf) (hi : 0 < i) (hj : 0 < j) :
      Heard lib .srCert (some leaf)
        (tr ++ [.chain (pushShift certs) i, .chain certs j, .accepted .certificate cb])
  | keyExchange {tr : List (Obs X509)} {kb : Bytes} {leaf : X509}
      (h : Heard lib .srCert (some leaf) tr) :
      Heard lib .srKeyExch (some leaf) (tr ++ [.accepted .clientKeyExchange kb])
  | certVerify {tr : List (Obs X509)} {vb : Bytes} {leaf : X509}
      (h : Heard lib .srKeyExch (some leaf) tr) (hsigned : SignedBy lib leaf vb (transcriptOf tr)) :
      Heard lib .srCertVrfy (some leaf) (tr ++ [.accepted .certificateVerify vb])
  | change {tr : List (Obs X509)} {leaf : X509} (h : Heard lib .srCertVrfy (some leaf) tr) :
      Heard lib .srChange (some leaf) (tr ++ [.accepted .changeCipherSpec []])
  | nextProto {tr : List (Obs X509)} {nb : Bytes} {leaf : X509}
      (h : Heard lib .srChange (some leaf) tr) :
      Heard lib .srNextProto (some leaf) (tr ++ [.accepted .nextProto nb])

theorem Heard.hello_inv (h : Heard lib .swSrvrDone none tr) :
    ∃ ch out, tr = .accepted .clientHello ch :: out ∧ AllSent out := by
  cases h with
  | hello hout => exact ⟨_, _, rfl, hout⟩

variable (lib)

/-- The handshake of `s` came to a Finished with the expected MAC, and since
then the server only sent messages of its own. -/
def HeardFinished (s : SSL X509 Pkey) : Prop :=
  ∃ leaf tr fb out c, (Heard lib .srChange (some leaf) tr ∨ Heard lib .srNextProto (some leaf) tr) ∧
      s.trace = tr ++ .accepted .finished fb :: out ∧ AllSent out ∧
      s.s3.tmp.newCipher = some c ∧
      fb = finishMac lib c.handshakeMac s.session.masterKey "client finished" (transcriptOf tr)

/-- What has to be true in each state once a certificate was requested. -/
def AuthStage (s : SSL X509 Pkey) : Prop :=
  match s.statem.handState with
  | .swCertReq | .swSrvrDone => s.s3.handshakeDgst = none ∧ Heard lib .swSrvrDone none s.trace
  | .srCert => s.s3.handshakeDgst = none ∧
      ∃ leaf, s.session.peer = some leaf ∧ Heard lib .srCert (some leaf) s.trace
  | .srKeyExch => s.s3.handshakeBuffer = some (transcriptOf s.trace) ∧
      ∃ leaf, s.session.peer = some leaf ∧ Heard lib .srKeyExch (some leaf) s.trace
  | .srCertVrfy => ∃ leaf, Heard lib .srCertVrfy (some leaf) s.trace
  | .srChange => ∃ leaf, Heard lib .srChange (some leaf) s.trace
  | .srNextProto => ∃ leaf, Heard lib .srNextProto (some leaf) s.trace
  | .srFinished | .swSessionTicket | .swChange | .swFinished | .ok => HeardFinished lib s
  | _ => False

/-- So far there was the ClientHello and messages of the server, no request
among them. -/
def HelloOnly (tr : List (Obs X509)) : Prop :=
  (∃ ch out, tr = .accepted .clientHello ch :: out ∧ AllSent out) ∧ ¬ requested tr

/-- The states between the ClientHello and the decision on a request. -/
def undecided : HandState → Prop
  | .swSrvrHello | .swCert | .swCertStatus | .swKeyExch => True
  | _ => False

structure AuthInv (s : SSL X509 Pkey) : Prop where
  hello : s.statem.handState = .srClntHello → HelloOnly s.trace ∧ s.s3.handshakeDgst = none
  early : undecided s.statem.handState →
    HelloOnly s.trace ∧ (hasBit s.verifyMode Verify.peer → s.s3.handshakeDgst = none)
  /-- a server certificate is sent in full handshakes only -/
  full : s.statem.handState = .swCert ∨ s.statem.handState = .swCertStatus ∨
    s.statem.handState = .swKeyExch ∨ requested s.trace → s.hit = false
  heard : requested s.trace → insists s → AuthStage lib s

variable {lib}

/-- Past the decision, only the request counts. -/
theorem AuthInv.decided (hne : s.statem.handState ≠ .srClntHello)
    (hund : ¬ undecided s.statem.handState) (hfull : requested s.trace → s.hit = false)
    (hheard : requested s.trace → insists s → AuthStage lib s) : AuthInv lib s := by
  refine ⟨fun h => absurd h hne, fun h => absurd h hund, ?_, hheard⟩
  intro h
  rcases h with h | h | h | h
  · simp [undecided, h] at hund
  · simp [undecided, h] at hund
  · simp [undecided, h] at hund
  · exact hfull h

theorem AuthInv.full_of_requested (ha : AuthInv lib s) (h : requested s.trace) : s.hit = false :=
  ha.full (.inr (.inr (.inr h)))

theorem AuthInv.readHello (hs : ServerInv s) (hst : s.statem.state = .reading)
    (h : ServerRead lib s t .clientHello body) : AuthInv lib t := by
  cases h with
  | hello body dg bf ch ret hfrom hret hfed ht =>
    have hopen : s.trace = [] ∧ s.s3.handshakeDgst = none := by
      cases hfrom with
      | inl hbefore => exact hs.before hbefore
      | inr hok => exact hs.opening hst hok
    have htrace : t.trace = [.accepted .clientHello body] ∧ t.s3.handshakeDgst = none ∧
        t.statem.handState = .srClntHello := by
      have hdg := hfed.unstarted.mpr hopen.2
      cases hret with
      | inl hcont =>
        obtain ⟨hcont, _⟩ := hcont
        subst ht hcont
        simp [SSL.afterProcess, hopen.1, hdg]
      | inr hfin =>
        obtain ⟨hfin, _⟩ := hfin
        subst ht hfin
        simp [SSL.afterProcess, hopen.1, hdg]
    obtain ⟨htrace, hdg, hstate⟩ := htrace
    have hnot : ¬ requested t.trace := by simp [htrace, requested]
    refine ⟨fun _ => ⟨⟨⟨body, [], htrace, by simp [AllSent]⟩, hnot⟩, hdg⟩, ?_, ?_,
      fun h => absurd h hnot⟩
    · simp [hstate, undecided]
    · simp [hstate, hnot]

theorem AuthInv.readCertificate (ha : AuthInv lib s) (h : ServerRead lib s t .certificate body) :
    AuthInv lib t := by
  cases h with
  | noCertificate body dg bf hfrom hverify hsm2dhe _ hhash ht =>
    obtain ⟨vr, ht⟩ := ht
    subst ht
    exact .decided (by simp) (by simp [undecided]) (fun h => ha.full_of_requested (requested_accepted.mp h))
      fun _ hins => absurd hins hverify
  | certificate body certs i j dg bf hfrom hparse hlen hi hj hfed ht =>
    obtain ⟨vr, ht⟩ := ht
    subst ht
    refine .decided (by simp) (by simp [undecided]) (fun h => ha.full_of_requested (requested_certificate.mp h)) ?_
    intro hreq hins
    have hstage := ha.heard (requested_certificate.mp hreq) hins
    rw [AuthStage, hfrom] at hstage
    obtain ⟨hdg, hheard⟩ := hstage
    have hhead : ∃ leaf, certs.head? = some leaf := by
      cases certs with
      | nil => simp at hlen
      | cons leaf rest => exact ⟨leaf, rfl⟩
    obtain ⟨leaf, hhead⟩ := hhead
    exact ⟨hfed.unstarted.mpr hdg, leaf, hhead, .certificate hheard hparse hlen hhead hi hj⟩

theorem AuthInv.readKeyExchange (hs : ServerInv s) (ha : AuthInv lib s)
    (h : ServerRead lib s t .clientKeyExchange body) : AuthInv lib t := by
  cases h with
  | keyExchange body dg dg' bf hfrom hfed hhash ht =>
    obtain ⟨kex, mk, ht⟩ := ht
    subst ht
    refine .decided (by simp) (by simp [undecided]) (fun h => ha.full_of_requested (requested_accepted.mp h)) ?_
    intro hreq hins
    have hreq' := requested_accepted.mp hreq
    cases hfrom with
    | inl hdone =>
      have hcr := hs.request hreq'
      have hver := hs.version
      rcases hdone.2 with hno | hssl3
      · simp [hcr] at hno
      · simp [hver, ntlsVersion, ssl3Version] at hssl3
    | inr hcert =>
      have hstage := ha.heard hreq' hins
      rw [AuthStage, hcert] at hstage
      obtain ⟨hdg, leaf, hpeer, hheard⟩ := hstage
      refine ⟨?_, leaf, hpeer, .keyExchange hheard⟩
      simpa [Obs.bytes, isHrr] using hfed.buffer hdg hs.synced

theorem AuthInv.readCertVerify (hs : ServerInv s) (ha : AuthInv lib s)
    (hrs : s.statem.readState = .header) (h : ServerRead lib s t .certificateVerify body) :
    AuthInv lib t := by
  cases h with
  | certVerify body peer dg bf hfrom hpeer hsigned hfed ht =>
    obtain ⟨lu, ht⟩ := ht
    subst ht
    refine .decided (by simp) (by simp [undecided]) (fun h => ha.full_of_requested (requested_accepted.mp h)) ?_
    intro hreq hins
    have hstage := ha.heard (requested_accepted.mp hreq) hins
    rw [AuthStage, hfrom] at hstage
    obtain ⟨hbuf, leaf, hleaf, hheard⟩ := hstage
    rw [hpeer] at hleaf
    injection hleaf with hleaf
    subst hleaf
    -- the signature is over the buffer, which the message itself did not go into
    rw [hfed.started (hs.digested hfrom hrs), hbuf] at hsigned
    exact ⟨peer, .certVerify hheard hsigned⟩

theorem AuthInv.readChange (hs : ServerInv s) (ha : AuthInv lib s) (hst : s.statem.state = .reading)
    (h : ServerRead lib s t .changeCipherSpec body) : AuthInv lib t := by
  cases h with
  | change hfrom ht =>
    subst ht
    refine .decided (by simp) (by simp [undecided]) (fun h => ha.full_of_requested (requested_accepted.mp h)) ?_
    intro hreq hins
    have hreq' := requested_accepted.mp hreq
    have hstage := ha.heard hreq' hins
    rcases hfrom with hkex | hcv | hfin
    · rw [AuthStage, hkex.1] at hstage
      obtain ⟨_, leaf, hpeer, _⟩ := hstage
      rcases hkex.2 with hnone | hnocv
      · simp [hpeer] at hnone
      · simp [hs.certVerify] at hnocv
    · rw [AuthStage, hcv] at hstage
      obtain ⟨leaf, hheard⟩ := hstage
      exact ⟨leaf, .change hheard⟩
    · have hwait := hs.waiting hst hfin
      simp [ha.full_of_requested hreq'] at hwait

theorem AuthInv.readFinished (hs : ServerInv s) (ha : AuthInv lib s)
    (h : ServerRead lib s t .finished body) : AuthInv lib t := by
  cases h with
  | finished body c hfrom hc hmac ht =>
    obtain ⟨cl, ht⟩ := ht
    subst ht
    refine .decided (by simp) (by simp [undecided]) (fun h => ha.full_of_requested (requested_accepted.mp h)) ?_
    intro hreq hins
    have hstage := ha.heard (requested_accepted.mp hreq) hins
    have hheard : ∃ leaf, Heard lib .srChange (some leaf) s.trace ∨
        Heard lib .srNextProto (some leaf) s.trace := by
      cases hfrom with
      | inl hch =>
        rw [AuthStage, hch] at hstage
        exact hstage.imp fun _ => .inl
      | inr hnp =>
        rw [AuthStage, hnp] at hstage
        exact hstage.imp fun _ => .inr
    obtain ⟨leaf, hheard⟩ := hheard
    rw [hs.server, hs.synced.transcript] at hmac
    exact ⟨leaf, s.trace, body, [], c, hheard, rfl, by simp [AllSent], hc, hmac⟩

theorem AuthInv.read (hs : ServerInv s) (ha : AuthInv lib s) (hst : s.statem.state = .reading)
    (hrs : s.statem.readState = .header) (h : ServerRead lib s t mt body) : AuthInv lib t := by
  have hread := h
  cases h with
  | hello => exact .readHello hs hst hread
  | noCertificate => exact ha.readCertificate hread
  | certificate => exact ha.readCertificate hread
  | keyExchange => exact .readKeyExchange hs ha hread
  | certVerify => exact .readCertVerify hs ha hrs hread
  | change => exact .readChange hs ha hst hread
  | nextProto body dg bf hfrom hfed ht =>
    subst ht
    refine .decided (by simp) (by simp [undecided]) (fun h => ha.full_of_requested (requested_accepted.mp h)) ?_
    intro hreq hins
    have hstage := ha.heard (requested_accepted.mp hreq) hins
    rw [AuthStage, hfrom] at hstage
    obtain ⟨leaf, hheard⟩ := hstage
    exact ⟨leaf, .nextProto hheard⟩
  | finished => exact .readFinished hs ha hread

theorem AuthInv.posted (hs : ServerInv s) (ha : AuthInv lib s) (h : ServerPosted s t) :
    AuthInv lib t := by
  cases h with
  | hello r s₁ hfrom hframe hchoice ht =>
    obtain ⟨honly, hdg⟩ := ha.hello hfrom
    have ht₁ : t.trace = s.trace ∧ t.s3.handshakeDgst = none ∧
        t.statem.handState = .srClntHello := by
      rw [← hfrom, ← hdg, ← hframe.trace, ← hframe.dgst, ← hframe.statem, ht]
      cases r <;> exact ⟨rfl, rfl, rfl⟩
    obtain ⟨htrace, hdg', hst'⟩ := ht₁
    rw [← htrace] at honly
    refine ⟨fun _ => ⟨honly, hdg'⟩, ?_, ?_, fun h => absurd h honly.2⟩
    · simp [hst', undecided]
    · simp [hst', honly.2]
  | keyExchange hfrom ht =>
    subst ht
    refine .decided (by simp [hfrom]) (by simp [hfrom, undecided])
      (fun h => ha.full (.inr (.inr (.inr h)))) ?_
    intro hreq hins
    have hstage := ha.heard hreq hins
    rw [AuthStage, hfrom] at hstage
    obtain ⟨hbuf, leaf, hpeer, hheard⟩ := hstage
    simp only [AuthStage, hfrom]
    refine ⟨?_, leaf, hpeer, hheard⟩
    simp [hpeer, hs.certVerify, hbuf]

/-- A further message of the server after the client's Finished. -/
theorem HeardFinished.sent (hf : HeardFinished lib s) (hsent : ServerSent s t h) :
    HeardFinished lib t := by
  obtain ⟨leaf, tr, fb, out, c, hheard, htrace, hout, hc, hmac⟩ := hf
  obtain ⟨body, htrace', _⟩ := hsent.trace
  refine ⟨leaf, tr, fb, out ++ [.sent (serverMsgType h) body], c, hheard, ?_, hout.concat, ?_, ?_⟩
  · rw [htrace', htrace, List.append_assoc, List.cons_append]
  · rw [hsent.newCipher, hc]
  · rw [hsent.masterKey, hmac]

theorem HelloOnly.sent {body : Bytes} (hne : h ≠ .swCertReq)
    (honly : HelloOnly tr) : HelloOnly (tr ++ [.sent (serverMsgType h) body]) := by
  obtain ⟨⟨ch, out, htr, hout⟩, hnot⟩ := honly
  refine ⟨⟨ch, out ++ [.sent (serverMsgType h) body], by rw [htr, List.cons_append],
    hout.concat⟩, ?_⟩
  rw [requested_sent]
  simp [hnot, hne]

/-- A message before the decision on a request. -/
theorem AuthInv.sent_undecided (hsent : ServerSent s t h) (hund : undecided h)
    (hfull : h ≠ .swSrvrHello → s.hit = false)
    (hs : HelloOnly s.trace ∧ (hasBit s.verifyMode Verify.peer → s.s3.handshakeDgst = none)) :
    AuthInv lib t := by
  obtain ⟨body, htrace, _⟩ := hsent.trace
  have hhand : t.statem.handState = h := by rw [hsent.statem]
  have honly : HelloOnly t.trace := by
    rw [htrace]
    refine hs.1.sent ?_
    intro hreq
    simp [undecided, hreq] at hund
  refine ⟨?_, fun _ => ⟨honly, ?_⟩, ?_, fun h => absurd h honly.2⟩
  · intro hhello
    rw [← hhand, hhello] at hund
    simp [undecided] at hund
  · intro hpeer
    rw [hsent.verifyMode] at hpeer
    refine hsent.hash ⟨hpeer, ?_, ?_⟩ (hs.2 hpeer)
    · intro hfin
      change h = .swFinished at hfin
      simp [undecided, hfin] at hund
    · intro hdone
      change h = .swSrvrDone at hdone
      simp [undecided, hdone] at hund
  · intro hfrom
    rw [hsent.hit]
    rw [hhand] at hfrom
    refine hfull ?_
    intro hsrv
    simp [hsrv, honly.2] at hfrom

/-- A message in a handshake whose client was heard to the end. -/
theorem AuthInv.sent_finished (ha : AuthInv lib s) (hsent : ServerSent s t h)
    (hh : h = .swSessionTicket ∨ h = .swChange ∨ h = .swFinished)
    (hs : requested s.trace → insists s → HeardFinished lib s) : AuthInv lib t := by
  obtain ⟨body, htrace, _⟩ := hsent.trace
  have hhand : t.statem.handState = h := by rw [hsent.statem]
  have hreq : requested t.trace → requested s.trace := by
    rw [htrace, requested_sent]
    grind
  refine .decided ?_ ?_ ?_ ?_
  · rw [hhand]
    grind
  · rw [hhand]
    rcases hh with h | h | h <;> simp [h, undecided]
  · intro h
    rw [hsent.hit]
    exact ha.full (.inr (.inr (.inr (hreq h))))
  · intro h hins
    have hins' : insists s := by
      unfold insists at hins ⊢
      rw [← hsent.verifyMode]
      exact hins
    have hf := (hs (hreq h) hins').sent hsent
    rw [AuthStage, hhand]
    rcases hh with h | h | h <;> simpa [h] using hf

theorem AuthInv.wrote (hs : ServerInv s) (ha : AuthInv lib s) (h : ServerWrote s t) :
    AuthInv lib t := by
  cases h with
  | setup hfrom ht =>
    subst ht
    exact .decided (by simp [hfrom]) (by simp [hfrom, undecided]) (by simp) (by simp)
  | request hfrom ht =>
    subst ht
    exact .decided (by simp) (by simp [undecided]) (by simp) (by simp)
  | turn hnext ht =>
    subst ht
    exact ⟨ha.hello, ha.early, ha.full, ha.heard⟩
  | done hnext ht =>
    obtain ⟨ren, cl, te, ht⟩ := ht
    subst ht
    refine .decided (by simp) (by simp [undecided]) (fun h => ha.full (.inr (.inr (.inr h)))) ?_
    intro hreq hins
    have hstage := ha.heard hreq hins
    have hto := serverWriteNext_some hnext
    simp only [reduceCtorEq, false_and, or_false, true_and] at hto
    rcases hto with h | h | h | h
    · simp [AuthStage, h] at hstage
    · simp [AuthStage, h.1] at hstage
    · rw [AuthStage, h.1] at hstage
      exact hstage
    · rw [AuthStage, h.1] at hstage
      exact hstage
  | sent h hnext hne hsent =>
    obtain ⟨body, htrace, _⟩ := hsent.trace
    have hhand : t.statem.handState = h := by rw [hsent.statem]
    have hhit : requested s.trace → s.hit = false := fun h => ha.full (.inr (.inr (.inr h)))
    have hins : insists t → insists s := by
      unfold insists
      rw [hsent.verifyMode]
      exact id
    rcases serverWriteNext_some hnext with h | h | h | h | h | h | h | h | h | h
    · exact absurd h.1 hne
    · obtain ⟨hh, hfrom⟩ := h
      subst hh
      obtain ⟨honly, hdg⟩ := ha.hello hfrom
      exact .sent_undecided hsent trivial (by simp) ⟨honly, fun _ => hdg⟩
    · obtain ⟨hh, hfrom, hfull⟩ := h
      subst hh
      exact .sent_undecided hsent trivial (fun _ => hfull) (ha.early (by simp [hfrom, undecided]))
    · obtain ⟨hh, hfrom⟩ := h
      subst hh
      exact .sent_undecided hsent trivial (fun _ => ha.full (.inl hfrom))
        (ha.early (by simp [hfrom, undecided]))
    · obtain ⟨hh, hfrom⟩ := h
      subst hh
      rcases hfrom with hfrom | hfrom | hfrom
      · exact .sent_undecided hsent trivial (fun _ => hfrom.2)
          (ha.early (by simp [hfrom.1, undecided]))
      · exact .sent_undecided hsent trivial (fun _ => ha.full (.inl hfrom))
          (ha.early (by simp [hfrom, undecided]))
      · exact .sent_undecided hsent trivial (fun _ => ha.full (.inr (.inl hfrom)))
          (ha.early (by simp [hfrom, undecided]))
    · obtain ⟨hh, hfrom, _⟩ := h
      subst hh
      obtain ⟨honly, hdg⟩ := ha.early (by simp [hfrom, undecided])
      obtain ⟨⟨ch, out, htr, hout⟩, _⟩ := honly
      refine .decided (by simp [hhand]) (by simp [hhand, undecided])
        (fun _ => by rw [hsent.hit]; exact ha.full (.inr (.inr (.inl hfrom)))) ?_
      intro _ hi
      rw [AuthStage, hhand]
      refine ⟨hsent.hash ⟨(hins hi).1, by simp, by simp⟩ (hdg (hins hi).1), ?_⟩
      rw [htrace, htr]
      exact .hello hout.concat
    · obtain ⟨hh, hfrom⟩ := h
      subst hh
      have hreq : requested t.trace → requested s.trace := by
        rw [htrace, requested_sent]
        simp
      refine .decided (by simp [hhand]) (by simp [hhand, undecided])
        (fun h => by rw [hsent.hit]; exact hhit (hreq h)) ?_
      intro hr hi
      cases hfrom with
      | inl hkex =>
        obtain ⟨honly, _⟩ := ha.early (by simp [hkex.1, undecided])
        exact absurd (hreq hr) honly.2
      | inr hcr =>
        have hstage := ha.heard (hreq hr) (hins hi)
        rw [AuthStage, hcr] at hstage
        obtain ⟨hdg, hheard⟩ := hstage
        rw [AuthStage, hhand]
        refine ⟨hsent.hash ⟨(hins hi).1, by simp, fun _ => hs.request (hreq hr)⟩ hdg, ?_⟩
        obtain ⟨ch, out, htr, hout⟩ := hheard.hello_inv
        rw [htrace, htr]
        exact .hello hout.concat
    · obtain ⟨hh, hfrom⟩ := h
      refine .sent_finished ha hsent (.inl hh) ?_
      intro hr hi
      rcases hfrom with hfrom | hfrom
      · exact absurd hr (ha.early (by simp [hfrom.1, undecided])).1.2
      · simpa [AuthStage, hfrom.1] using ha.heard hr hi
    · obtain ⟨hh, hfrom⟩ := h
      refine .sent_finished ha hsent (.inr (.inl hh)) ?_
      intro hr hi
      rcases hfrom with hfrom | hfrom | hfrom
      · exact absurd hr (ha.early (by simp [hfrom.1, undecided])).1.2
      · simpa [AuthStage, hfrom.1] using ha.heard hr hi
      · simpa [AuthStage, hfrom] using ha.heard hr hi
    · obtain ⟨hh, hfrom⟩ := h
      refine .sent_finished ha hsent (.inr (.inr hh)) ?_
      intro hr hi
      simpa [AuthStage, hfrom] using ha.heard hr hi

theorem server_authenticates (lib : Libcrypto X509 Pkey) :
    (server lib).Leads lib anyEvent (fun s => ServerInv s ∧ AuthInv lib s) fun _ => AuthInv lib where
  fresh s t h := by
    rw [enterFresh_server h]
    exact .decided (by simp [sslClear]) (by simp [sslClear, undecided]) (by simp [sslClear])
      (by simp [sslClear])
  again s t hs hfin h := by
    have hok := hs.1.finished hfin
    cases enterAgain_server h with
    | inl hsame =>
      subst hsame
      exact ⟨hs.2.hello, hs.2.early, hs.2.full, hs.2.heard⟩
    | inr hsetup =>
      subst hsetup
      exact .decided (by simp [hok]) (by simp [hok, undecided]) (by simp) (by simp)
  quiet s r p i q hs _ _ := ⟨hs.2.hello, hs.2.early, hs.2.full, hs.2.heard⟩
  recv s mt body ans t hs _ hst hrs h := hs.2.read hs.1 hst hrs (server_readMessage_ok h)
  post s wst ans t hs _ hst hrs h :=
    hs.2.posted hs.1 (server_postProcessRound_ok (hs.1.post hst wst hrs) h)
  write s ans t hs _ h := hs.2.wrote hs.1 (server_writeRound_ok hs.1.server hs.1.writeState h)

/-- The history of an authenticated client, message by message.  Behind the
ClientHello and the flight of the server come a Certificate whose two chains
verified (the encryption certificate as leaf, then the signing one), a
ClientKeyExchange, a CertificateVerify under the key of the first certificate
over all messages before it, a ChangeCipherSpec, a next-protocol message if
one was agreed, and a Finished with the expected MAC. -/
def ClientAuthenticated (lib : Libcrypto X509 Pkey) (s : SSL X509 Pkey) : Prop :=
  ∃ ch out certs leaf i j cb kb vb np fb out' c,
    AllSent out ∧ AllSent out' ∧ (np = [] ∨ ∃ nb, np = [Obs.accepted .nextProto nb]) ∧
      s.trace = .accepted .clientHello ch :: out ++
        [.chain (pushShift certs) i, .chain certs j, .accepted .certificate cb,
          .accepted .clientKeyExchange kb, .accepted .certificateVerify vb,
          .accepted .changeCipherSpec []] ++ np ++ .accepted .finished fb :: out' ∧
      parseClientCertificate lib cb = .ok certs ∧ 2 ≤ certs.length ∧ 0 < i ∧ 0 < j ∧
      certs.head? = some leaf ∧
      SignedBy lib leaf vb (transcriptOf (.accepted .clientHello ch :: out ++
        [.accepted .certificate cb, .accepted .clientKeyExchange kb])) ∧
      s.s3.tmp.newCipher = some c ∧
      fb = finishMac lib c.handshakeMac s.session.masterKey "client finished"
        (transcriptOf (.accepted .clientHello ch :: out ++
          [.accepted .certificate cb, .accepted .clientKeyExchange kb,
            .accepted .certificateVerify vb] ++ np))

/-- The stages of `Heard`, put together. -/
theorem Heard.change_inv {leaf : X509}
    (h : Heard lib .srChange (some leaf) tr) :
    ∃ ch out certs i j cb kb vb, AllSent out ∧ tr = .accepted .clientHello ch :: out ++
        [.chain (pushShift certs) i, .chain certs j, .accepted .certificate cb,
          .accepted .clientKeyExchange kb, .accepted .certificateVerify vb,
          .accepted .changeCipherSpec []] ∧
      parseClientCertificate lib cb = .ok certs ∧ 2 ≤ certs.length ∧ 0 < i ∧ 0 < j ∧
      certs.head? = some leaf ∧
      SignedBy lib leaf vb (transcriptOf (.accepted .clientHello ch :: out ++
        [.accepted .certificate cb, .accepted .clientKeyExchange kb])) := by
  cases h with
  | change h =>
    cases h with
    | @certVerify _ vb _ h hsigned =>
      cases h with
      | @keyExchange _ kb _ h =>
        cases h with
        | certificate h hparse hlen hleaf hi hj =>
          obtain ⟨ch, out, htr, hout⟩ := h.hello_inv
          subst htr
          refine ⟨ch, out, _, _, _, _, kb, vb, hout, ?_, hparse, hlen, hi, hj, hleaf, ?_⟩
          · simp
          · simpa using hsigned

theorem HeardFinished.authenticated (h : HeardFinished lib s) : ClientAuthenticated lib s := by
  obtain ⟨leaf, tr, fb, out', c, hheard, htrace, hout', hc, hmac⟩ := h
  cases hheard with
  | inl hchange =>
    obtain ⟨ch, out, certs, i, j, cb, kb, vb, hout, htr, hparse, hlen, hi, hj, hleaf, hsigned⟩ :=
      hchange.change_inv
    refine ⟨ch, out, certs, leaf, i, j, cb, kb, vb, [], fb, out', c, hout, hout', .inl rfl, ?_,
      hparse, hlen, hi, hj, hleaf, hsigned, hc, ?_⟩
    · rw [htrace, htr]
      simp
    · rw [hmac, htr]
      simp
  | inr hnext =>
    cases hnext with
    | @nextProto _ nb _ hchange =>
      obtain ⟨ch, out, certs, i, j, cb, kb, vb, hout, htr, hparse, hlen, hi, hj, hleaf,
        hsigned⟩ := hchange.change_inv
      refine ⟨ch, out, certs, leaf, i, j, cb, kb, vb, _, fb, out', c, hout, hout', .inr ⟨nb, rfl⟩,
        ?_, hparse, hlen, hi, hj, hleaf, hsigned, hc, ?_⟩
      · rw [htrace, htr]
      · rw [hmac, htr]
        simp

/-- **Client authentication.**  Whatever the client sends, a server that
insists on a certificate and asked for one is at `TLS_ST_OK` only with an
authenticated client. -/
theorem server_ok_authenticated (lib : Libcrypto X509 Pkey) {es : List (Event (ServerAnswers X509))}
    (hs : s.inBefore) (hins : insists s) (hrun : Run.run (step lib (server lib)) s es = some t)
    (hlive : t.live) (hok : t.statem.handState = .ok) (hreq : requested t.trace) :
    ClientAuthenticated lib t := by
  have hinv := ((server_keeps lib).and (server_authenticates lib)).run hs meets_anyEvent hrun hlive
  have hmode : insists t := Run.invariant (C := anyEvent) (P := insists) (fun _ _ _ hp _ h =>
      (server_keepsMode lib (p := fun mode => hasBit mode Verify.peer ∧
        hasBit mode Verify.failIfNoPeerCert) (by decide)).step hp h) hins meets_anyEvent hrun
  have hstage := hinv.2.heard hreq hmode
  rw [AuthStage, hok] at hstage
  exact HeardFinished.authenticated hstage

/-! ## a run -/

/-- A server with SM2 certificates and a verify mode, before its first
handshake. -/
def plainServer (mode : Nat) : SSL Bytes (String × Bytes) where
  verifyMode := mode
  sidCtx := [1]
  cert :=
    { sm2Sign := ⟨some [0, 1], some ("SM2", [1])⟩
      sm2Enc := ⟨some [0, 2], some ("SM2", [2])⟩ }

/-- A ClientHello that offers one cipher. -/
def plainHello (suite : Bytes) : Bytes :=
  [1, 1] ++ List.replicate 32 7 ++ [0, 0, 2] ++ suite ++ [1, 0]

/-- A full handshake with `ECC-SM2-SM4-CBC-SM3` and a client certificate. -/
def plainAuthRun : List (Event (ServerAnswers Bytes)) :=
  [ .enter, .write {}, .recv .clientHello (plainHello [0xE0, 0x13]) {},
    .postProcess { cipher := some sm2Suite },
    .write {}, .write {}, .write {}, .write {}, .write {}, .write {},
    .recv .certificate [0, 0, 10, 0, 0, 2, 0, 5, 0, 0, 2, 0, 6] {},
    .recv .clientKeyExchange ([0, 48] ++ List.replicate 48 9) {}, .postProcess {},
    .recv .certificateVerify [0, 1, 5] {}, .recv .changeCipherSpec [] {},
    .recv .finished ([2, 0] ++ List.replicate 10 9) {}, .write {}, .write {}, .write {} ]

theorem server_ok_authenticated_plain :
    ∃ t, Run.run (step .plain (server .plain)) (plainServer 3) plainAuthRun = some t ∧
      ClientAuthenticated .plain t := by
  obtain ⟨t, hrun, hstate, hok, hreq⟩ : ∃ t,
      Run.run (step .plain (server .plain)) (plainServer 3) plainAuthRun = some t ∧
      t.statem.state = .finished ∧ t.statem.handState = .ok ∧
      .sent .certificateRequest [0, 0, 0] ∈ t.trace := by decide +kernel
  exact ⟨t, hrun, server_ok_authenticated .plain ⟨rfl, rfl⟩ ⟨by decide, by decide⟩ hrun
    (.inr (.inr hstate)) hok ⟨_, hreq⟩⟩

end Tlcp
