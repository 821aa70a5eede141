import Mathlib.Data.List.Rotate
import Tlcp.Ntls.Within

/-!
# Tlcp.Ntls.PeerChains

The two chains of the peer: the encryption certificate is verified first, with
the list rotated so that it is the leaf, and the signing certificate after it.

On the client the verifier may ask to be called again.  A call that asked so
on the first chain leaves the list rotated, and the next round rotates it once
more: behind `k` such calls the list is rotated by `k`
(`certRounds_rotate`).

Both ends keep one result for the two chains, that of the second.
-/

namespace Tlcp

open Octets Fallible

variable {X509 Pkey : Type} {lib : Libcrypto X509 Pkey} {s t u : SSL X509 Pkey}
  {ans : ClientAnswers X509 Pkey}
variable {anss : List (ClientAnswers X509 Pkey)} {enc sign : VerifyAnswer}

/-- `X509_V_OK` -/
def x509VOk : Int := 0

theorem pushShift_eq_rotate (xs : List X509) : pushShift xs = xs.rotate 1 := by
  cases xs <;> simp [pushShift]

/-! ## a round of the client -/

/-- `i > 0 && s->rwstate == SSL_RETRY_VERIFY` -/
def VerifyAnswer.asksAgain (a : VerifyAnswer) : Bool := decide (0 < a.i ∧ a.retry = true)

/-- A round on two certificates or more, by how it ended: the results of the
two calls of the verifier and where the list was left. -/
inductive CertRound (ans : ClientAnswers X509 Pkey) (s t : SSL X509 Pkey) (r : Work) : Prop where
  | againEnc (hagain : ans.verifyEnc.asksAgain = true) (hr : r = .moreA)
      (ht : t = { s with
        session.peerChain := pushShift s.session.peerChain
        verifyResult := ans.verifyEnc.verifyResult
        trace := s.trace ++ [.chain (pushShift s.session.peerChain) ans.verifyEnc.i] })
  | againSign (henc : ans.verifyEnc.asksAgain = false) (hr : r = .moreA)
      (ht : t = { s with
        verifyResult := ans.verifySign.verifyResult
        trace := s.trace ++ [.chain (pushShift s.session.peerChain) ans.verifyEnc.i,
          .chain s.session.peerChain ans.verifySign.i] })
  | adopted (henc : ans.verifyEnc.asksAgain = false) (hr : r = .finishedContinue)
      (hmode : s.verifyMode ≠ Verify.none → 0 < ans.verifyEnc.i ∧ 0 < ans.verifySign.i)
      (ht : t = { s with
        verifyResult := ans.verifySign.verifyResult
        session.peer := s.session.peerChain.head?
        session.verifyResult := ans.verifySign.verifyResult
        trace := s.trace ++ [.chain (pushShift s.session.peerChain) ans.verifyEnc.i,
          .chain s.session.peerChain ans.verifySign.i] })

theorem certRound_ok {r : Work} (hlen : 2 ≤ s.session.peerChain.length)
    (h : (tlsPostProcessServerCertificate lib ans).run s = .ok r t) : CertRound ans s t r := by
  rw [tlsPostProcessServerCertificate, run_get_bind_ok] at h
  dsimp only at h
  rw [if_pos hlen] at h
  obtain ⟨again, s₁, henc, h⟩ := run_bind_ok.mp h
  obtain ⟨hagain, hi, hs₁⟩ := verifyServerChain_ok henc
  cases again with
  | true =>
    obtain ⟨hr, ht⟩ := run_pure_ok.mp h
    exact .againEnc hagain.symm hr.symm (by rw [← ht, hs₁])
  | false =>
    obtain ⟨again, s₂, hsign, h⟩ := run_bind_ok.mp h
    obtain ⟨_, hj, hs₂⟩ := verifyServerChain_ok hsign
    rw [unshiftPop_pushShift] at h hs₂
    subst hs₁ hs₂
    simp only [List.append_assoc] at h
    cases again with
    | true =>
      obtain ⟨hr, ht⟩ := run_pure_ok.mp h
      exact .againSign hagain.symm hr.symm ht.symm
    | false =>
      obtain ⟨hr, _, ht⟩ := adoptPeer_ok h
      exact .adopted hagain.symm hr (fun hmode => ⟨hi rfl hmode, hj rfl hmode⟩) ht

/-- The client waits for the verifier, behind a Certificate message. -/
structure Verifying (s : SSL X509 Pkey) : Prop where
  hand : s.statem.handState = .crCert
  reading : s.statem.state = .reading
  post : ∃ wst, s.statem.readState = .postProcess wst
  two : 2 ≤ s.session.peerChain.length

/-- A round of the machine that did not fail. -/
theorem Verifying.step (hs : Verifying s) (h : step lib (client lib) s (.postProcess ans) = some t) :
    (∃ e, t.statem.state = .error e) ∨ ∃ r s₁, CertRound ans s s₁ r ∧ t = SSL.afterWork r s₁ := by
  obtain ⟨wst, hwst⟩ := hs.post
  simp only [Tlcp.step, hs.reading, hwst] at h
  injection h with h
  subst h
  cases hx : (postProcessRound (client lib) wst ans).run s with
  | error e s₁ => exact .inl ⟨e, rfl⟩
  | ok v s₁ =>
    obtain ⟨r, s₂, hpost, ht⟩ := postProcessRound_ok hx
    have hpost' : (clientPostProcess lib ans wst).run s = .ok r s₂ := hpost
    rw [clientPostProcess, run_get_bind_ok, hs.hand] at hpost'
    exact .inr ⟨r, s₂, certRound_ok hs.two hpost', ht⟩

/-! ## the order of the certificates -/

/-- How often the verifier asked to be called again on the first chain. -/
def firstRetries (anss : List (ClientAnswers X509 Pkey)) : Nat :=
  anss.countP fun a => a.verifyEnc.asksAgain

/-- The list is `certs`, its first certificate is the peer, and the last two
calls of the verifier had the second and the first certificate as the leaf. -/
structure InOrder (certs : List X509) (u : SSL X509 Pkey) : Prop where
  chain : u.session.peerChain = certs
  peer : u.session.peer = certs[0]?
  enc : u.peerEncCert = certs[1]?
  leaves : ∃ tr sk₁ sk₂ i j, u.trace = tr ++ [.chain sk₁ i, .chain sk₂ j] ∧
    sk₁[0]? = certs[1]? ∧ sk₂[0]? = certs[0]? ∧ (u.verifyMode ≠ Verify.none → 0 < i ∧ 0 < j)

/-- The rounds end. -/
def checkedCerts (u : SSL X509 Pkey) : Prop :=
  u.statem.state = .reading ∧ u.statem.readState = .header

instance (u : SSL X509 Pkey) : Decidable (checkedCerts u) := inferInstanceAs (Decidable (_ ∧ _))

theorem InOrder.of_adopted {certs : List X509} {i j : Int} {tr : List (Obs X509)}
    (hlen : 2 ≤ certs.length) (hchain : u.session.peerChain = certs)
    (hpeer : u.session.peer = certs.head?)
    (htrace : u.trace = tr ++ [.chain (pushShift certs) i, .chain certs j])
    (hmode : u.verifyMode ≠ Verify.none → 0 < i ∧ 0 < j) : InOrder certs u := by
  refine ⟨hchain, ?_, ?_, tr, _, _, i, j, htrace, ?_, rfl, hmode⟩
  · rw [hpeer, List.head?_eq_getElem?]
  · rw [SSL.peerEncCert, hchain]
  · rw [pushShift_eq_rotate, List.getElem?_rotate (by omega)]
    rw [Nat.zero_add, Nat.mod_eq_of_lt (by omega)]

theorem firstRetries_cons (anss : List (ClientAnswers X509 Pkey)) : firstRetries (ans :: anss) =
      firstRetries anss + if ans.verifyEnc.asksAgain = true then 1 else 0 :=
  List.countP_cons

/-- No round follows the last one. -/
theorem rounds_over
    (hs : s.statem.state = .reading → s.statem.readState = .header)
    (hrun : Run.run (step lib (client lib)) s (anss.map .postProcess) = some u) :
    anss = [] ∧ u = s := by
  cases anss with
  | nil =>
    injection hrun with hrun
    exact ⟨rfl, hrun.symm⟩
  | cons ans anss =>
    rw [List.map_cons] at hrun
    obtain ⟨t, hstep, _⟩ := Run.run_cons_eq_some.mp hrun
    obtain ⟨hst, wst, hrs⟩ := step_post hstep
    simp [hs hst] at hrs

/-- **Rounds**: behind the rounds the list is rotated once for each retry on the
first chain, and in order as rotated. -/
theorem certRounds_rotate (hs : Verifying s)
    (hrun : Run.run (step lib (client lib)) s (anss.map .postProcess) = some u)
    (hdone : checkedCerts u) :
    InOrder (s.session.peerChain.rotate (firstRetries anss)) u := by
  induction anss generalizing s with
  | nil =>
    injection hrun with hrun
    subst hrun
    obtain ⟨wst, hwst⟩ := hs.post
    simp [checkedCerts, hwst] at hdone
  | cons ans anss ih =>
    rw [List.map_cons] at hrun
    obtain ⟨t, hstep, hrun⟩ := Run.run_cons_eq_some.mp hrun
    rw [firstRetries_cons]
    rcases hs.step hstep with ⟨e, he⟩ | ⟨r, s₁, hround, ht⟩
    · obtain ⟨_, hu⟩ := rounds_over (by simp [he]) hrun
      subst hu
      simp [checkedCerts, he] at hdone
    cases hround with
    | againEnc hagain hr hs₁ =>
      subst hr hs₁
      have hchain : t.session.peerChain = s.session.peerChain.rotate 1 := by
        rw [ht, ← pushShift_eq_rotate]
        rfl
      have hwait : Verifying t := by
        refine ⟨?_, ?_, ⟨.moreA, ?_⟩, by simpa [hchain] using hs.two⟩ <;> rw [ht]
        · exact hs.hand
        · exact hs.reading
        · rfl
      have hnext := ih hwait hrun
      rw [hchain, List.rotate_rotate, Nat.add_comm] at hnext
      simpa [hagain] using hnext
    | againSign henc hr hs₁ =>
      subst hr hs₁
      have hchain : t.session.peerChain = s.session.peerChain := by
        rw [ht]
        rfl
      have hwait : Verifying t := by
        refine ⟨?_, ?_, ⟨.moreA, ?_⟩, by simpa [hchain] using hs.two⟩ <;> rw [ht]
        · exact hs.hand
        · exact hs.reading
        · rfl
      have hnext := ih hwait hrun
      rw [hchain] at hnext
      simpa [henc] using hnext
    | adopted henc hr hmode hs₁ =>
      subst hr hs₁ ht
      obtain ⟨hnil, hu⟩ := rounds_over (fun _ => rfl) hrun
      subst hnil hu
      rw [henc, if_neg (by simp), firstRetries, List.countP_nil, List.rotate_zero]
      exact InOrder.of_adopted hs.two rfl rfl rfl hmode

theorem reading_of_rounds
    (hrun : Run.run (step lib (client lib)) s (anss.map .postProcess) = some u)
    (hdone : checkedCerts u) : s.statem.state = .reading := by
  cases anss with
  | nil =>
    injection hrun with hrun
    rw [hrun]
    exact hdone.1
  | cons ans anss =>
    rw [List.map_cons] at hrun
    obtain ⟨t, hstep, _⟩ := Run.run_cons_eq_some.mp hrun
    exact (step_post hstep).1

variable (lib)

/-- **Order of the certificates.**  Behind a Certificate message with two
certificates or more, however often the verifier asks to be called again, the
certificates are in the order received exactly if the list is its own rotation
by the number of retries on the first chain. -/
theorem order_survives_iff {body : Bytes} {certs : List X509}
    {ans : ClientAnswers X509 Pkey} {anss : List (ClientAnswers X509 Pkey)}
    (hread : step lib (client lib) s (.recv .certificate body ans) = some t)
    (hcerts : parseServerCertificate lib body = .ok certs) (hlen : 2 ≤ certs.length)
    (hrun : Run.run (step lib (client lib)) t (anss.map .postProcess) = some u)
    (hdone : checkedCerts u) :
    InOrder certs u ↔ certs.rotate (firstRetries anss) = certs := by
  have hlive : t.live := .inl (reading_of_rounds hrun hdone)
  obtain ⟨hst, _, hread⟩ := step_recv hread hlive
  have hwait := client_readMessage_ok hread
  cases hwait with
  | certificate _ certs' _ _ _ _ hparse _ ht =>
    rw [hcerts] at hparse
    injection hparse with hparse
    subst hparse
    have hwait : Verifying t := by
      rw [ht]
      exact ⟨rfl, hst, ⟨_, rfl⟩, hlen⟩
    have hrot := certRounds_rotate hwait hrun hdone
    have hchain : t.session.peerChain = certs := by rw [ht]
    rw [hchain] at hrot
    constructor
    · intro hin
      exact hrot.chain.symm.trans hin.chain
    · intro hsame
      rw [← hsame]
      exact hrot

/-- A client that verifies, up to the two certificates 1 and 2. -/
def plainCertRun : List (Event (ClientAnswers Bytes (String × Bytes))) :=
  [.enter, .write {}, .write {}, .recv .serverHello plainServerHello {}]

/-- The verifier asks to be called again on the first chain. -/
def plainRetry : ClientAnswers Bytes (String × Bytes) := { verifyEnc := ⟨1, 0, true⟩ }

/-- Two retries on the first chain put two certificates back in order. -/
theorem order_survives_twice :
    ∃ u, Run.run (step .plain (client .plain)) { plainClient with verifyMode := Verify.peer }
        (plainCertRun ++ .recv .certificate plainCertificate {} ::
          [plainRetry, plainRetry, {}].map .postProcess) = some u ∧
      InOrder [[0, 1], [0, 2]] u := by
  obtain ⟨u, hrun, hu⟩ : ∃ u,
      Run.run (step .plain (client .plain)) { plainClient with verifyMode := Verify.peer }
        (plainCertRun ++ .recv .certificate plainCertificate {} ::
        [plainRetry, plainRetry, {}].map .postProcess) = some u ∧ checkedCerts u := by
    decide +kernel
  refine ⟨u, hrun, ?_⟩
  obtain ⟨s, _, hrun⟩ := Run.run_append_eq_some.mp hrun
  obtain ⟨t, hread, hrun⟩ := Run.run_cons_eq_some.mp hrun
  exact (order_survives_iff .plain hread (by decide +kernel) (by decide) hrun
    hu).mpr (by decide)

/-- One retry on the first chain, and the encryption certificate becomes the
peer. -/
theorem retry_swaps_certificates :
    ∃ u, Run.run (step .plain (client .plain)) { plainClient with verifyMode := Verify.peer }
        (plainCertRun ++ .recv .certificate plainCertificate {} ::
          [plainRetry, {}].map .postProcess) = some u ∧
      checkedCerts u ∧ parseServerCertificate .plain plainCertificate = .ok [[0, 1], [0, 2]] ∧
      u.session.peerChain = [[0, 2], [0, 1]] ∧ u.session.peer = some [0, 2] ∧
      u.peerEncCert = some [0, 1] := by
  decide +kernel

/-! ## the result of the verification -/

/-- A handshake of the client that ended in `u`: in the last round on the
certificates the verifier answered `enc` and `sign`. -/
def clientVerified (enc sign : VerifyAnswer) (u : SSL X509 Pkey) : Prop :=
  ∃ s₀ es₀ s ans t es, s₀.inBefore ∧ Run.run (step lib (client lib)) s₀ es₀ = some s ∧
    s.statem.handState = .crCert ∧ 2 ≤ s.session.peerChain.length ∧
    ans.verifyEnc = enc ∧ ans.verifySign = sign ∧
    step lib (client lib) s (.postProcess ans) = some t ∧ checkedCerts t ∧
    Run.Meets (step lib (client lib)) sameHandshake t es ∧
    Run.run (step lib (client lib)) t es = some u ∧ u.statem.state = .finished

/-- A handshake of the server that ended in `u`: on the client's Certificate
message the verifier answered `enc` and `sign`. -/
def serverVerified (enc sign : VerifyAnswer) (u : SSL X509 Pkey) : Prop :=
  ∃ s₀ es₀ s body certs ans t es, s₀.inBefore ∧ Run.run (step lib (server lib)) s₀ es₀ = some s ∧
    parseClientCertificate lib body = .ok certs ∧ 2 ≤ certs.length ∧
    ans.verifyEnc = enc ∧ ans.verifySign = sign ∧
    step lib (server lib) s (.recv .certificate body ans) = some t ∧ t.live ∧
    Run.Meets (step lib (server lib)) sameHandshake t es ∧
    Run.run (step lib (server lib)) t es = some u ∧ u.statem.state = .finished

variable {lib}

theorem clientVerified.result (h : clientVerified lib enc sign u) :
    u.session.verifyResult = sign.verifyResult := by
  obtain ⟨s₀, es₀, s, ans, t, es, hs₀, hrun₀, hhand, htwo, _, hsign, hstep, hdone, hsame, hrun,
    hfin⟩ := h
  have hinv : ClientInv t := (client_keeps lib).run hs₀ meets_anyEvent
    (Run.run_concat_eq_some.mpr ⟨s, hrun₀, hstep⟩) (.inl hdone.1)
  have hnotes : ClientNotes sign.verifyResult none t := by
    obtain ⟨hst, wst, hrs⟩ := step_post hstep
    rcases Verifying.step ⟨hhand, hst, ⟨wst, hrs⟩, htwo⟩ hstep with ⟨e, he⟩ | ⟨r, s₁, hround, ht⟩
    · simp [hdone.1] at he
    · have hread := hdone.2
      cases hround with
      | againEnc _ hr hs₁ => simp [ht, hr, SSL.afterWork] at hread
      | againSign _ hr hs₁ => simp [ht, hr, SSL.afterWork] at hread
      | adopted _ hr _ hs₁ =>
        subst hr hs₁
        subst ht
        exact ⟨.inl hdone.1, by simp [SSL.afterWork, hhand, pastServerCerts], fun _ => hread,
          by simp [SSL.afterWork, hhand], by rw [← hsign]; rfl, by simp⟩
  exact ((client_carries lib).run (client_keeps lib) hinv hnotes hsame hrun
    (.inr (.inr hfin))).verifyResult

/-- The server keeps the result of the second chain. -/
theorem server_readsCertificate {ans : ServerAnswers X509} {body : Bytes} {certs : List X509}
    {v : Unit} (hparse : parseClientCertificate lib body = .ok certs) (htwo : 2 ≤ certs.length)
    (h : (readMessage lib (server lib) .certificate body ans).run s = .ok v t) :
    t.statem.handState = .srCert ∧ t.session.verifyResult = ans.verifySign.verifyResult := by
  obtain ⟨s₁, s₂, ret, s₃, htran, hbody, hproc, ht⟩ := readMessage_ok h
  obtain ⟨hs, hnext, hs₁⟩ := server_readTransition_ok htran
  have hhs : hs = .srCert := by
    rcases serverReadTransition_ok hnext with h | h | h | h | h | h | h
    case inr.inl => exact h.2.1
    all_goals simp at h
  subst hs₁ hhs
  obtain ⟨dg, bf, _, hs₂⟩ := fed_of_read (by simp) hbody
  subst hs₂
  have hproc : (tlsProcessClientCertificate lib ans body).run _ = .ok ret s₃ := hproc
  obtain ⟨certs', s', hret, hparse', hcheck, hs₃⟩ := tlsProcessClientCertificate_ok hproc
  rw [hparse] at hparse'
  injection hparse' with hparse'
  subst hparse' hret hs₃ ht
  cases checkClientCerts_ok hcheck with
  | inl hnone => simp [hnone.1] at htwo
  | inr hchecked =>
    obtain ⟨_, _, _, hs'⟩ := hchecked
    subst hs'
    exact ⟨rfl, rfl⟩

theorem serverVerified.result (h : serverVerified lib enc sign u) :
    u.session.verifyResult = sign.verifyResult := by
  obtain ⟨s₀, es₀, s, body, certs, ans, t, es, hs₀, hrun₀, hparse, htwo, _, hsign, hstep, hlive,
    hsame, hrun, hfin⟩ := h
  have hinv : ServerInv t := (server_keeps lib).run hs₀ meets_anyEvent
    (Run.run_concat_eq_some.mpr ⟨s, hrun₀, hstep⟩) hlive
  have hnotes : ServerNotes (some sign.verifyResult) t.session.kexGroup t.kexState t := by
    obtain ⟨hst, _, hread⟩ := step_recv hstep hlive
    obtain ⟨hhand, hresult⟩ := server_readsCertificate hparse htwo hread
    exact ⟨hlive, by simp [hhand, pastOwnKex], by simp [hhand], rfl, fun _ => rfl, fun x hx => by
        injection hx with hx
        simp [hhand, pastClientCerts, pastOwnKex, hresult, hsign, hx]⟩
  exact (((server_carries lib).run (server_keeps lib) hinv hnotes hsame hrun
    (.inr (.inr hfin))).verifyResult _ rfl).2

/-- **One result for two chains.**  At the end of a handshake in which two
chains were verified, on either end, a result of `X509_V_OK` stands for both
exactly if the first chain did not fail behind a second one that passed. -/
theorem verifyResult_covers_iff (lib : Libcrypto X509 Pkey) {enc sign : VerifyAnswer}
    (h : clientVerified lib enc sign u ∨ serverVerified lib enc sign u) :
    (u.session.verifyResult = x509VOk → enc.verifyResult = x509VOk ∧ sign.verifyResult = x509VOk) ↔
      (sign.verifyResult = x509VOk → enc.verifyResult = x509VOk) := by
  have hresult : u.session.verifyResult = sign.verifyResult := by
    cases h with
    | inl h => exact h.result
    | inr h => exact h.result
  rw [hresult]
  constructor
  · exact fun h hok => (h hok).1
  · exact fun h hok => ⟨h hok, hok⟩

/-- The client's handshake behind the round on the certificates. -/
def plainAfterCerts : List (Event (ClientAnswers Bytes (String × Bytes))) := plainClientRun.drop 6

/-- A client with the verify mode `mode`, whose verifier answers `enc` and `sign`. -/
def plainVerifying (mode : Nat) (enc sign : VerifyAnswer) :
    Option (SSL Bytes (String × Bytes)) := do
  let s ← Run.run (step .plain (client .plain)) { plainClient with verifyMode := mode }
    (plainCertRun ++ [.recv .certificate plainCertificate {}])
  let t ← step .plain (client .plain) s
    (.postProcess { verifyEnc := enc, verifySign := sign })
  let u ← Run.run (step .plain (client .plain)) t plainAfterCerts
  if s.statem.handState = .crCert ∧ 2 ≤ s.session.peerChain.length ∧ checkedCerts t ∧
    Run.Meets (step .plain (client .plain)) sameHandshake t plainAfterCerts ∧
    u.statem.state = .finished then some u else none

theorem plainVerifying_verified {mode : Nat}
    {u : SSL Bytes (String × Bytes)} (h : plainVerifying mode enc sign = some u) :
    clientVerified .plain enc sign u := by
  simp only [plainVerifying, Option.bind_eq_bind, Option.bind_eq_some_iff,
    Option.ite_none_right_eq_some] at h
  obtain ⟨s, hrun, t, hstep, u', hrest, ⟨hhand, htwo, hdone, hsame, hfin⟩, hu⟩ := h
  injection hu with hu
  subst hu
  exact ⟨_, _, s, _, t, _, ⟨rfl, rfl⟩, hrun, hhand, htwo, rfl, rfl, hstep, hdone, hsame, hrest,
    hfin⟩

/-- A chain that passes in front of one that does not. -/
theorem verifyResult_covers_plain :
    ∃ enc sign u, clientVerified .plain enc sign u ∧ enc.verifyResult = x509VOk ∧
      (u.session.verifyResult = x509VOk →
        enc.verifyResult = x509VOk ∧ sign.verifyResult = x509VOk) := by
  obtain ⟨u, hu⟩ := Option.isSome_iff_exists.mp (by decide +kernel :
    (plainVerifying Verify.none ⟨1, x509VOk, false⟩ ⟨0, 20, false⟩).isSome = true)
  exact ⟨_, _, u, plainVerifying_verified hu, rfl,
    (verifyResult_covers_iff .plain (.inl (plainVerifying_verified hu))).mpr fun _ => rfl⟩

/-- A client that does not verify, and a server whose verifier overrides, report
`X509_V_OK` behind an encryption chain that failed. -/
theorem verifyResult_forgets_first :
    (∃ u, clientVerified .plain ⟨0, 20, false⟩ ⟨1, x509VOk, false⟩ u ∧
        u.session.verifyResult = x509VOk) ∧
      ∃ u, serverVerified .plain ⟨1, 20, false⟩ ⟨1, x509VOk, false⟩ u ∧
        u.session.verifyResult = x509VOk := by
  constructor
  · obtain ⟨u, hu, hresult⟩ : ∃ u,
        plainVerifying Verify.none ⟨0, 20, false⟩ ⟨1, x509VOk, false⟩ = some u ∧
        u.session.verifyResult = x509VOk := by decide +kernel
    exact ⟨u, plainVerifying_verified hu, hresult⟩
  · obtain ⟨s, hrun, t, hstep, hlive, hsame, u, hrest, hfin, hresult⟩ : ∃ s,
        Run.run (step .plain (server .plain)) (plainServer 3) (plainAuthRun.take 10) = some s ∧
        ∃ t, step .plain (server .plain) s (.recv .certificate
            [0, 0, 10, 0, 0, 2, 0, 5, 0, 0, 2, 0, 6]
            { verifyEnc := ⟨1, 20, false⟩, verifySign := ⟨1, x509VOk, false⟩ }) = some t ∧
          t.statem.state = .reading ∧
          Run.Meets (step .plain (server .plain)) sameHandshake t (plainAuthRun.drop 11) ∧
          ∃ u, Run.run (step .plain (server .plain)) t (plainAuthRun.drop 11) = some u ∧
            u.statem.state = .finished ∧ u.session.verifyResult = x509VOk := by decide +kernel
    exact ⟨u, ⟨_, _, s, _, [[0, 5], [0, 6]], _, t, _, ⟨rfl, rfl⟩, hrun, by decide +kernel,
      by decide, rfl, rfl, hstep, .inl hlive, hsame, hrest, hfin⟩, hresult⟩

end Tlcp
