import Tlcp.Ntls.ClientAuth
import Tlcp.Ntls.ServerAuth

/-!
# Tlcp.Ntls.Within

What a handshake keeps to its end.

`Machine.Carries.run` is the rule for a single handshake: from a point inside
it, the events up to its end neither clear the object nor go on behind a
finished handshake, so that the session is not replaced.  The two machines
carry what the session notes on the way, the result of the verification and
the group of the key exchange, from the message that decides it; between the
ServerKeyExchange and the ClientKeyExchange both keep what the first left.
-/

namespace Tlcp

open Octets Fallible

variable {X509 Pkey Ans : Type} {lib : Libcrypto X509 Pkey} {s t : SSL X509 Pkey}

/-! ## the rule -/

/-- The event belongs to the handshake under way: the object is not cleared,
and the handshake has not finished before. -/
def sameHandshake (s : SSL X509 Pkey) : Event Ans → Prop
  | .clear _ => False
  | _ => s.statem.state ≠ .finished

instance (s : SSL X509 Pkey) (e : Event Ans) : Decidable (sameHandshake s e) := by
  cases e <;> simp only [sameHandshake] <;> infer_instance

/-- What to check of a machine that keeps `P` so that it keeps `Q` to the end of
a handshake. -/
structure Machine.Carries (lib : Libcrypto X509 Pkey) (m : Machine X509 Pkey Ans)
    (P Q : SSL X509 Pkey → Prop) : Prop where
  live : ∀ s, Q s → s.live
  quiet : ∀ s r p i q, Q s → Q { s with
    renegotiate := r, s3.renegotiate := p, statem.inInit := i, statem.requestState := q }
  recv : ∀ s mt body ans t, P s → Q s → s.statem.state = .reading →
    s.statem.readState = .header → (readMessage lib m mt body ans).run s = .ok () t → Q t
  post : ∀ s wst ans t, P s → Q s → s.statem.state = .reading →
    s.statem.readState = .postProcess wst → (postProcessRound m wst ans).run s = .ok () t → Q t
  write : ∀ s ans t, P s → Q s → s.statem.state = .writing →
    (writeRound m ans).run s = .ok () t → Q t

theorem Machine.Carries.step {m : Machine X509 Pkey Ans} {P Q : SSL X509 Pkey → Prop}
    (hm : m.Carries lib P Q) {e : Event Ans} (hP : P s) (hQ : Q s) (hsame : sameHandshake s e)
    (h : Tlcp.step lib m s e = some t) : orFailed Q t := by
  have hlive := hm.live s hQ
  cases step_some h with
  | clear sentShutdown => exact hsame.elim
  | renegotiate => exact .inr (hm.quiet s _ _ _ _ hQ)
  | renegotiateCheck => exact .inr (hm.quiet s s.renegotiate _ _ _ hQ)
  | handshakeData =>
    exact .inr (hm.quiet s s.renegotiate s.s3.renegotiate _ s.statem.requestState hQ)
  | fresh hbefore => simp [SSL.live, hbefore.2] at hlive
  | again hfin => exact absurd hfin hsame
  | recv mt body ans hst hrs =>
    exact orFailed_settle fun t ht => hm.recv s mt body ans t hP hQ hst hrs ht
  | post wst ans hst hrs => exact orFailed_settle fun t ht => hm.post s wst ans t hP hQ hst hrs ht
  | write ans hst => exact orFailed_settle fun t ht => hm.write s ans t hP hQ hst ht
  | abort e => exact .inl ⟨e, rfl⟩

/-- **The rule**: what a machine carries holds at the end of the handshake. -/
theorem Machine.Carries.run {m : Machine X509 Pkey Ans} {P Q : SSL X509 Pkey → Prop}
    (hm : m.Carries lib P Q) (hkeeps : m.Leads lib anyEvent P fun _ => P)
    {es : List (Event Ans)} (hP : P s) (hQ : Q s)
    (hsame : Run.Meets (Tlcp.step lib m) sameHandshake s es)
    (hrun : Run.run (Tlcp.step lib m) s es = some t) (ht : t.live) : Q t := by
  have hinv : orFailed (fun s => P s ∧ Q s) t := by
    refine Run.invariant (P := orFailed fun s => P s ∧ Q s) ?_ (.inr ⟨hP, hQ⟩) hsame hrun
    intro u e v hu he hstep
    cases hu with
    | inl hfailed =>
      obtain ⟨f, hf⟩ := hfailed
      exact .inl (step_error hf (fun _ h => by rw [h] at he; exact he) hstep)
    | inr hu =>
      refine (hm.step hu.1 hu.2 he hstep).imp_right fun hv => ⟨?_, hv⟩
      exact hkeeps.step (fun _ => hu.1) trivial hstep (hm.live v hv)
  cases hinv with
  | inl hfailed =>
    obtain ⟨e, he⟩ := hfailed
    simp [SSL.live, he] at ht
  | inr h => exact h.2

/-! ## what the session notes -/

/-- The result of the verification and the group of the key exchange. -/
def SSL.noted (s : SSL X509 Pkey) : Int × Nat := (s.session.verifyResult, s.session.kexGroup)

/-- What the key exchange rests on: its temporaries and the cipher. -/
def SSL.kexState (s : SSL X509 Pkey) : Kex Pkey × Option SslCipher :=
  (s.s3.tmp.kex, s.s3.tmp.newCipher)

section noted

variable {x : Int × Nat}

theorem ignoresTranscript_noted : IgnoresTranscript (fun s : SSL X509 Pkey => s.noted = x) :=
  fun _ _ _ h => h

theorem keeps_tlsConstructFinished :
    Keeps (fun s : SSL X509 Pkey => s.noted = x) (tlsConstructFinished lib) :=
  Keeps.bind keeps_get fun _ => Keeps.bind (keeps_modify fun _ h => h) fun _ =>
    Keeps.bind (keeps_finalFinishMac ignoresTranscript_noted) fun _ =>
      Keeps.bind (keeps_modify fun _ h => h) fun _ => keeps_pure

theorem keeps_sslGenerateMasterSecret {pms : Bytes} :
    Keeps (fun s : SSL X509 Pkey => s.noted = x) (sslGenerateMasterSecret lib pms) := by
  refine Keeps.bind (Keeps.bind keeps_get fun s => Keeps.bind keeps_orThrow fun c => ?_)
    fun _ => keeps_modify fun _ h => h
  refine Keeps.ite ?_ keeps_pure
  exact Keeps.bind (keeps_ssl3DigestCachedRecords ignoresTranscript_noted) fun _ =>
    Keeps.bind keeps_get fun _ => keeps_pure

end noted

/-! ## the client -/

section client

variable {ans : ClientAnswers X509 Pkey} {u : Unit}

/-- Of the client's messages only a ClientHello replaces the session. -/
theorem clientConstructMessage_noted {r : MsgType × Bytes}
    (hne : s.statem.handState ≠ .cwClntHello)
    (h : (clientConstructMessage lib ans).run s = .ok r t) : t.noted = s.noted := by
  rw [clientConstructMessage, run_get_bind_ok] at h
  refine Keeps.ok (P := fun s' => s'.noted = s.noted) ?_ rfl h
  split
  · exact keeps_pure
  · next hst => exact absurd hst hne
  · exact Keeps.bind keeps_lift fun _ => keeps_pure
  · refine Keeps.bind (Keeps.bind keeps_get fun _ => Keeps.bind keeps_lift fun _ => ?_)
      fun _ => keeps_pure
    exact Keeps.bind (keeps_modify fun _ h => h) fun _ => keeps_pure
  · simp only [tlsConstructCertVerify]
    repeat' first
      | with_reducible apply Keeps.bind
      | with_reducible exact keeps_pure
      | with_reducible exact keeps_get
      | with_reducible exact keeps_check
      | with_reducible exact keeps_orThrow
      | with_reducible exact keeps_ssl3DigestCachedRecords ignoresTranscript_noted
      | intro _
  · exact Keeps.bind keeps_lift fun _ => keeps_pure
  · exact Keeps.bind keeps_tlsConstructFinished fun _ => keeps_pure
  · exact keeps_throw

theorem clientPostWork_noted (h : (clientPostWork lib).run s = .ok u t) : t.noted = s.noted := by
  rw [clientPostWork, run_get_bind_ok] at h
  refine Keeps.ok (P := fun s' => s'.noted = s.noted) ?_ rfl h
  split
  · exact Keeps.bind keeps_get fun _ => Keeps.bind keeps_orThrow fun _ =>
      keeps_sslGenerateMasterSecret
  · exact keeps_modify fun _ h => h
  · exact keeps_pure

theorem client_sendMessage_noted (hne : s.statem.handState ≠ .cwClntHello)
    (h : (sendMessage (client lib) ans).run s = .ok u t) : t.noted = s.noted := by
  obtain ⟨mt, body, s₁, dg, bf, s₃, hcon, _, _, hpost, ht⟩ := sendMessage_ok h
  have h₁ : s₁.noted = s.noted := clientConstructMessage_noted hne hcon
  subst ht
  exact (clientPostWork_noted hpost).trans h₁

/-- A round of the write machine inside a handshake: the client's turn ends, the
handshake does, or a message is sent. -/
theorem client_writeRound_sends (hserver : s.server = false)
    (hwst : s.statem.writeState = .transition) (hreq : s.statem.handState ≠ .crHelloReq)
    (h : (writeRound (client lib) ans).run s = .ok u t) :
    (clientWriteNext s = .ok none ∧
        t = { s with statem.state := .reading, statem.readState := .header }) ∨
      (clientWriteNext s = .ok (some .ok) ∧ s.Done t) ∨
      ∃ hs, clientWriteNext s = .ok (some hs) ∧ hs ≠ .ok ∧
        (sendMessage (client lib) ans).run { s with statem.handState := hs } = .ok () t := by
  rcases client_writeRound_cases hserver hwst h with h | h | h | h
  · exact .inl h
  · exact .inr (.inl ⟨h.1.resolve_right hreq, h.2⟩)
  · exact .inr (.inr h)
  · exact absurd h.1 hreq

theorem client_sendCertificate_kexState (hst : s.statem.handState = .cwCert)
    (h : (sendMessage (client lib) ans).run s = .ok u t) : t.kexState = s.kexState := by
  obtain ⟨mt, body, s₁, dg, bf, s₃, hcon, _, _, hpost, ht⟩ := sendMessage_ok h
  have hcon' : (clientConstructMessage lib ans).run s = .ok (mt, body) s₁ := hcon
  rw [clientConstructMessage, run_get_bind_ok, hst] at hcon'
  dsimp only at hcon'
  rw [run_lift_bind_ok] at hcon'
  obtain ⟨body', _, hcon'⟩ := hcon'
  obtain ⟨_, _, hs₁⟩ := constructed_of_pure hcon'
  subst hs₁
  have hpost' : (clientPostWork lib).run { s₁ with
      s3.handshakeDgst := dg, s3.handshakeBuffer := bf,
      trace := s₁.trace ++ [.sent mt body] } = .ok () s₃ := hpost
  rw [clientPostWork, run_get_bind_ok] at hpost'
  simp only [hst] at hpost'
  rw [run_pure_ok] at hpost'
  rw [ht, ← hpost'.2]
  rfl

/-- The states of a client behind the check of the server's certificates. -/
def pastServerCerts : HandState → Bool
  | .crCert | .crCertStatus | .crKeyExch | .crCertReq | .crSrvrDone | .cwCert | .cwKeyExch
  | .cwCertVrfy | .cwChange | .cwNextProto | .cwFinished | .crSessionTicket | .crChange
  | .crFinished | .ok => true
  | _ => false

/-- The states of a client behind the ServerKeyExchange. -/
def pastServerKex : HandState → Bool
  | .crCert | .crCertStatus => false
  | h => pastServerCerts h

/-- The states of a client between the two messages. -/
def beforeCke : HandState → Bool
  | .crKeyExch | .crCertReq | .crSrvrDone | .cwCert => true
  | _ => false

/-- The client checked the certificates with the result `v`, and if `g` is
given, it read a ServerKeyExchange that left this group and this state. -/
structure ClientNotes (v : Int) (g : Option (Nat × Kex Pkey × Option SslCipher))
    (s : SSL X509 Pkey) : Prop where
  live : s.live
  past : pastServerCerts s.statem.handState = true
  checked : s.statem.handState = .crCert → s.statem.readState = .header
  ended : s.statem.handState = .ok → s.statem.state = .finished
  verifyResult : s.session.verifyResult = v
  kex : ∀ x, g = some x → pastServerKex s.statem.handState = true ∧ s.session.kexGroup = x.1 ∧
    (beforeCke s.statem.handState = true → s.kexState = x.2)

variable {v : Int} {g : Option (Nat × Kex Pkey × Option SslCipher)}

theorem ClientNotes.read {mt : MsgType} {body : Bytes} (hn : ClientNotes v g s)
    (hst : s.statem.state = .reading) (h : ClientRead lib s t mt body) : ClientNotes v g t := by
  have hpast := hn.past
  have hkex := hn.kex
  -- behind the ServerHelloDone the window is closed
  have hlater : ∀ x, g = some x → s.session.kexGroup = x.1 := fun x hx => (hkex x hx).2.1
  cases h with
  | hello _ _ _ _ _ hfrom => simp [hfrom, pastServerCerts] at hpast
  | certificate _ _ _ _ hfrom => simp [hfrom, pastServerCerts] at hpast
  | status _ _ _ hfrom _ ht =>
    subst ht
    refine ⟨.inl hst, rfl, by simp, by simp, hn.verifyResult, fun x hx => ?_⟩
    simpa [hfrom, pastServerKex] using (hkex x hx).1
  | keyExchange _ _ _ hfrom _ _ ht =>
    obtain ⟨kex, lu, group, ht⟩ := ht
    subst ht
    refine ⟨.inl hst, rfl, by simp, by simp, hn.verifyResult, fun x hx => ?_⟩
    have hlate := (hkex x hx).1
    rcases hfrom with hfrom | hfrom | hfrom
    · simp [hfrom.1, pastServerCerts] at hpast
    · simp [hfrom, pastServerKex] at hlate
    · simp [hfrom, pastServerKex] at hlate
  | request _ _ _ hfrom _ ht =>
    subst ht
    exact ⟨.inl hst, rfl, by simp, by simp, hn.verifyResult, fun x hx =>
      ⟨rfl, hlater x hx, fun _ => (hkex x hx).2.2 (by simp [hfrom, beforeCke])⟩⟩
  | done _ _ hfrom _ ht =>
    subst ht
    have hwin : beforeCke s.statem.handState = true := by
      cases hfrom with
      | inl hfrom => simp [hfrom, beforeCke]
      | inr hfrom => simp [hfrom, beforeCke]
    exact ⟨.inr (.inl rfl), rfl, by simp, by simp, hn.verifyResult,
      fun x hx => ⟨rfl, hlater x hx, fun _ => (hkex x hx).2.2 hwin⟩⟩
  | ticket _ _ _ _ _ ht =>
    obtain ⟨tick, sid, nr, ht⟩ := ht
    subst ht
    exact ⟨.inl hst, rfl, by simp, by simp, hn.verifyResult,
      fun x hx => ⟨rfl, hlater x hx, by simp [beforeCke]⟩⟩
  | change _ _ ht =>
    subst ht
    exact ⟨.inl hst, rfl, by simp, by simp, hn.verifyResult,
      fun x hx => ⟨rfl, hlater x hx, by simp [beforeCke]⟩⟩
  | finished _ _ _ _ _ ht =>
    obtain ⟨cl, ht⟩ := ht
    subst ht
    exact ⟨.inr (.inl rfl), rfl, by simp, by simp, hn.verifyResult,
      fun x hx => ⟨rfl, hlater x hx, by simp [beforeCke]⟩⟩
  | helloRequest _ _ _ hfrom => simp [hn.ended hfrom] at hst

theorem ClientNotes.posted (hn : ClientNotes v g s) {wst : Work}
    (hst : s.statem.state = .reading) (hrs : s.statem.readState = .postProcess wst)
    (h : ClientPosted lib ans s t) : ClientNotes v g t := by
  cases h with
  | certs r s₁ hfrom => simp [hn.checked hfrom] at hrs
  | request r s₁ hfrom hr hprep ht =>
    obtain ⟨sa, cert, req, dg, bf, _, _, hs₁⟩ := hprep
    subst hs₁ ht
    rcases hr with hr | hr | hr <;> subst hr <;>
      exact ⟨.inl hst, hn.past, by simp [SSL.afterWork, hfrom], by simp [SSL.afterWork, hfrom],
        hn.verifyResult, hn.kex⟩

theorem ClientNotes.wrote (hn : ClientNotes v g s) (hinv : ClientInv s)
    (hst : s.statem.state = .writing) (h : (writeRound (client lib) ans).run s = .ok u t) :
    ClientNotes v g t := by
  have hpast := hn.past
  have hne : s.statem.handState ≠ .ok := by
    intro hok
    simp [hn.ended hok] at hst
  have hreq : s.statem.handState ≠ .crHelloReq := by
    intro hreq
    simp [hreq, pastServerCerts] at hpast
  rcases client_writeRound_sends hinv.client hinv.writeState hreq h with ht | ht | hsent
  · obtain ⟨_, ht⟩ := ht
    subst ht
    exact ⟨.inl rfl, hpast, fun _ => rfl, fun hok => absurd hok hne, hn.verifyResult, hn.kex⟩
  · obtain ⟨_, ren, cl, te, ht⟩ := ht
    subst ht
    exact ⟨.inr (.inr rfl), rfl, by simp, fun _ => rfl, hn.verifyResult,
      fun x hx => ⟨rfl, (hn.kex x hx).2.1, by simp [beforeCke]⟩⟩
  · obtain ⟨hs, hnext, hok, hsend⟩ := hsent
    obtain ⟨cl, hstatem⟩ := (client_sendMessage_ok hsend).statem
    have hnext := clientWriteNext_some hnext
    have hlate : pastServerCerts hs = true ∧ pastServerKex hs = true ∧ hs ≠ .crCert ∧
        hs ≠ .cwClntHello := by
      grind [pastServerKex, pastServerCerts]
    have hwin : beforeCke hs = true → hs = .cwCert ∧ beforeCke s.statem.handState = true := by
      grind [beforeCke]
    have hnoted := client_sendMessage_noted (s := { s with statem.handState := hs }) hlate.2.2.2 hsend
    have hverify : t.session.verifyResult = v := (congrArg Prod.fst hnoted).trans hn.verifyResult
    have hgroup : ∀ x, g = some x → t.session.kexGroup = x.1 :=
      fun x hx => (congrArg Prod.snd hnoted).trans (hn.kex x hx).2.1
    refine ⟨.inr (.inl ?_), ?_, ?_, ?_, hverify, fun x hx => ⟨?_, hgroup x hx, ?_⟩⟩
    all_goals rw [hstatem]
    · exact hst
    · exact hlate.1
    · exact fun hcert => absurd hcert hlate.2.2.1
    · exact fun h => absurd h hok
    · exact hlate.2.1
    · intro hlater
      obtain ⟨hcert, hwin⟩ := hwin hlater
      exact (client_sendCertificate_kexState hcert hsend).trans ((hn.kex x hx).2.2 hwin)

/-- **The client** carries what it noted to the end of the handshake. -/
theorem client_carries (lib : Libcrypto X509 Pkey) :
    (client lib).Carries lib ClientInv (ClientNotes v g) where
  live _ hn := hn.live
  quiet _ _ _ _ _ hn := ⟨hn.live, hn.past, hn.checked, hn.ended, hn.verifyResult, hn.kex⟩
  recv _ _ _ _ _ _ hn hst _ h := hn.read hst (client_readMessage_ok h)
  post _ _ _ _ _ hn hst hrs h := hn.posted hst hrs (client_postProcessRound_ok h)
  write _ _ _ hinv hn hst h := hn.wrote hinv hst h

end client

/-! ## the server -/

section server

variable {ans : ServerAnswers X509} {u : Unit}

/-- Of the server's messages only a ServerKeyExchange notes something. -/
theorem serverConstructMessage_noted {r : MsgType × Bytes}
    (hne : s.statem.handState ≠ .swKeyExch)
    (h : (serverConstructMessage lib ans).run s = .ok r t) : t.noted = s.noted := by
  rw [serverConstructMessage, run_get_bind_ok] at h
  simp only [tlsConstructServerHello, tlsConstructCertificateRequest, tlsConstructServerDone,
    sslFatal] at h
  refine Keeps.ok (P := fun s' => s'.noted = s.noted) ?_ rfl h
  split
  case h_5 hst => exact absurd hst hne
  all_goals
    repeat' first
      | with_reducible apply Keeps.bind
      | with_reducible apply Keeps.onlyIf
      | with_reducible exact keeps_pure
      | with_reducible exact keeps_get
      | with_reducible exact keeps_throw
      | with_reducible exact keeps_check
      | with_reducible exact keeps_lift
      | with_reducible exact keeps_orThrow
      | with_reducible exact keeps_ssl3DigestCachedRecords ignoresTranscript_noted
      | with_reducible exact keeps_tlsConstructFinished
      | exact keeps_modify fun _ h => h
      | intro _

theorem server_sendMessage_noted (hne : s.statem.handState ≠ .swKeyExch)
    (h : (sendMessage (server lib) ans).run s = .ok u t) : t.noted = s.noted := by
  obtain ⟨mt, body, s₁, dg, bf, s₃, hcon, _, _, hpost, ht⟩ := sendMessage_ok h
  have h₁ : s₁.noted = s.noted := serverConstructMessage_noted hne hcon
  subst ht
  cases serverPostWork_ok hpost with
  | inl hreq =>
    obtain ⟨_, hs₃⟩ := hreq
    subst hs₃
    exact h₁
  | inr hother =>
    obtain ⟨_, hs₃⟩ := hother
    subst hs₃
    exact h₁

theorem server_sendRest_kexState
    (hst : s.statem.handState = .swCertReq ∨ s.statem.handState = .swSrvrDone)
    (h : (sendMessage (server lib) ans).run s = .ok u t) : t.kexState = s.kexState := by
  obtain ⟨mt, body, s₁, dg, bf, s₃, hcon, _, _, hpost, ht⟩ := sendMessage_ok h
  have hcon' : (serverConstructMessage lib ans).run s = .ok (mt, body) s₁ := hcon
  have h₁ : s₁.kexState = s.kexState := by
    rw [serverConstructMessage, run_get_bind_ok] at hcon'
    refine Keeps.ok (P := fun s' => s'.kexState = s.kexState) ?_ rfl hcon'
    cases hst with
    | inl hst =>
      simp only [hst, tlsConstructCertificateRequest]
      exact Keeps.bind (Keeps.bind keeps_orThrow fun _ => Keeps.bind keeps_orThrow fun _ =>
        Keeps.bind (keeps_modify fun _ h => h) fun _ => keeps_pure) fun _ => keeps_pure
    | inr hst =>
      simp only [hst, tlsConstructServerDone]
      exact Keeps.bind (Keeps.bind keeps_get fun _ =>
        Keeps.bind (Keeps.onlyIf (keeps_ssl3DigestCachedRecords fun _ _ _ h => h))
          fun _ => keeps_pure) fun _ => keeps_pure
  subst ht
  cases serverPostWork_ok hpost with
  | inl hreq =>
    obtain ⟨_, hs₃⟩ := hreq
    subst hs₃
    exact h₁
  | inr hother =>
    obtain ⟨_, hs₃⟩ := hother
    subst hs₃
    exact h₁

/-- The states of a server behind its ServerKeyExchange. -/
def pastOwnKex : HandState → Bool
  | .swKeyExch | .swCertReq | .swSrvrDone | .srCert | .srKeyExch | .srCertVrfy | .srChange
  | .srNextProto | .srFinished | .swSessionTicket | .swChange | .swFinished | .ok => true
  | _ => false

/-- The states of a server behind the client's Certificate. -/
def pastClientCerts : HandState → Bool
  | .swKeyExch | .swCertReq | .swSrvrDone => false
  | h => pastOwnKex h

/-- The states of a server between the two messages. -/
def awaitsCke : HandState → Bool
  | .swKeyExch | .swCertReq | .swSrvrDone | .srCert => true
  | _ => false

/-- The server sent a ServerKeyExchange that left the group `g` and the state
`x`, and if `v` is given, it checked the client's certificates with this result. -/
structure ServerNotes (v : Option Int) (g : Nat) (x : Kex Pkey × Option SslCipher)
    (s : SSL X509 Pkey) : Prop where
  live : s.live
  past : pastOwnKex s.statem.handState = true
  ended : s.statem.handState = .ok → s.statem.state = .finished
  kexGroup : s.session.kexGroup = g
  waits : awaitsCke s.statem.handState = true → s.kexState = x
  verifyResult : ∀ x, v = some x →
    pastClientCerts s.statem.handState = true ∧ s.session.verifyResult = x

variable {v : Option Int} {g : Nat} {x : Kex Pkey × Option SslCipher}

theorem ServerNotes.read {mt : MsgType} {body : Bytes} (hn : ServerNotes v g x s)
    (hst : s.statem.state = .reading) (h : ServerRead lib s t mt body) : ServerNotes v g x t := by
  have hpast := hn.past
  have hverify := hn.verifyResult
  cases h with
  | hello _ _ _ _ _ hfrom =>
    rcases hfrom with hfrom | hfrom
    · simp [hfrom, pastOwnKex] at hpast
    · simp [hn.ended hfrom] at hst
  | noCertificate _ _ _ hfrom _ _ _ _ ht | certificate _ _ _ _ _ _ hfrom _ _ _ _ _ ht =>
    obtain ⟨vr, ht⟩ := ht
    subst ht
    refine ⟨.inl hst, rfl, by simp, hn.kexGroup, fun _ => hn.waits (by simp [hfrom, awaitsCke]),
      fun x hx => ?_⟩
    simpa [hfrom, pastClientCerts] using (hverify x hx).1
  | keyExchange _ _ _ _ _ _ _ ht =>
    obtain ⟨kex, mk, ht⟩ := ht
    subst ht
    exact ⟨.inl hst, rfl, by simp, hn.kexGroup, by simp [awaitsCke],
      fun x hx => ⟨rfl, (hverify x hx).2⟩⟩
  | certVerify _ _ _ _ _ _ _ _ ht =>
    obtain ⟨lu, ht⟩ := ht
    subst ht
    exact ⟨.inl hst, rfl, by simp, hn.kexGroup, by simp [awaitsCke],
      fun x hx => ⟨rfl, (hverify x hx).2⟩⟩
  | change _ ht | nextProto _ _ _ _ _ ht =>
    subst ht
    exact ⟨.inl hst, rfl, by simp, hn.kexGroup, by simp [awaitsCke],
      fun x hx => ⟨rfl, (hverify x hx).2⟩⟩
  | finished _ _ _ _ _ ht =>
    obtain ⟨cl, ht⟩ := ht
    subst ht
    exact ⟨.inr (.inl rfl), rfl, by simp, hn.kexGroup, by simp [awaitsCke],
      fun x hx => ⟨rfl, (hverify x hx).2⟩⟩

theorem ServerNotes.posted (hn : ServerNotes v g x s) (hst : s.statem.state = .reading)
    (h : ServerPosted s t) : ServerNotes v g x t := by
  cases h with
  | hello r s₁ hfrom =>
    have hpast := hn.past
    simp [hfrom, pastOwnKex] at hpast
  | keyExchange hfrom ht =>
    subst ht
    exact ⟨.inl hst, hn.past, by simp [hfrom], hn.kexGroup, hn.waits, hn.verifyResult⟩

theorem ServerNotes.wrote (hn : ServerNotes v g x s) (hinv : ServerInv s)
    (hst : s.statem.state = .writing) (h : (writeRound (server lib) ans).run s = .ok u t) :
    ServerNotes v g x t := by
  have hpast := hn.past
  have hne : s.statem.handState ≠ .ok := by
    intro hok
    simp [hn.ended hok] at hst
  rcases server_writeRound_cases hinv.writeState hne h with ht | ht | hsent
  · obtain ⟨_, ht⟩ := ht
    subst ht
    exact ⟨.inl rfl, hpast, fun hok => absurd hok hne, hn.kexGroup, hn.waits, hn.verifyResult⟩
  · obtain ⟨_, ren, cl, te, ht⟩ := ht
    subst ht
    exact ⟨.inr (.inr rfl), rfl, fun _ => rfl, hn.kexGroup, by simp [awaitsCke],
      fun x hx => ⟨rfl, (hn.verifyResult x hx).2⟩⟩
  · obtain ⟨hs, c, hnext, hok, hsend⟩ := hsent
    have hnext := serverWriteNext_some hnext
    have hlate : pastOwnKex hs = true ∧ hs ≠ .swKeyExch ∧ hs ≠ .swHelloReq := by
      grind [pastOwnKex]
    have hlater : pastClientCerts s.statem.handState = true → pastClientCerts hs = true := by
      grind [pastOwnKex, pastClientCerts]
    have hwin : awaitsCke hs = true →
        (hs = .swCertReq ∨ hs = .swSrvrDone) ∧ awaitsCke s.statem.handState = true := by
      grind [awaitsCke, pastOwnKex]
    have hstatem := (server_sendMessage_ok
      (s := { s with statem.handState := hs, session.cipher := c }) hinv.server hlate.2.2 hsend).statem
    have hnoted := server_sendMessage_noted
      (s := { s with statem.handState := hs, session.cipher := c }) hlate.2.1 hsend
    refine ⟨.inr (.inl ?_), ?_, ?_, (congrArg Prod.snd hnoted).trans hn.kexGroup, ?_,
      fun x hx => ⟨?_, (congrArg Prod.fst hnoted).trans (hn.verifyResult x hx).2⟩⟩
    all_goals rw [hstatem]
    · exact hst
    · exact hlate.1
    · exact fun h => absurd h hok
    · intro hwaits
      obtain ⟨hrest, hwin⟩ := hwin hwaits
      exact (server_sendRest_kexState hrest hsend).trans (hn.waits hwin)
    · exact hlater (hn.verifyResult x hx).1

/-- **The server** carries what it noted to the end of the handshake. -/
theorem server_carries (lib : Libcrypto X509 Pkey) :
    (server lib).Carries lib ServerInv (ServerNotes v g x) where
  live _ hn := hn.live
  quiet _ _ _ _ _ hn := ⟨hn.live, hn.past, hn.ended, hn.kexGroup, hn.waits, hn.verifyResult⟩
  recv _ _ _ _ _ _ hn hst _ h := hn.read hst (server_readMessage_ok h)
  post _ wst _ _ hinv hn hst hrs h :=
    hn.posted hst (server_postProcessRound_ok (hinv.post hst wst hrs) h)
  write _ _ _ hinv hn hst h := hn.wrote hinv hst h

end server

end Tlcp
