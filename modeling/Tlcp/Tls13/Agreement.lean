import Tlcp.Tls13.Statem

/-!
# Tlcp.Tls13.Agreement

Do the two ends of a TLS 1.3 handshake in GM dual-certificate mode end with the
same application secrets?

The server saves the hash through its Finished when it has sent that, and takes
both application secrets from the saved hash.  The client derives its read
secret while it builds its own Finished, from the hash at that point, and keeps
that hash for its write secret.  So the secrets of the client are taken from
the messages that it sent before its Finished, too: an EndOfEarlyData, a
Certificate, a CertificateVerify.  The two agree, and are taken from the
messages through the server Finished, exactly if there are none of these
(`dual_cert_agree_iff`).  The master secret is the same on both sides in any
case (`dual_cert_master_secret`).
-/

namespace Tlcp.Tls13

open Octets Fallible

variable {X509 Pkey : Type} {suite : Suite} {lib : Libcrypto X509 Pkey}
  {c₀ c c' s₀ s s' : Conn X509 Pkey} {ms : List Msg}

/-! ## the encryption key -/

/-- The private key opens what the public key seals. -/
structure EncPair (lib : Libcrypto X509 Pkey) (pub priv : Pkey) : Prop where
  kind : lib.isA priv "SM2" = lib.isA pub "SM2"
  decrypt : ∀ rnd pt ct, lib.encrypt pub rnd pt = some ct → lib.decrypt priv ct = some pt
  decapsulate : ∀ rnd ct ss, lib.encapsulate pub rnd = some (ct, ss) →
    lib.decapsulate priv ct = some ss

theorem Sealed.opens {hl : Nat} {pub priv : Pkey} {ikm ct : Bytes} (hp : EncPair lib pub priv)
    (h : Sealed lib hl pub ikm ct) : openGmIkm lib priv ct = some ikm := by
  obtain ⟨rnd, ⟨hsm2, _, henc⟩ | ⟨hsm2, henc, hlen⟩⟩ := h
  · rw [openGmIkm, if_pos (hp.kind.trans hsm2)]
    exact hp.decrypt rnd ikm ct henc
  · have hne : ¬ lib.isA priv "SM2" = true := by simp [hp.kind, hsm2]
    rw [openGmIkm, if_neg hne, hp.decapsulate rnd ct ikm henc]
    simp [Option.filter, hlen]

/-! ## the client -/

/-- The client sends nothing before its Finished. -/
def Quiet (c : Conn X509 Pkey) : Prop :=
  c.certReq = 0 ∧ ¬ (c.earlyDataWritten = true ∧ c.earlyDataAccepted = true)

instance (c : Conn X509 Pkey) : Decidable (Quiet c) := inferInstanceAs (Decidable (_ ∧ _))

/-- Where the client is in its last flight, with what it has sent by then. -/
inductive InFlight (c₀ : Conn X509 Pkey) : HandState → List Msg → Prop where
  | start : InFlight c₀ .crFinished []
  | pending (h : c₀.earlyDataWritten = true) : InFlight c₀ .pendingEarlyDataEnd []
  | change (h : c₀.earlyDataWritten = false) : InFlight c₀ .cwChange []
  | earlyEnd {ms : List Msg} (hne : ms ≠ []) (h : c₀.earlyDataWritten = true)
      (ha : c₀.earlyDataAccepted = true) : InFlight c₀ .cwEndOfEarlyData ms
  | cert {ms : List Msg} (hne : ms ≠ []) (h : c₀.certReq ≠ 0) : InFlight c₀ .cwCert ms
  | certVerify {ms : List Msg} (hne : ms ≠ []) (h : c₀.certReq ≠ 0) : InFlight c₀ .cwCertVrfy ms

/-- The client has sent `ms` since the server Finished, and not its own. -/
structure Sending (c₀ c : Conn X509 Pkey) (ms : List Msg) : Prop where
  client : c.server = false
  dual : c.dualCert = true
  pha : c.postHandshakeAuth ≠ .requested
  certReq : c.certReq = c₀.certReq
  written : c.earlyDataWritten = c₀.earlyDataWritten
  accepted : c.earlyDataAccepted = c₀.earlyDataAccepted
  secret : c.handshakeSecret = c₀.handshakeSecret
  pkey : c.peerGmEncPkey = c₀.peerGmEncPkey
  transcript : c.transcript = c₀.transcript ++ transcriptOf ms
  unfinished : ∀ m ∈ ms, m.1 ≠ .finished
  at_ : InFlight c₀ c.handState ms

/-- The client has sent `ms`, the last of it its Finished. -/
structure SentFinished (suite : Suite) (lib : Libcrypto X509 Pkey) (c₀ c : Conn X509 Pkey)
    (ms : List Msg) (before : List Msg) (pub : Pkey) (md ikm ct : Bytes) : Prop where
  state : c.handState = .cwFinished ∨ c.handState = .ok
  msgs : ms = before ++ [(.finished, md ++ (putUint 2 ct.length ++ ct))]
  unfinished : ∀ m ∈ before, m.1 ≠ .finished
  quiet : before = [] ↔ Quiet c₀
  pkey : c₀.peerGmEncPkey = some pub
  sealed : Sealed lib suite.mdSize pub ikm ct
  small : ct.length < 256 ^ 2
  mdLength : md.length = suite.mdSize
  master : c.masterSecret = suite.generateSecret c₀.handshakeSecret
    (if ikm = [] then none else some ikm)
  serverApp : c.serverAppTrafficSecret = suite.hkdfExpand c.masterSecret .serverApplicationTraffic
    (suite.hash (c₀.transcript ++ transcriptOf before)) suite.mdSize
  clientApp : c.clientAppTrafficSecret = suite.hkdfExpand c.masterSecret .clientApplicationTraffic
    (suite.hash (c₀.transcript ++ transcriptOf before)) suite.mdSize
  serverTaken : c.serverAppTranscript = c₀.transcript ++ transcriptOf before
  clientTaken : c.clientAppTranscript = c₀.transcript ++ transcriptOf before

/-- Which message may come next: the Finished, nothing, or one more of those
before it. -/
theorem Sending.next {next : HandState} (h : Sending c₀ c ms)
    (hnext : client13WriteTransition c = .ok (some next)) :
    (next = .cwFinished ∧ (ms = [] ↔ Quiet c₀)) ∨
      ((next = .pendingEarlyDataEnd ∨ next = .cwChange) ∧ InFlight c₀ next ms) ∨
      ((next = .cwEndOfEarlyData ∨ next = .cwCert ∨ next = .cwCertVrfy) ∧
        ∀ m, InFlight c₀ next (ms ++ [m])) := by
  have hat := h.at_
  have hcertReq := h.certReq
  have hwritten := h.written
  have haccepted := h.accepted
  -- behind the early data comes the Certificate, if one was asked for, or the Finished
  have hcertOrFinished : ∀ next, (if c.certReq ≠ 0 then HandState.cwCert else .cwFinished) = next →
      (c₀.certReq = 0 → (ms = [] ↔ Quiet c₀)) →
      (next = .cwFinished ∧ (ms = [] ↔ Quiet c₀)) ∨
        ((next = .pendingEarlyDataEnd ∨ next = .cwChange) ∧ InFlight c₀ next ms) ∨
        ((next = .cwEndOfEarlyData ∨ next = .cwCert ∨ next = .cwCertVrfy) ∧
          ∀ m, InFlight c₀ next (ms ++ [m])) := by
    intro next hn hquiet
    rw [hcertReq] at hn
    split at hn
    · next hreq =>
      subst hn
      exact .inr (.inr ⟨.inr (.inl rfl), fun m => .cert (by simp) hreq⟩)
    · next hreq =>
      subst hn
      exact .inl ⟨rfl, hquiet (Decidable.not_not.mp hreq)⟩
  generalize hhand : c.handState = hs at hat
  cases hat with
  | start =>
    simp only [client13WriteTransition, hhand, hwritten] at hnext
    split at hnext
    · next hw =>
      injection hnext with hnext
      injection hnext with hnext
      subst hnext
      exact .inr (.inl ⟨.inl rfl, .pending hw⟩)
    · next hw =>
      have hw' : c₀.earlyDataWritten = false := by simpa using hw
      split at hnext
      · injection hnext with hnext
        injection hnext with hnext
        subst hnext
        exact .inr (.inl ⟨.inr rfl, .change hw'⟩)
      · injection hnext with hnext
        injection hnext with hnext
        refine hcertOrFinished next hnext fun hreq => ?_
        simp [Quiet, hreq, hw']
  | pending hw =>
    simp only [client13WriteTransition, hhand, haccepted] at hnext
    split at hnext
    · next ha =>
      injection hnext with hnext
      injection hnext with hnext
      subst hnext
      exact .inr (.inr ⟨.inl rfl, fun m => .earlyEnd (by simp) hw ha⟩)
    · next ha =>
      injection hnext with hnext
      injection hnext with hnext
      refine hcertOrFinished next hnext fun hreq => ?_
      simp [Quiet, hreq, ha]
  | change hw =>
    simp only [client13WriteTransition, hhand] at hnext
    injection hnext with hnext
    injection hnext with hnext
    refine hcertOrFinished next hnext fun hreq => ?_
    simp [Quiet, hreq, hw]
  | earlyEnd hne hw ha =>
    simp only [client13WriteTransition, hhand] at hnext
    injection hnext with hnext
    injection hnext with hnext
    refine hcertOrFinished next hnext fun hreq => ?_
    simp [Quiet, hw, ha, hne]
  | cert hne hreq =>
    simp only [client13WriteTransition, hhand] at hnext
    injection hnext with hnext
    injection hnext with hnext
    split at hnext
    · subst hnext
      exact .inr (.inr ⟨.inr (.inr rfl), fun m => .certVerify (by simp) hreq⟩)
    · subst hnext
      exact .inl ⟨rfl, by simp [Quiet, hne, hreq]⟩
  | certVerify hne hreq =>
    simp only [client13WriteTransition, hhand] at hnext
    injection hnext with hnext
    injection hnext with hnext
    subst hnext
    exact .inl ⟨rfl, by simp [Quiet, hne, hreq]⟩

variable {ans : ClientRound} {new : List Msg}

/-- The messages before the Finished change no more than the handshake keys. -/
theorem clientConstructMessage_before {next : HandState} {msg : Option Msg}
    (hnext : next = .cwEndOfEarlyData ∨ next = .cwCert ∨ next = .cwCertVrfy)
    (h : (clientConstructMessage suite lib ans next).run c = .ok msg c') :
    ∃ m, msg = some m ∧ m.1 ≠ .finished ∧
      (c' = c ∨ c' = tls13ChangeCipherState suite .handshake .clientWrite c) := by
  rcases hnext with hn | hn | hn
  · subst hn
    rw [clientConstructMessage, run_get_bind_ok, run_check_bind_ok, run_pure_ok] at h
    obtain ⟨_, hm, hc⟩ := h
    exact ⟨_, hm.symm, by simp [endOfEarlyData], .inl hc.symm⟩
  · subst hn
    rw [clientConstructMessage, run_get_bind_ok] at h
    obtain ⟨_, c₁, hfirst, h⟩ := run_bind_ok.mp h
    obtain ⟨hm, hc⟩ := run_pure_ok.mp h
    subst hc
    refine ⟨_, hm.symm, by simp, ?_⟩
    rcases run_onlyIf_ok.mp hfirst with ⟨_, hm⟩ | ⟨_, hm⟩
    · exact .inr (run_modify_ok.mp hm).symm
    · exact .inl hm.symm
  · subst hn
    obtain ⟨hm, hc⟩ := run_pure_ok.mp h
    exact ⟨_, hm.symm, by simp, .inl hc.symm⟩

/-- A message before the Finished. -/
theorem Sending.sent {m : Msg} {records : Nat} {next : HandState} (h : Sending c₀ c ms)
    (hm : m.1 ≠ .finished) (hat : InFlight c₀ next (ms ++ [m]))
    (hc : c' = { c with handState := next } ∨
      c' = tls13ChangeCipherState suite .handshake .clientWrite { c with handState := next }) :
    Sending c₀ (c'.sent m records) (ms ++ [m]) := by
  have htranscript : c'.transcript = c.transcript := by
    rcases hc with hc | hc
    · rw [hc]
    · rw [hc]
      rfl
  have hunfinished : ∀ m' ∈ ms ++ [m], m'.1 ≠ .finished := by
    intro m' hm'
    rcases List.mem_append.mp hm' with hold | hnew
    · exact h.unfinished m' hold
    · rw [List.mem_singleton.mp hnew]
      exact hm
  have hsent : (c'.sent m records).transcript = c₀.transcript ++ transcriptOf (ms ++ [m]) := by
    change c'.transcript ++ handshakeBytes m.1 m.2 = _
    rw [htranscript, h.transcript, transcriptOf_append, transcriptOf_singleton, List.append_assoc]
  rcases hc with hc | hc
  · subst hc
    exact ⟨h.client, h.dual, h.pha, h.certReq, h.written, h.accepted, h.secret, h.pkey, hsent,
      hunfinished, hat⟩
  · subst hc
    exact ⟨h.client, h.dual, h.pha, h.certReq, h.written, h.accepted, h.secret, h.pkey, hsent,
      hunfinished, hat⟩

/-- The Finished: the client takes its secrets from all that it sent before. -/
theorem Sending.finished {msg : Option Msg} (h : Sending c₀ c ms)
    (hquiet : ms = [] ↔ Quiet c₀)
    (hrun : (clientConstructMessage suite lib ans .cwFinished).run
      { c with handState := .cwFinished } = .ok msg c') :
    ∃ m pub md ikm ct, msg = some m ∧ SentFinished suite lib c₀
        (clientPostWork suite .cwFinished (c'.sent m ans.records)) (ms ++ [m]) ms pub md ikm ct := by
  rw [clientConstructMessage] at hrun
  obtain ⟨body, c₁, hconstruct, hrun⟩ := run_bind_ok.mp hrun
  obtain ⟨hmsg, hc'⟩ := run_pure_ok.mp hrun
  subst hc'
  obtain ⟨pub, md, ikm, ct, hb⟩ :=
    builtFinished (s := { c with handState := .cwFinished }) h.client h.dual hconstruct
  have hpha : (c₁.sent (.finished, body) ans.records).postHandshakeAuth ≠ .requested := by
    change c₁.postHandshakeAuth ≠ .requested
    rw [hb.pha]
    exact h.pha
  have htranscript : c.transcript = c₀.transcript ++ transcriptOf ms := h.transcript
  refine ⟨(.finished, body), pub, md, ikm, ct, hmsg.symm, ?_⟩
  rw [clientPostWork, if_pos hpha]
  exact {
    state := .inl hb.handState
    msgs := by rw [hb.body]
    unfinished := h.unfinished
    quiet := hquiet
    pkey := h.pkey.symm.trans hb.pkey
    sealed := hb.sealed
    mdLength := hb.mdLength
    small := hb.small
    master := by
      rw [← h.secret]
      exact hb.master
    serverApp := by
      rw [← htranscript]
      exact hb.serverApp
    clientApp := by
      change suite.hkdfExpand c₁.masterSecret .clientApplicationTraffic c₁.serverFinishedHash _ = _
      rw [hb.sfHash, ← htranscript]
      rfl
    serverTaken := by
      rw [← htranscript]
      exact hb.taken
    clientTaken := by
      change c₁.serverFinishedTranscript = _
      rw [hb.sfTranscript, ← htranscript] }

/-- **One round** of the client's last flight. -/
theorem Sending.step (h : Sending c₀ c ms)
    (hrun : (clientWriteRound suite lib ans).run c = .ok new c') :
    Sending c₀ c' (ms ++ new) ∨
      ∃ before pub md ikm ct, SentFinished suite lib c₀ c' (ms ++ new) before pub md ikm ct := by
  obtain ⟨next, msg, c₁, hnext, hconstruct, hc', hnew⟩ := clientWriteRound_ok hrun
  rcases h.next hnext with ⟨hfin, hquiet⟩ | ⟨hsilent, hat⟩ | ⟨hmsg, hat⟩
  · subst hfin
    obtain ⟨m, pub, md, ikm, ct, hm, hsent⟩ := h.finished hquiet hconstruct
    subst hm hc' hnew
    exact .inr ⟨ms, pub, md, ikm, ct, hsent⟩
  · have hnone : msg = none ∧ c₁ = { c with handState := next } := by
      rcases hsilent with hn | hn
      · subst hn
        obtain ⟨hm, hc⟩ := run_pure_ok.mp hconstruct
        exact ⟨hm.symm, hc.symm⟩
      · subst hn
        obtain ⟨hm, hc⟩ := run_pure_ok.mp hconstruct
        exact ⟨hm.symm, hc.symm⟩
    obtain ⟨hm, hc₁⟩ := hnone
    have hpost : c' = { c with handState := next } := by
      rw [hc', hm, hc₁]
      rcases hsilent with hn | hn
      · subst hn
        rfl
      · subst hn
        rfl
    subst hpost hnew hm
    have hms : ms ++ Option.toList none = ms := List.append_nil ms
    rw [hms]
    exact .inl ⟨h.client, h.dual, h.pha, h.certReq, h.written, h.accepted, h.secret, h.pkey,
      h.transcript, h.unfinished, hat⟩
  · obtain ⟨m, hm, hne, hc₁⟩ := clientConstructMessage_before hmsg hconstruct
    subst hm hnew
    have hpost : c' = c₁.sent m ans.records := by
      rw [hc']
      rcases hmsg with hn | hn | hn
      · subst hn
        rfl
      · subst hn
        rfl
      · subst hn
        rfl
    rw [hpost]
    exact .inl (h.sent hne (hat m) hc₁)

/-- Behind its Finished the client sends nothing, and keeps its secrets. -/
theorem SentFinished.step {before : List Msg} {pub : Pkey}
    {md ikm ct : Bytes} (h : SentFinished suite lib c₀ c ms before pub md ikm ct)
    (hrun : (clientWriteRound suite lib ans).run c = .ok new c') :
    SentFinished suite lib c₀ c' (ms ++ new) before pub md ikm ct := by
  obtain ⟨next, msg, c₁, hnext, hconstruct, hc', hnew⟩ := clientWriteRound_ok hrun
  rcases h.state with hfin | hok
  · have hn : next = .ok := by
      simp only [client13WriteTransition, hfin] at hnext
      injection hnext with hnext
      injection hnext with hnext
      exact hnext.symm
    subst hn
    obtain ⟨hm, hc₁⟩ := run_pure_ok.mp hconstruct
    subst hm hc₁ hc' hnew
    have hms : ms ++ Option.toList none = ms := List.append_nil ms
    rw [hms]
    exact { h with state := .inr rfl }
  · simp [client13WriteTransition, hok] at hnext

/-- **A whole flight** of the client that ends the handshake. -/
theorem Sending.flight {rs : List ClientRound} (h : Sending c₀ c ms)
    (hrun : clientFlight suite lib c rs = some (c', new)) (hok : c'.handState = .ok) :
    ∃ before pub md ikm ct, SentFinished suite lib c₀ c' (ms ++ new) before pub md ikm ct := by
  -- the induction is over the rounds; the Finished is sent in one of them
  have hboth : ∀ (rs : List ClientRound) (c : Conn X509 Pkey) (ms new : List Msg),
      (Sending c₀ c ms ∨
        ∃ before pub md ikm ct, SentFinished suite lib c₀ c ms before pub md ikm ct) →
      clientFlight suite lib c rs = some (c', new) →
      Sending c₀ c' (ms ++ new) ∨
        ∃ before pub md ikm ct, SentFinished suite lib c₀ c' (ms ++ new) before pub md ikm ct := by
    intro rs
    induction rs with
    | nil =>
      intro c ms new hor hrun
      injection hrun with hrun
      injection hrun with hc hnew
      subst hc hnew
      rw [List.append_nil]
      exact hor
    | cons r rs ih =>
      intro c ms new hor hrun
      simp only [clientFlight] at hrun
      split at hrun
      · contradiction
      · next first c₁ hfirst =>
        obtain ⟨⟨c₂, rest⟩, hrest, hpair⟩ := Option.map_eq_some_iff.mp hrun
        injection hpair with hc hnew
        dsimp only at hc hnew
        subst hc hnew
        rw [← List.append_assoc]
        refine ih c₁ (ms ++ first) rest ?_ hrest
        rcases hor with hsending | ⟨before, pub, md, ikm, ct, hsent⟩
        · exact hsending.step hfirst
        · exact .inr ⟨before, pub, md, ikm, ct, hsent.step hfirst⟩
  rcases hboth rs c ms new (.inl h) hrun with hsending | hsent
  · have hat := hsending.at_
    rw [hok] at hat
    cases hat
  · exact hsent

/-! ## the server -/

/-- The server waits for the rest of the client's last flight. -/
structure Reading (suite : Suite) (s₀ s : Conn X509 Pkey) : Prop where
  server : s.server = true
  dual : s.dualCert = true
  pha : s.postHandshakeAuth ≠ .requested
  secret : s.handshakeSecret = s₀.handshakeSecret
  cert : s.gmEncCert = s₀.gmEncCert
  sfHash : s.serverFinishedHash = suite.hash s₀.transcript
  sfTranscript : s.serverFinishedTranscript = s₀.transcript
  saved : s.sfHashSaved = true

/-- A message before the Finished. -/
theorem Reading.step {ans : ServerRound X509} {m : Msg} (h : Reading suite s₀ s)
    (hm : m.1 ≠ .finished) (hrun : (serverReadMessage suite lib ans m).run s = .ok () s') :
    Reading suite s₀ s' := by
  obtain ⟨next, hnext, hprocess⟩ := serverReadMessage_ok hrun
  have hne : next ≠ .srFinished := fun hn =>
    hm ((server13ReadTransition_finished hnext).mp hn)
  cases next with
  | srEndOfEarlyData =>
    rw [serverProcessMessage, run_get_bind_ok, run_check_bind_ok, run_check_bind_ok,
      run_check_bind_ok, run_modify_bind_ok, run_modify_ok] at hprocess
    obtain ⟨_, _, _, hs'⟩ := hprocess
    subst hs'
    exact ⟨h.server, h.dual, h.pha, h.secret, h.cert, h.sfHash, h.sfTranscript, h.saved⟩
  | srCert =>
    rw [serverProcessMessage, run_lift_bind_ok] at hprocess
    obtain ⟨peer, _, hs'⟩ := hprocess
    rw [run_modify_ok] at hs'
    subst hs'
    exact ⟨h.server, h.dual, h.pha, h.secret, h.cert, h.sfHash, h.sfTranscript, h.saved⟩
  | srCertVrfy =>
    obtain ⟨_, hs'⟩ := run_lift_ok.mp hprocess
    subst hs'
    exact ⟨h.server, h.dual, h.pha, h.secret, h.cert, h.sfHash, h.sfTranscript, h.saved⟩
  | srFinished => exact absurd rfl hne
  | _ => exact (run_throw_ok.mp hprocess).elim

/-- The server has accepted a client Finished with the sealed input `ct`. -/
structure Accepted (suite : Suite) (lib : Libcrypto X509 Pkey) (s₀ s : Conn X509 Pkey)
    (body : Bytes) (priv : Pkey) (md ikm ct : Bytes) : Prop where
  key : s₀.gmEncCert.bind CertPkey.privatekey = some priv
  body : body = md ++ (putUint 2 ct.length ++ ct)
  mdLength : md.length = suite.mdSize
  opened : openGmIkm lib priv ct = some ikm
  master : s.masterSecret = suite.generateSecret s₀.handshakeSecret
    (if ikm = [] then none else some ikm)
  serverApp : s.serverAppTrafficSecret = suite.hkdfExpand s.masterSecret .serverApplicationTraffic
    (suite.hash s₀.transcript) suite.mdSize
  clientApp : s.clientAppTrafficSecret = suite.hkdfExpand s.masterSecret .clientApplicationTraffic
    (suite.hash s₀.transcript) suite.mdSize
  serverTaken : s.serverAppTranscript = s₀.transcript
  clientTaken : s.clientAppTranscript = s₀.transcript

/-- The server takes both secrets from the hash that it saved. -/
theorem Reading.process {ans : FinishedAnswers} {pkt : Bytes} (h : Reading suite s₀ s)
    (hmd : s.peerFinishMd.length = suite.mdSize)
    (hrun : (tlsProcessFinished suite lib ans pkt).run s = .ok () s') :
    ∃ priv ikm ct, Accepted suite lib s₀ s' pkt priv s.peerFinishMd ikm ct := by
  obtain ⟨priv, ct, ikm, spill, u, hpriv, hpkt, hopen, hgen, hs'⟩ :=
    tlsProcessFinished_dual_ok h.server h.dual hrun
  obtain ⟨_, hu⟩ :=
    tls13GenerateMasterSecret_of_ikm (s := { s.beforeProcess with overrun := spill }) hgen
  rw [if_pos h.pha] at hs'
  have hserver := h.server
  have hdual := h.dual
  have hsaved := h.saved
  subst hs' hu
  have hfixup : (tls13ChangeCipherState suite .application .serverRead
      { s.beforeProcess with
        overrun := spill
        masterSecret := suite.generateSecret s.beforeProcess.handshakeSecret
          (if ikm = [] then none else some ikm)
        masterSecretInput := if ikm = [] then none else some ikm
        gmIkm := [] }).sfHashFixup .serverWrite = true := by
    simp [tls13ChangeCipherState, Conn.install, Change.isRead, Conn.sfHashFixup,
      Conn.beforeProcess, tls13SaveHandshakeDigestForPha, hserver, hdual, hsaved]
  obtain ⟨hserverApp, hserverTaken⟩ := tls13ChangeCipherState_fixup hfixup
  exact ⟨priv, ikm, ct, {
    key := by
      rw [← h.cert]
      exact hpriv
    body := hpkt
    mdLength := hmd
    opened := hopen
    master := by
      rw [← h.secret]
      rfl
    serverApp := by
      rw [← h.sfHash]
      exact hserverApp
    clientApp := by
      rw [← h.sfHash]
      rfl
    serverTaken := by
      rw [← h.sfTranscript]
      exact hserverTaken
    clientTaken := by
      rw [← h.sfTranscript]
      rfl }⟩

theorem Reading.finished {ans : ServerRound X509} {body : Bytes} (h : Reading suite s₀ s)
    (hrun : (serverReadMessage suite lib ans (.finished, body)).run s = .ok () s') :
    ∃ priv md ikm ct, Accepted suite lib s₀ s' body priv md ikm ct := by
  obtain ⟨next, hnext, hprocess⟩ := serverReadMessage_ok hrun
  have hn := (server13ReadTransition_finished hnext).mpr rfl
  subst hn
  have hreceived : Reading suite s₀ (Conn.received suite (.finished, body) ans.records
      { s with handState := .srFinished }) :=
    ⟨h.server, h.dual, h.pha, h.secret, h.cert, h.sfHash, h.sfTranscript, h.saved⟩
  obtain ⟨priv, ikm, ct, haccepted⟩ := hreceived.process (suite.length_hmac _ _) hprocess
  exact ⟨priv, _, ikm, ct, haccepted⟩

/-- **A whole flight** as the server reads it. -/
theorem Reading.flight {before : List (Msg × ServerRound X509)} {ans : ServerRound X509}
    {body : Bytes} (h : Reading suite s₀ s) (hbefore : ∀ m ∈ before, m.1.1 ≠ .finished)
    (hrun : serverFlight suite lib s (before ++ [((.finished, body), ans)]) = some s') :
    ∃ priv md ikm ct, Accepted suite lib s₀ s' body priv md ikm ct := by
  induction before generalizing s with
  | nil =>
    simp only [List.nil_append, serverFlight] at hrun
    split at hrun
    · contradiction
    · next s₁ hmsg =>
      injection hrun with hs
      subst hs
      exact h.finished hmsg
  | cons m before ih =>
    simp only [List.cons_append, serverFlight] at hrun
    split at hrun
    · contradiction
    · next s₁ hmsg =>
      have hhead := hbefore m List.mem_cons_self
      have htail : ∀ m ∈ before, m.1.1 ≠ .finished := fun m' hm' =>
        hbefore m' (List.mem_cons_of_mem m hm')
      exact ih (h.step hhead hmsg) htail hrun

/-! ## the two ends -/

/-- The two ends behind the server Finished: the client has processed it, the
server has sent it. -/
structure Paired (lib : Libcrypto X509 Pkey) (c s : Conn X509 Pkey) : Prop where
  client : c.server = false
  server : s.server = true
  clientDual : c.dualCert = true
  serverDual : s.dualCert = true
  clientPha : c.postHandshakeAuth ≠ .requested
  serverPha : s.postHandshakeAuth ≠ .requested
  clientState : c.handState = .crFinished
  transcript : c.transcript = s.transcript
  secret : c.handshakeSecret = s.handshakeSecret
  keys : ∀ pub priv, c.peerGmEncPkey = some pub →
    s.gmEncCert.bind CertPkey.privatekey = some priv → EncPair lib pub priv

/-- The rest of a handshake that both ends complete: the server saves its hash,
the client writes its last flight and the server reads it. -/
structure Completed (suite : Suite) (lib : Libcrypto X509 Pkey)
    (c s c' s' : Conn X509 Pkey) : Prop where
  run : ∃ s₁ rs msgs, (serverFinishedPostWork suite).run s = .ok () s₁ ∧
    clientFlight suite lib c rs = some (c', msgs.map Prod.fst) ∧
    serverFlight suite lib s₁ msgs = some s'
  done : c'.handState = .ok

/-- What both ends hold at the end. -/
theorem Completed.ends (hp : Paired lib c s) (h : Completed suite lib c s c' s') :
    ∃ before pub priv md ikm ct ms body, SentFinished suite lib c c' ms before pub md ikm ct ∧
      Accepted suite lib s s' body priv md ikm ct := by
  obtain ⟨s₁, rs, msgs, hpost, hclient, hserver⟩ := h.run
  have hsending : Sending c c [] :=
    { client := hp.client, dual := hp.clientDual, pha := hp.clientPha, certReq := rfl,
      written := rfl, accepted := rfl, secret := rfl, pkey := rfl,
      transcript := by simp [transcriptOf], unfinished := by simp,
      at_ := by
        rw [hp.clientState]
        exact .start }
  obtain ⟨before, pub, md, ikm, ct, hsent⟩ := hsending.flight hclient h.done
  have hmsgs := hsent.msgs
  rw [List.nil_append] at hmsgs
  obtain ⟨xs, ys, hsplit, hxs, hys⟩ := List.map_eq_append_iff.mp hmsgs
  obtain ⟨⟨m, ans⟩, hys', hm⟩ := List.map_eq_singleton_iff.mp hys
  dsimp only at hm
  subst hm hys' hsplit
  have hreading : Reading suite s s₁ := by
    rw [serverFinishedPostWork, run_get_bind_ok, if_pos hp.serverDual, run_modify_ok] at hpost
    subst hpost
    exact ⟨hp.server, hp.serverDual, hp.serverPha, rfl, rfl, rfl, rfl, rfl⟩
  have hbefore : ∀ m ∈ xs, m.1.1 ≠ .finished := by
    intro m hm
    refine hsent.unfinished m.1 ?_
    rw [← hxs]
    exact List.mem_map_of_mem hm
  obtain ⟨priv, md', ikm', ct', hacc⟩ := hreading.flight hbefore hserver
  -- both MACs are as long as the hash, so the two ends cut the body at the same place
  obtain ⟨hmd, htail⟩ := List.append_inj hacc.body (hsent.mdLength.trans hacc.mdLength.symm)
  obtain ⟨_, hct⟩ := List.append_inj htail (by simp)
  subst hmd hct
  have hopens := hsent.sealed.opens (hp.keys pub priv hsent.pkey hacc.key)
  have hikm : ikm' = ikm := by
    rw [hacc.opened] at hopens
    injection hopens
  subst hikm
  exact ⟨before, pub, priv, _, _, _, _, _, hsent, hacc⟩

/-- The master secret is the same on both sides. -/
theorem dual_cert_master_secret (hp : Paired lib c s) (h : Completed suite lib c s c' s') :
    c'.masterSecret = s'.masterSecret := by
  obtain ⟨before, pub, priv, md, ikm, ct, ms, body, hsent, hacc⟩ := h.ends hp
  rw [hsent.master, hacc.master, hp.secret]

/-- The two ends hold the same secrets, and the application secrets are taken
from the messages through the server Finished, `transcript`. -/
structure Agree (transcript : Bytes) (c s : Conn X509 Pkey) : Prop where
  master : c.masterSecret = s.masterSecret
  clientApp : c.clientAppTrafficSecret = s.clientAppTrafficSecret
  serverApp : c.serverAppTrafficSecret = s.serverAppTrafficSecret
  taken : c.clientAppTranscript = transcript ∧ s.clientAppTranscript = transcript ∧
    c.serverAppTranscript = transcript ∧ s.serverAppTranscript = transcript

/-- **Agreement in dual-certificate mode**: the two ends of a completed
handshake hold the same secrets, taken from the messages through the server
Finished, exactly if the client sent nothing before its own Finished. -/
theorem dual_cert_agree_iff (hp : Paired lib c s) (h : Completed suite lib c s c' s') :
    Agree s.transcript c' s' ↔ Quiet c := by
  obtain ⟨before, pub, priv, md, ikm, ct, ms, body, hsent, hacc⟩ := h.ends hp
  have hmaster : c'.masterSecret = s'.masterSecret := dual_cert_master_secret hp h
  rw [← hsent.quiet]
  constructor
  · intro hagree
    have htaken := hagree.taken.1
    rw [hsent.clientTaken, hp.transcript] at htaken
    exact transcriptOf_eq_nil.mp (List.append_right_eq_self.mp htaken)
  · intro hbefore
    have htranscript : c.transcript ++ transcriptOf before = s.transcript := by
      rw [hbefore, hp.transcript]
      exact List.append_nil _
    exact {
      master := hmaster
      clientApp := by rw [hsent.clientApp, hacc.clientApp, htranscript, hmaster]
      serverApp := by rw [hsent.serverApp, hacc.serverApp, htranscript, hmaster]
      taken := ⟨hsent.clientTaken.trans htranscript, hacc.clientTaken,
        hsent.serverTaken.trans htranscript, hacc.serverTaken⟩ }

/-! ## two handshakes -/

/-- A client behind the server Finished. -/
def plainFinishing (certReq : Nat) : Conn Bytes (String × Bytes) where
  server := false
  handState := .crFinished
  dualCert := true
  certReq := certReq
  handshakeSecret := [3]
  transcript := [4]
  peerGmEncPkey := some ("SM2", [2])

/-- Its server. -/
def plainFinished (certRequest : Bool) : Conn Bytes (String × Bytes) where
  server := true
  handState := .swFinished
  dualCert := true
  certRequest := certRequest
  handshakeSecret := [3]
  transcript := [4]
  gmEncCert := some ⟨some [0, 2], some ("SM2", [2])⟩

/-- A round in which the client draws zeros. -/
def plainRound : ClientRound where
  finished := ⟨Buf.zero, []⟩

theorem plainFinishing_paired (certReq : Nat) (certRequest : Bool) :
    Paired Libcrypto.plain (plainFinishing certReq) (plainFinished certRequest) where
  client := rfl
  server := rfl
  clientDual := rfl
  serverDual := rfl
  clientPha := by simp [plainFinishing]
  serverPha := by simp [plainFinished]
  clientState := rfl
  transcript := rfl
  secret := rfl
  keys pub priv hpub hpriv := by
    injection hpub with hpub
    injection hpriv with hpriv
    subst hpub hpriv
    exact ⟨rfl, fun _ _ _ h => h.symm, fun _ _ _ h => by
      injection h with h
      injection h with hct hss
      rw [← hct, ← hss]
      rfl⟩

theorem dual_cert_agree_plain :
    ∃ c' s', Completed .plain Libcrypto.plain (plainFinishing 0) (plainFinished false) c' s' ∧
      Agree [4] c' s' := by
  obtain ⟨c', hclient, hok⟩ : ∃ c', clientFlight .plain Libcrypto.plain (plainFinishing 0)
      [plainRound, plainRound] = some (c', [(.finished, [7, 7, 0, 2, 0, 0])]) ∧
      c'.handState = .ok := ⟨_, rfl, rfl⟩
  obtain ⟨s₁, s', hpost, hserver⟩ : ∃ s₁ s',
      (serverFinishedPostWork .plain).run (plainFinished false) = .ok () s₁ ∧
      serverFlight .plain Libcrypto.plain s₁ [((.finished, [7, 7, 0, 2, 0, 0]), {})] = some s' :=
    ⟨_, _, rfl, rfl⟩
  have hcompleted : Completed .plain Libcrypto.plain (plainFinishing 0) (plainFinished false) c' s' :=
    ⟨⟨s₁, _, _, hpost, hclient, hserver⟩, hok⟩
  exact ⟨c', s', hcompleted,
    (dual_cert_agree_iff (plainFinishing_paired 0 false) hcompleted).mpr (by decide)⟩

/-- With a client certificate the two ends complete the handshake and hold
different application secrets. -/
theorem dual_cert_disagree : ∃ c s c' s' : Conn Bytes (String × Bytes), Paired Libcrypto.plain c s ∧
      Completed .plain Libcrypto.plain c s c' s' ∧
      c'.serverAppTrafficSecret ≠ s'.serverAppTrafficSecret ∧
      c'.clientAppTrafficSecret ≠ s'.clientAppTrafficSecret := by
  obtain ⟨c', ms, hclient, hms, hok, hsecrets⟩ : ∃ c' ms,
      clientFlight .plain Libcrypto.plain (plainFinishing 1)
        [plainRound, plainRound, plainRound, plainRound] = some (c', ms) ∧
      ms = [(.certificate, []), (.certificateVerify, []), (.finished, [7, 7, 0, 2, 0, 0])] ∧
      c'.handState = .ok ∧
      c'.serverAppTrafficSecret.length = 12 ∧ c'.clientAppTrafficSecret.length = 12 :=
    ⟨_, _, rfl, rfl, rfl, rfl, rfl⟩
  subst hms
  obtain ⟨s₁, s', hpost, hserver, hsecrets'⟩ : ∃ s₁ s',
      (serverFinishedPostWork .plain).run (plainFinished true) = .ok () s₁ ∧
      serverFlight .plain Libcrypto.plain s₁
        [((.certificate, []), { certificate := .ok (some [0, 9]) }), ((.certificateVerify, []), {}),
          ((.finished, [7, 7, 0, 2, 0, 0]), {})] = some s' ∧
      s'.serverAppTrafficSecret.length = 4 ∧ s'.clientAppTrafficSecret.length = 4 :=
    ⟨_, _, rfl, rfl, rfl, rfl⟩
  refine ⟨_, _, c', s', plainFinishing_paired 1 true,
    ⟨⟨s₁, _, _, hpost, hclient, hserver⟩, hok⟩, ?_, ?_⟩
  · intro heq
    rw [heq, hsecrets'.1] at hsecrets
    simp at hsecrets
  · intro heq
    rw [heq, hsecrets'.2] at hsecrets
    simp at hsecrets

end Tlcp.Tls13
