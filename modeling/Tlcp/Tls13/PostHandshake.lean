import Tlcp.Tls13.Statem

/-!
# Tlcp.Tls13.PostHandshake

Post-handshake client authentication: the server asks for a certificate on an
established connection, and the client answers with Certificate, if it has one
CertificateVerify, and Finished.  The keys and the sequence numbers of the
record layer should stay as they are.

```text
   client                                     server
                      <-      CertificateRequest
   Certificate        ->
   [CertificateVerify]->
   Finished           ->
```

The server keeps them: it changes no key while `post_handshake_auth` is
`SSL_PHA_REQUESTED` (`Asked.finished`).  The client looks at that for its write
keys only.  In dual-certificate mode `tls_construct_finished` derives a new
master secret and installs new read keys with it, so a post-handshake
authentication keeps the keys exactly if the client is not in that mode
(`post_handshake_keeps_iff`).
-/

namespace Tlcp.Tls13

open Octets Fallible

variable {X509 Pkey : Type} {suite : Suite} {lib : Libcrypto X509 Pkey}
  {c₁ c c' s s' : Conn X509 Pkey}

/-- Keys and sequence numbers are those of before, but for the records that
were read and written. -/
structure Kept (reads writes : Nat) (s s' : Conn X509 Pkey) : Prop where
  read : s'.read = { s.read with seq := s.read.seq + reads }
  write : s'.write = { s.write with seq := s.write.seq + writes }

/-- The main handshake is over. -/
structure Established (s : Conn X509 Pkey) : Prop where
  state : s.handState = .ok
  finished : s.isFirstHandshake = false
  earlyData : s.earlyDataReading = false

/-! ## the client -/

/-- The client was asked, with its read channel as in `c₁`, and has not sent
its Finished. -/
structure Answering (c₁ c : Conn X509 Pkey) : Prop where
  client : c.server = false
  dual : c.dualCert = c₁.dualCert
  pha : c.postHandshakeAuth = .requested
  certReq : c.certReq ≠ 0
  later : c.isFirstHandshake = false
  read : c.read = c₁.read
  state : c.handState = .crCertReq ∨ c.handState = .cwCert ∨ c.handState = .cwCertVrfy

theorem Answering.start {body : Bytes} {records : Nat} {prepared : Bool} (hc : Established c)
    (hclient : c.server = false)
    (h : (clientReadCertRequest body records prepared).run c = .ok () c₁) :
    Answering c₁ c₁ ∧ 0 < c₁.read.seq ∧ c₁.dualCert = c.dualCert := by
  rw [clientReadCertRequest, run_get_bind_ok, run_check_bind_ok, run_orThrow_bind_ok] at h
  obtain ⟨_, dgst, _, h⟩ := h
  rw [run_modify_ok] at h
  subst h
  have hreq : (if prepared = true then 1 else 2) ≠ 0 := by
    split <;> decide
  exact ⟨⟨hclient, rfl, rfl, hreq, hc.finished, rfl, .inl rfl⟩, Nat.succ_pos _, rfl⟩

/-- What may come next: the Finished, or one of the messages before it. -/
theorem Answering.next {next : HandState} (h : Answering c₁ c)
    (hnext : client13WriteTransition c = .ok (some next)) :
    next = .cwFinished ∨ next = .cwCert ∨ next = .cwCertVrfy := by
  rcases h.state with hs | hs | hs
  · simp only [client13WriteTransition, hs, if_pos h.pha] at hnext
    injection hnext with hnext
    injection hnext with hnext
    exact .inr (.inl hnext.symm)
  · simp only [client13WriteTransition, hs] at hnext
    injection hnext with hnext
    injection hnext with hnext
    split at hnext
    · exact .inr (.inr hnext.symm)
    · exact .inl hnext.symm
  · simp only [client13WriteTransition, hs] at hnext
    injection hnext with hnext
    injection hnext with hnext
    exact .inl hnext.symm

/-- A message before the Finished. -/
theorem Answering.step {ans : ClientRound} {ms : List Msg} (h : Answering c₁ c)
    (hrun : (clientWriteRound suite lib ans).run c = .ok ms c')
    (hms : ∀ m ∈ ms, m.1 ≠ .finished) : Answering c₁ c' := by
  obtain ⟨next, msg, c₂, hnext, hconstruct, hc', hnew⟩ := clientWriteRound_ok hrun
  rcases h.next hnext with hn | hn | hn
  · subst hn
    rw [clientConstructMessage] at hconstruct
    obtain ⟨body, c₃, _, hpure⟩ := run_bind_ok.mp hconstruct
    obtain ⟨hmsg, _⟩ := run_pure_ok.mp hpure
    subst hmsg hnew
    exact absurd rfl (hms _ List.mem_cons_self)
  · subst hn
    rw [clientConstructMessage, run_get_bind_ok] at hconstruct
    obtain ⟨_, c₃, hkeys, hpure⟩ := run_bind_ok.mp hconstruct
    obtain ⟨hmsg, hc₂⟩ := run_pure_ok.mp hpure
    -- the handshake keys are for a first handshake
    have hc₃ : c₃ = { c with handState := .cwCert } := by
      rcases run_onlyIf_ok.mp hkeys with ⟨hfirst, _⟩ | ⟨_, hkept⟩
      · have hlater : ({ c with handState := .cwCert } : Conn X509 Pkey).isFirstHandshake =
            false := h.later
        rw [hlater] at hfirst
        contradiction
      · exact hkept.symm
    subst hmsg hc₂ hc₃ hc'
    exact ⟨h.client, h.dual, h.pha, h.certReq, h.later, h.read, .inr (.inl rfl)⟩
  · subst hn
    obtain ⟨hmsg, hc₂⟩ := run_pure_ok.mp hconstruct
    subst hmsg hc₂ hc'
    exact ⟨h.client, h.dual, h.pha, h.certReq, h.later, h.read, .inr (.inr rfl)⟩

theorem Answering.flight {rs : List ClientRound} {ms : List Msg} (h : Answering c₁ c)
    (hrun : clientFlight suite lib c rs = some (c', ms)) (hms : ∀ m ∈ ms, m.1 ≠ .finished) :
    Answering c₁ c' := by
  induction rs generalizing c ms with
  | nil =>
    injection hrun with hrun
    injection hrun with hc _
    subst hc
    exact h
  | cons r rs ih =>
    simp only [clientFlight] at hrun
    split at hrun
    · contradiction
    · next first c₂ hfirst =>
      obtain ⟨⟨c₃, rest⟩, hrest, hpair⟩ := Option.map_eq_some_iff.mp hrun
      injection hpair with hc hnew
      dsimp only at hc hnew
      subst hc hnew
      have hstep := h.step hfirst fun m hm => hms m (List.mem_append_left _ hm)
      exact ih hstep hrest fun m hm => hms m (List.mem_append_right _ hm)

/-- The Finished keeps the keys exactly if the client is not in
dual-certificate mode. -/
theorem Answering.finished {ans : ClientRound} {body : Bytes} (h : Answering c₁ c)
    (hseq : 0 < c₁.read.seq)
    (hrun : (clientWriteRound suite lib ans).run c = .ok [(.finished, body)] c') :
    Kept 0 (ans.records + 1) c c' ↔ c₁.dualCert = false := by
  obtain ⟨next, msg, c₂, hnext, hconstruct, hc', hnew⟩ := clientWriteRound_ok hrun
  have hmsg : msg = some (.finished, body) := by
    cases msg with
    | none => simp at hnew
    | some m =>
      simp only [Option.toList_some] at hnew
      injection hnew with hm
      rw [hm]
  subst hmsg
  have hn := (clientConstructMessage_finished hconstruct).mp rfl
  subst hn
  rw [clientConstructMessage] at hconstruct
  obtain ⟨body', c₃, hfinished, hpure⟩ := run_bind_ok.mp hconstruct
  obtain ⟨_, hc₂⟩ := run_pure_ok.mp hpure
  subst hc₂
  by_cases hdual : c.dualCert = true
  · obtain ⟨pub, md, ikm, ct, hb⟩ :=
      builtFinished (s := { c with handState := .cwFinished }) h.client hdual hfinished
    have hread : c'.read.seq = 0 := by
      have hpha : ¬ (c₃.sent (.finished, body) ans.records).postHandshakeAuth ≠ .requested := by
        change ¬ c₃.postHandshakeAuth ≠ .requested
        rw [hb.pha]
        exact not_not_intro h.pha
      rw [hc', Option.elim_some, clientPostWork, if_neg hpha]
      change c₃.read.seq = 0
      rw [hb.read]
    rw [← h.dual, hdual]
    constructor
    · intro hkept
      have hzero : c'.read.seq = c₁.read.seq := by rw [hkept.read, h.read]; rfl
      omega
    · intro hfalse
      contradiction
  · have hplain : c.dualCert = false := by simpa using hdual
    obtain ⟨_, hc₃⟩ := tlsConstructFinished_plain_ok (s := { c with handState := .cwFinished })
      (.inr hplain) hfinished
    have hnot : ¬ (c.server = false ∧ c.certReq = 0) := fun hc => h.certReq hc.2
    rw [Conn.beforeFinished, if_neg hnot] at hc₃
    subst hc₃
    rw [← h.dual, hplain, hc', Option.elim_some, clientPostWork]
    split
    · next hne => exact absurd h.pha hne
    · exact iff_of_true ⟨rfl, rfl⟩ rfl

/-! ## the server -/

/-- The server has asked, and waits for the Finished. -/
structure Asked (s : Conn X509 Pkey) : Prop where
  server : s.server = true
  pha : s.postHandshakeAuth = .requested
  earlyData : s.earlyDataReading = false
  state : s.handState = .ok ∨ s.handState = .srCert ∨ s.handState = .srCertVrfy

theorem Asked.start {body : Bytes} {records : Nat} (hs : Established s) (hserver : s.server = true)
    (h : (serverWriteCertRequest body records).run s = .ok () s') : Asked s' := by
  rw [serverWriteCertRequest, run_get_bind_ok, run_check_bind_ok, run_orThrow_bind_ok] at h
  obtain ⟨_, dgst, _, h⟩ := h
  rw [run_modify_ok] at h
  subst h
  exact ⟨hserver, rfl, hs.earlyData, .inl hs.state⟩

/-- A message before the Finished. -/
theorem Asked.step {ans : ServerRound X509} {m : Msg} (h : Asked s) (hm : m.1 ≠ .finished)
    (hrun : (serverReadMessage suite lib ans m).run s = .ok () s') : Asked s' := by
  obtain ⟨next, hnext, hprocess⟩ := serverReadMessage_ok hrun
  have hstate : next = .srCert ∨ next = .srCertVrfy := by
    rcases h.state with hs | hs | hs
    · simp only [server13ReadTransition, hs] at hnext
      split at hnext
      · contradiction
      · split at hnext
        · injection hnext with hnext
          exact .inl hnext.symm
        · contradiction
    · simp only [server13ReadTransition, hs, if_neg hm] at hnext
      split at hnext
      · contradiction
      · split at hnext
        · injection hnext with hnext
          exact .inr hnext.symm
        · contradiction
    · simp [server13ReadTransition, hs, if_neg hm] at hnext
  rcases hstate with hn | hn
  · subst hn
    rw [serverProcessMessage, run_lift_bind_ok] at hprocess
    obtain ⟨peer, _, hs'⟩ := hprocess
    rw [run_modify_ok] at hs'
    subst hs'
    exact ⟨h.server, h.pha, h.earlyData, .inr (.inl rfl)⟩
  · subst hn
    obtain ⟨_, hs'⟩ := run_lift_ok.mp hprocess
    subst hs'
    exact ⟨h.server, h.pha, h.earlyData, .inr (.inr rfl)⟩

theorem Asked.flight {msgs : List (Msg × ServerRound X509)} (h : Asked s)
    (hmsgs : ∀ m ∈ msgs, m.1.1 ≠ .finished) (hrun : serverFlight suite lib s msgs = some s') :
    Asked s' := by
  induction msgs generalizing s with
  | nil =>
    injection hrun with hs
    subst hs
    exact h
  | cons m msgs ih =>
    simp only [serverFlight] at hrun
    split at hrun
    · contradiction
    · next s₁ hmsg =>
      have hstep := h.step (hmsgs m List.mem_cons_self) hmsg
      exact ih hstep (fun m' hm' => hmsgs m' (List.mem_cons_of_mem m hm')) hrun

/-- The server changes no key for the Finished. -/
theorem Asked.finished {ans : ServerRound X509} {body : Bytes} (h : Asked s)
    (hrun : (serverReadMessage suite lib ans (.finished, body)).run s = .ok () s') :
    Kept (ans.records + 1) 0 s s' := by
  obtain ⟨next, hnext, hprocess⟩ := serverReadMessage_ok hrun
  have hn := (server13ReadTransition_finished hnext).mpr rfl
  subst hn
  have hpha : ¬ (Conn.received suite (.finished, body) ans.records
      { s with handState := .srFinished }).postHandshakeAuth ≠ .requested := not_not_intro h.pha
  by_cases hdual : s.dualCert = true
  · obtain ⟨priv, ct, ikm, spill, u, _, _, _, hgen, hs'⟩ :=
      tlsProcessFinished_dual_ok (s := Conn.received suite (.finished, body) ans.records
        { s with handState := .srFinished }) h.server hdual hprocess
    rw [if_neg hpha] at hs'
    obtain ⟨_, hu⟩ := tls13GenerateMasterSecret_of_ikm
      (s := { (Conn.received suite (.finished, body) ans.records
        { s with handState := .srFinished }).beforeProcess with overrun := spill }) hgen
    subst hs' hu
    exact ⟨rfl, rfl⟩
  · have hplain : s.dualCert = false := by simpa using hdual
    have hs' := tlsProcessFinished_plain_ok (s := Conn.received suite (.finished, body) ans.records
      { s with handState := .srFinished }) h.server hplain hprocess
    rw [if_neg hpha] at hs'
    subst hs'
    exact ⟨rfl, rfl⟩

/-! ## both ends -/

/-- A post-handshake authentication on an established connection.  The client
goes from `c` over `c₁`, where it has read the request, and `c₂` to `c'`, the
server from `s` over `s₁` and `s₂` to `s'`; the Finished is the last step of
each. -/
structure Authentication (suite : Suite) (lib : Libcrypto X509 Pkey)
    (c c₂ c' s s₂ s' : Conn X509 Pkey) (sent read : Nat) : Prop where
  client : c.server = false
  server : s.server = true
  clientEstablished : Established c
  serverEstablished : Established s
  run : ∃ (request : Bytes) (nc ns : Nat) (prepared : Bool) (c₁ s₁ : Conn X509 Pkey)
      (rs : List ClientRound) (msgs : List (Msg × ServerRound X509)) (r : ClientRound)
      (ans : ServerRound X509) (body : Bytes),
    (serverWriteCertRequest request ns).run s = .ok () s₁ ∧
    (clientReadCertRequest request nc prepared).run c = .ok () c₁ ∧
    clientFlight suite lib c₁ rs = some (c₂, msgs.map Prod.fst) ∧
    (∀ m ∈ msgs, m.1.1 ≠ .finished) ∧
    serverFlight suite lib s₁ msgs = some s₂ ∧
    (clientWriteRound suite lib r).run c₂ = .ok [(.finished, body)] c' ∧
    (serverReadMessage suite lib ans (.finished, body)).run s₂ = .ok () s' ∧
    sent = r.records + 1 ∧ read = ans.records + 1

/-- **Post-handshake authentication** keeps the keys and the sequence numbers
of both ends over its Finished exactly if the client is not in
dual-certificate mode. -/
theorem post_handshake_keeps_iff {c₂ s₂ : Conn X509 Pkey} {sent read : Nat}
    (h : Authentication suite lib c c₂ c' s s₂ s' sent read) :
    Kept 0 sent c₂ c' ∧ Kept read 0 s₂ s' ↔ c.dualCert = false := by
  obtain ⟨request, nc, ns, prepared, c₁, s₁, rs, msgs, r, ans, body, hwrite, hread, hclient,
    hbefore, hserver, hfinished, hprocess, hsent, hreads⟩ := h.run
  subst hsent hreads
  obtain ⟨hanswering, hseq, hdual⟩ := Answering.start h.clientEstablished h.client hread
  have hanswers : Answering c₁ c₂ := by
    refine hanswering.flight hclient fun m hm => ?_
    obtain ⟨m', hm', heq⟩ := List.mem_map.mp hm
    rw [← heq]
    exact hbefore m' hm'
  have hasked : Asked s₂ := (Asked.start h.serverEstablished h.server hwrite).flight hbefore hserver
  rw [← hdual, ← hanswers.finished hseq hfinished]
  exact and_iff_left (hasked.finished hprocess)

/-- An established connection, in dual-certificate mode or not. -/
def plainEstablished (server dual : Bool) : Conn Bytes (String × Bytes) where
  server := server
  handState := .ok
  dualCert := dual
  postHandshakeAuth := if server then .requestPending else .extSent
  phaDgst := some [4]
  peerGmEncPkey := some ("SM2", [2])
  gmEncCert := some ⟨some [0, 2], some ("SM2", [2])⟩
  finishMd := [7, 7]
  peerFinishMd := [7, 7]
  read := ⟨[1], [1], 5⟩
  write := ⟨[2], [2], 5⟩

theorem plainEstablished_established (server dual : Bool) :
    Established (plainEstablished server dual) :=
  ⟨rfl, rfl, rfl⟩

/-- A client without a certificate answers. -/
theorem plain_authentication (dual : Bool) :
    ∃ c₂ c' s₂ s', Authentication .plain Libcrypto.plain (plainEstablished false dual) c₂ c'
        (plainEstablished true dual) s₂ s' 1 1 ∧
      c₂.read.seq = 6 ∧ c'.read.seq = if dual then 0 else 6 := by
  cases dual with
  | false =>
    exact ⟨_, _, _, _, ⟨rfl, rfl, plainEstablished_established _ _,
      plainEstablished_established _ _, [], 0, 0, false, _, _, [⟨[], [], ⟨Buf.zero, []⟩, 0⟩],
      [((.certificate, []), {})], ⟨[], [], ⟨Buf.zero, []⟩, 0⟩, {}, [7, 7], rfl, rfl, rfl,
      by simp, rfl, rfl, rfl, rfl, rfl⟩, rfl, rfl⟩
  | true =>
    exact ⟨_, _, _, _, ⟨rfl, rfl, plainEstablished_established _ _,
      plainEstablished_established _ _, [], 0, 0, false, _, _, [⟨[], [], ⟨Buf.zero, []⟩, 0⟩],
      [((.certificate, []), {})], ⟨[], [], ⟨Buf.zero, []⟩, 0⟩, {}, [7, 7, 0, 2, 0, 0], rfl, rfl,
      rfl, by simp, rfl, rfl, rfl, rfl, rfl⟩, rfl, rfl⟩

theorem post_handshake_keeps_plain :
    ∃ c₂ c' s₂ s', Authentication .plain Libcrypto.plain (plainEstablished false false) c₂ c'
        (plainEstablished true false) s₂ s' 1 1 ∧ Kept 0 1 c₂ c' ∧ Kept 1 0 s₂ s' := by
  obtain ⟨c₂, c', s₂, s', h, _⟩ := plain_authentication false
  exact ⟨c₂, c', s₂, s', h, (post_handshake_keeps_iff h).mpr rfl⟩

/-- In dual-certificate mode the client starts over with its read sequence
number. -/
theorem post_handshake_rekeys :
    ∃ c₂ c' s₂ s', Authentication .plain Libcrypto.plain (plainEstablished false true) c₂ c'
        (plainEstablished true true) s₂ s' 1 1 ∧ c₂.read.seq = 6 ∧ c'.read.seq = 0 := by
  obtain ⟨c₂, c', s₂, s', h, hbefore, hafter⟩ := plain_authentication true
  exact ⟨c₂, c', s₂, s', h, hbefore, hafter⟩

end Tlcp.Tls13
