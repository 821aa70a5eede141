import Tlcp.Tls13.Finished

/-!
# Tlcp.Tls13.Statem

The state machines of TLS 1.3 behind the server Finished: the client's last
flight, the server that reads it, and the post-handshake authentication that
comes back to the same functions.

```text
   client                                           server
                            <-                    Finished
   [EndOfEarlyData]         ->
   [Certificate]            ->
   [CertificateVerify]      ->
   Finished                 ->
   --------------------------------------------------------
                            <-        CertificateRequest
   Certificate              ->
   [CertificateVerify]      ->
   Finished                 ->
```

The certificates and signatures in these messages are bytes here; whether the
server accepts them comes with the step.
-/

namespace Tlcp.Tls13

open Octets Fallible

variable {X509 Pkey : Type} {suite : Suite} {lib : Libcrypto X509 Pkey}
  {s t : Conn X509 Pkey}

/-- A handshake message by its type and its body. -/
abbrev Msg := MsgType × Bytes

/-- `SSL3_MT_END_OF_EARLY_DATA` -/
def endOfEarlyData : MsgType := .other 5

/-- What a list of messages adds to the transcript. -/
def transcriptOf (ms : List Msg) : Bytes := ms.flatMap fun m => handshakeBytes m.1 m.2

theorem transcriptOf_append (ms ms' : List Msg) :
    transcriptOf (ms ++ ms') = transcriptOf ms ++ transcriptOf ms' := List.flatMap_append

theorem transcriptOf_singleton (m : Msg) : transcriptOf [m] = handshakeBytes m.1 m.2 := by
  simp [transcriptOf]

/-- A message is never silent in the transcript. -/
theorem transcriptOf_eq_nil {ms : List Msg} : transcriptOf ms = [] ↔ ms = [] := by
  cases ms with
  | nil => simp [transcriptOf]
  | cons m ms => simp [transcriptOf, handshakeBytes, putUint]

/-! ## the client -/

/-- `ossl_statem_client13_write_transition`; `none` is `WRITE_TRAN_FINISHED` -/
def client13WriteTransition (s : Conn X509 Pkey) : Except Fatal (Option HandState) :=
  let certOrFinished : HandState := if s.certReq ≠ 0 then .cwCert else .cwFinished
  match s.handState with
  | .crCertReq =>
    if s.postHandshakeAuth = .requested then .ok (some .cwCert)
    else if s.sentShutdown then .ok (some .ok)
    else .error ⟨.internalError, .internalError⟩
  | .crFinished =>
    if s.earlyDataWritten then .ok (some .pendingEarlyDataEnd)
    else if s.middleboxCompat then .ok (some .cwChange)
    else .ok (some certOrFinished)
  | .pendingEarlyDataEnd =>
    if s.earlyDataAccepted then .ok (some .cwEndOfEarlyData) else .ok (some certOrFinished)
  | .cwEndOfEarlyData | .cwChange => .ok (some certOrFinished)
  | .cwCert => .ok (some (if s.certReq = 1 then .cwCertVrfy else .cwFinished))
  | .cwCertVrfy => .ok (some .cwFinished)
  | .cwFinished => .ok (some .ok)
  | .ok => .ok none
  | _ => .error ⟨.internalError, .internalError⟩

/-- What the client is told in one round of writing. -/
structure ClientRound where
  /-- the bodies of its Certificate and CertificateVerify -/
  certificate : Bytes := []
  certVerify : Bytes := []
  finished : FinishedRandom
  /-- the records of the message behind its first -/
  records : Nat := 0

/-- `ossl_statem_client_construct_message` and the functions it names.  A
ChangeCipherSpec is no handshake message. -/
def clientConstructMessage (suite : Suite) (lib : Libcrypto X509 Pkey) (ans : ClientRound) :
    HandState → Step X509 Pkey (Option Msg)
  | .cwEndOfEarlyData => do
      let s ← get
      check (s.earlyDataWritten = true) ⟨.internalError, .internalError⟩
      pure (some (endOfEarlyData, []))
  | .cwCert => do
      let s ← get
      onlyIf (s.isFirstHandshake = true)
        (modify (tls13ChangeCipherState suite .handshake .clientWrite))
      pure (some (.certificate, ans.certificate))
  | .cwCertVrfy => pure (some (.certificateVerify, ans.certVerify))
  | .cwFinished => do
      let body ← tlsConstructFinished suite lib ans.finished
      pure (some (.finished, body))
  | _ => pure none

/-- The message goes out, and into the transcript. -/
def Conn.sent (m : Msg) (records : Nat) (s : Conn X509 Pkey) : Conn X509 Pkey := { s with
    transcript := s.transcript ++ handshakeBytes m.1 m.2
    write.seq := s.write.seq + records + 1 }

/-- `ossl_statem_client_post_work`, and `tls_finish_handshake` at the end -/
def clientPostWork (suite : Suite) (h : HandState) (s : Conn X509 Pkey) : Conn X509 Pkey :=
  match h with
  | .cwFinished =>
    let s₁ := tls13SaveHandshakeDigestForPha s
    if s.postHandshakeAuth ≠ .requested then
      tls13ChangeCipherState suite .application .clientWrite s₁
    else s₁
  | .ok =>
    { s with
      postHandshakeAuth := if s.postHandshakeAuth = .requested then .extSent
        else s.postHandshakeAuth
      ticketExpected := s.ticketExpected && !s.cleanuphand
      cleanuphand := false }
  | _ => s

/-- One round of the client's write machine, with the message it sends. -/
def clientWriteRound (suite : Suite) (lib : Libcrypto X509 Pkey) (ans : ClientRound) :
    Step X509 Pkey (List Msg) := do
  let s ← get
  let next ← lift (client13WriteTransition s)
  let h ← orThrow ⟨.internalError, .internalError⟩ next
  modify fun s => { s with handState := h }
  let msg ← clientConstructMessage suite lib ans h
  modify fun s => msg.elim s fun m => s.sent m ans.records
  modify (clientPostWork suite h)
  pure msg.toList

/-- `tls13_restore_handshake_digest_for_pha` and the CertificateRequest of a
post-handshake authentication: `ossl_statem_client13_read_transition` at
`TLS_ST_OK` and `tls_process_certificate_request`.  `prepared` is whether a
certificate was found, `tls_prepare_client_certificate`. -/
def clientReadCertRequest (body : Bytes) (records : Nat) (prepared : Bool) :
    Step X509 Pkey Unit := do
  let s ← get
  check (s.handState = .ok ∧ s.postHandshakeAuth = .extSent)
    ⟨.unexpectedMessage, .unexpectedMessage⟩
  let dgst ← orThrow ⟨.internalError, .internalError⟩ s.phaDgst
  modify fun s => { s with
    postHandshakeAuth := .requested
    handState := .crCertReq
    transcript := dgst ++ handshakeBytes .certificateRequest body
    read.seq := s.read.seq + records + 1
    certReq := if prepared then 1 else 2 }

/-! ## the server -/

/-- `ossl_statem_server13_read_transition`, without a HelloRetryRequest
pending -/
def server13ReadTransition (s : Conn X509 Pkey) (mt : MsgType) : Option HandState :=
  let certOrFinished : Option HandState :=
    if s.certRequest then if mt = .certificate then some .srCert else none
    else if mt = .finished then some .srFinished else none
  match s.handState with
  | .earlyData =>
    if s.earlyDataAccepted then
      if mt = endOfEarlyData then some .srEndOfEarlyData else none
    else certOrFinished
  | .srEndOfEarlyData | .swFinished => certOrFinished
  | .srCert =>
    if s.peer.isNone then if mt = .finished then some .srFinished else none
    else if mt = .certificateVerify then some .srCertVrfy else none
  | .srCertVrfy => if mt = .finished then some .srFinished else none
  | .ok =>
    if s.earlyDataReading then none
    else if mt = .certificate ∧ s.postHandshakeAuth = .requested then some .srCert
    else none
  | _ => none

/-- What the server is told while it reads one message. -/
structure ServerRound (X509 : Type) where
  /-- `tls_process_client_certificate` -/
  certificate : Except Fatal (Option X509) := .ok none
  /-- `tls_process_cert_verify` -/
  certVerify : Except Fatal Unit := .ok ()
  finished : FinishedAnswers := {}
  records : Nat := 0

/-- `ossl_statem_server_process_message` -/
def serverProcessMessage (suite : Suite) (lib : Libcrypto X509 Pkey) (ans : ServerRound X509)
    (body : Bytes) : HandState → Step X509 Pkey Unit
  | .srEndOfEarlyData => do
      let s ← get
      check (body = []) ⟨.decodeError, .lengthMismatch⟩
      check (s.earlyDataReading = true) ⟨.internalError, .internalError⟩
      check (ans.finished.pending = false) ⟨.unexpectedMessage, .notOnRecordBoundary⟩
      modify fun s => { s with earlyDataReading := false }
      modify (tls13ChangeCipherState suite .handshake .serverRead)
  | .srCert => do
      let peer ← lift ans.certificate
      modify fun s => { s with peer := peer }
  | .srCertVrfy => lift ans.certVerify
  | .srFinished => tlsProcessFinished suite lib ans.finished body
  | _ => throw ⟨.internalError, .internalError⟩

/-- `tls_get_message_body`: the MAC of a Finished is taken before the message
is fed to the transcript -/
def Conn.received (suite : Suite) (m : Msg) (records : Nat) (s : Conn X509 Pkey) : Conn X509 Pkey :=
  { s with
    peerFinishMd := if m.1 = .finished then tls13FinalFinishMac suite false s else s.peerFinishMd
    transcript := s.transcript ++ handshakeBytes m.1 m.2
    read.seq := s.read.seq + records + 1 }

/-- The server reads one message. -/
def serverReadMessage (suite : Suite) (lib : Libcrypto X509 Pkey) (ans : ServerRound X509)
    (m : Msg) : Step X509 Pkey Unit := do
  let s ← get
  let h ← orThrow ⟨.unexpectedMessage, .unexpectedMessage⟩ (server13ReadTransition s m.1)
  modify fun s => { s with handState := h }
  modify fun s => s.received suite m ans.records
  serverProcessMessage suite lib ans m.2 h

/-- `ossl_statem_server_post_work` behind the server Finished, and the
transition to `TLS_ST_EARLY_DATA` -/
def serverFinishedPostWork (suite : Suite) : Step X509 Pkey Unit := do
  let s ← get
  if s.dualCert = true then
    modify fun s => { s with
      serverFinishedHash := suite.hash s.transcript
      serverFinishedTranscript := s.transcript
      sfHashSaved := true
      handState := .earlyData }
  else do
    tls13GenerateMasterSecret suite
    modify (tls13ChangeCipherState suite .application .serverWrite)
    modify fun s => { s with handState := .earlyData }

/-- The CertificateRequest of a post-handshake authentication:
`tls_construct_certificate_request`, with the transitions around it -/
def serverWriteCertRequest (body : Bytes) (records : Nat) : Step X509 Pkey Unit := do
  let s ← get
  check (s.handState = .ok ∧ s.postHandshakeAuth = .requestPending)
    ⟨.internalError, .internalError⟩
  let dgst ← orThrow ⟨.internalError, .internalError⟩ s.phaDgst
  modify fun s => { s with
    postHandshakeAuth := .requested
    transcript := dgst ++ handshakeBytes .certificateRequest body
    write.seq := s.write.seq + records + 1
    certRequest := true }

/-! ## flights -/

/-- The client writes, one round after the other. -/
def clientFlight (suite : Suite) (lib : Libcrypto X509 Pkey) :
    Conn X509 Pkey → List ClientRound → Option (Conn X509 Pkey × List Msg)
  | c, [] => some (c, [])
  | c, r :: rs =>
    match (clientWriteRound suite lib r).run c with
    | .error _ _ => none
    | .ok ms c₁ => (clientFlight suite lib c₁ rs).map fun p => (p.1, ms ++ p.2)

/-- The server reads one message after the other. -/
def serverFlight (suite : Suite) (lib : Libcrypto X509 Pkey) :
    Conn X509 Pkey → List (Msg × ServerRound X509) → Option (Conn X509 Pkey)
  | s, [] => some s
  | s, m :: ms =>
    match (serverReadMessage suite lib m.2 m.1).run s with
    | .error _ _ => none
    | .ok _ s₁ => serverFlight suite lib s₁ ms

/-! ## what a round does -/

theorem clientWriteRound_ok {ans : ClientRound} {ms : List Msg}
    (h : (clientWriteRound suite lib ans).run s = .ok ms t) :
    ∃ next msg s₁, client13WriteTransition s = .ok (some next) ∧
      (clientConstructMessage suite lib ans next).run { s with handState := next } = .ok msg s₁ ∧
      t = clientPostWork suite next (msg.elim s₁ fun m => s₁.sent m ans.records) ∧
      ms = msg.toList := by
  rw [clientWriteRound, run_get_bind_ok, run_lift_bind_ok] at h
  obtain ⟨next, hnext, h⟩ := h
  rw [run_orThrow_bind_ok] at h
  obtain ⟨hs, hsome, h⟩ := h
  subst hsome
  rw [run_modify_bind_ok] at h
  obtain ⟨msg, s₁, hconstruct, h⟩ := run_bind_ok.mp h
  rw [run_modify_bind_ok, run_modify_bind_ok, run_pure_ok] at h
  obtain ⟨hms, ht⟩ := h
  exact ⟨hs, msg, s₁, hnext, hconstruct, ht.symm, hms.symm⟩

/-- A Finished is sent in `TLS_ST_CW_FINISHED`, and nothing else is. -/
theorem clientConstructMessage_finished {ans : ClientRound} {next : HandState} {m : Msg}
    (h : (clientConstructMessage suite lib ans next).run s = .ok (some m) t) :
    m.1 = .finished ↔ next = .cwFinished := by
  cases next with
  | cwEndOfEarlyData =>
    rw [clientConstructMessage, run_get_bind_ok, run_check_bind_ok, run_pure_ok] at h
    obtain ⟨_, hm, _⟩ := h
    injection hm with hm
    subst hm
    decide
  | cwCert =>
    rw [clientConstructMessage, run_get_bind_ok] at h
    obtain ⟨_, _, _, h⟩ := run_bind_ok.mp h
    obtain ⟨hm, _⟩ := run_pure_ok.mp h
    injection hm with hm
    subst hm
    simp
  | cwCertVrfy =>
    obtain ⟨hm, _⟩ := run_pure_ok.mp h
    injection hm with hm
    subst hm
    simp
  | cwFinished =>
    rw [clientConstructMessage] at h
    obtain ⟨_, _, _, h⟩ := run_bind_ok.mp h
    obtain ⟨hm, _⟩ := run_pure_ok.mp h
    injection hm with hm
    subst hm
    simp
  | _ =>
    obtain ⟨hm, _⟩ := run_pure_ok.mp h
    contradiction

theorem serverReadMessage_ok {ans : ServerRound X509} {m : Msg}
    (h : (serverReadMessage suite lib ans m).run s = .ok () t) :
    ∃ next, server13ReadTransition s m.1 = some next ∧
      (serverProcessMessage suite lib ans m.2 next).run
        (Conn.received suite m ans.records { s with handState := next }) = .ok () t := by
  rw [serverReadMessage, run_get_bind_ok, run_orThrow_bind_ok] at h
  obtain ⟨next, hnext, h⟩ := h
  rw [run_modify_bind_ok, run_modify_bind_ok] at h
  exact ⟨next, hnext, h⟩

/-- Only a Finished leads to `TLS_ST_SR_FINISHED`, and nothing else. -/
theorem server13ReadTransition_finished {mt : MsgType} {next : HandState}
    (h : server13ReadTransition s mt = some next) : next = .srFinished ↔ mt = .finished := by
  unfold server13ReadTransition at h
  dsimp only at h
  have hne : endOfEarlyData ≠ .finished := by decide
  split at h <;> grind

end Tlcp.Tls13
