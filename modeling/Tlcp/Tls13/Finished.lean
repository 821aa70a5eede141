import Mathlib.Data.Option.Basic
import Tlcp.Ssl.KeyTypes
import Tlcp.Tls13.KeySchedule

/-!
# Tlcp.Tls13.Finished

The Finished messages of TLS 1.3, `tls_construct_finished` and
`tls_process_finished`, in and outside the GM dual-certificate mode.

```text
   Finished of the client, dual-certificate mode:
       verify_data || u16 length || ciphertext of the master-secret input
   any other Finished:
       verify_data
```

The main result is about the server's side.  With the SM2 decryption of the
library, a Finished that the server accepts in dual-certificate mode always
brings an input of the length of the hash.  But the plaintext is written to a
buffer of `evpMaxMdSize` bytes before anything looks at its length, so the
processor stays within its memory only if the ciphertext holds no longer
message (`dual_finished_input_length`).
-/

namespace Tlcp.Tls13

open Octets Fallible

variable {X509 Pkey : Type} {suite : Suite} {lib : Libcrypto X509 Pkey}
  {s t : Conn X509 Pkey}
variable {rnd : FinishedRandom} {ct pkt body : Bytes}

/-! ## constructing -/

/-- What the client draws for its Finished. -/
structure FinishedRandom where
  /-- `RAND_bytes_ex` -/
  bytes : (n : Nat) → Buf n
  /-- the randomness of the encryption or of the encapsulation -/
  pk : Bytes

/-- The master-secret input under the key of the encryption certificate: SM2
encrypts random bytes, every other key encapsulates. -/
def sealGmIkm (lib : Libcrypto X509 Pkey) (rnd : FinishedRandom) (hl : Nat) :
    Step X509 Pkey Bytes := do
  let s ← get
  let pub ← orThrow ⟨.internalError, .internalError⟩ s.peerGmEncPkey
  if lib.isA pub "SM2" then do
    let ct ← orThrow ⟨.internalError, .internalError⟩ (lib.encrypt pub rnd.pk (rnd.bytes hl).1)
    modify fun s => { s with gmIkm := (rnd.bytes hl).1 }
    pure ct
  else do
    let sealed ← orThrow ⟨.internalError, .internalError⟩ (lib.encapsulate pub rnd.pk)
    check (sealed.2.length ≤ evpMaxMdSize) ⟨.internalError, .internalError⟩
    modify fun s => { s with gmIkm := sealed.2 }
    pure sealed.1

/-- `tls_construct_finished` -/
def tlsConstructFinished (suite : Suite) (lib : Libcrypto X509 Pkey) (rnd : FinishedRandom) :
    Step X509 Pkey Bytes := do
  let s ← get
  modify fun s => { s with
    cleanuphand := s.cleanuphand || (!s.server && s.postHandshakeAuth != .requested) }
  -- with a client certificate the keys were changed for that
  onlyIf (s.server = false ∧ s.certReq = 0)
    (modify (tls13ChangeCipherState suite .handshake .clientWrite))
  let s ← get
  let md := tls13FinalFinishMac suite s.server s
  modify fun s => { s with finishMd := md }
  if s.server = false ∧ s.dualCert = true then do
    let ct ← sealGmIkm lib rnd md.length
    check (ct.length < 256 ^ 2) ⟨.internalError, .internalError⟩
    tls13GenerateMasterSecret suite
    modify (tls13ChangeCipherState suite .application .clientRead)
    pure (md ++ (putUint 2 ct.length ++ ct))
  else pure md

/-! ## processing -/

/-- What the server is told while it processes a Finished. -/
structure FinishedAnswers where
  /-- `RECORD_LAYER_processed_read_pending` -/
  pending : Bool := false
  /-- `tls_process_initial_server_flight`, at the client -/
  initialServerFlight : Except Fatal Unit := .ok ()

/-- `tls13_save_handshake_digest_for_pha` -/
def tls13SaveHandshakeDigestForPha (s : Conn X509 Pkey) : Conn X509 Pkey :=
  { s with phaDgst := s.phaDgst <|> some s.transcript }

variable (lib)

/-- What the private key makes of the ciphertext. -/
def openGmIkm (priv : Pkey) (ct : Bytes) : Option Bytes :=
  if lib.isA priv "SM2" then lib.decrypt priv ct
  else (lib.decapsulate priv ct).filter fun ss => ss.length ≤ evpMaxMdSize

/-- How many bytes of `tls13_gm_master_secret_ikm` are written for it.  A KEM is
given the size of the buffer.  SM2 is called a first time for the length, and
told that length as the room of the second call: `ossl_sm2_decrypt` starts by
filling all of it, whether the ciphertext is right or not. -/
def gmIkmWritten (priv : Pkey) (ct : Bytes) : Nat :=
  if lib.isA priv "SM2" then lib.decryptSize priv ct else evpMaxMdSize

/-- The part of the client Finished behind the verify data. -/
def processGmIkm (pkt : Bytes) : Step X509 Pkey Unit := do
  let s ← get
  let priv ← orThrow ⟨.internalError, .internalError⟩ (s.gmEncCert.bind CertPkey.privatekey)
  let enc ← orThrow ⟨.decodeError, .badDigestLength⟩ (getUint 2 pkt)
  check (enc.1 ≠ 0 ∧ enc.2.length = enc.1) ⟨.decodeError, .badDigestLength⟩
  modify fun s => { s with
    overrun := s.overrun || decide (evpMaxMdSize < gmIkmWritten lib priv enc.2) }
  let ikm ← orThrow ⟨.decryptError, .sslv3AlertBadRecordMac⟩ (openGmIkm lib priv enc.2)
  modify fun s => { s with gmIkm := ikm }

variable {lib}

/-- A failure leaves no master-secret input behind. -/
def orCleanse (x : Step X509 Pkey Unit) : Step X509 Pkey Unit := tryCatch x fun e => do
    modify fun s => { s with gmIkm := [] }
    throw e

theorem orCleanse_ok {x : Step X509 Pkey Unit} :
    (orCleanse x).run s = .ok () t ↔ x.run s = .ok () t := by
  unfold orCleanse
  simp only [tryCatch, tryCatchThe, MonadExceptOf.tryCatch, EStateM.tryCatch, EStateM.run]
  cases x s with
  | ok a u => rfl
  | error e u =>
    constructor
    · intro h
      cases h
    · intro h
      cases h

/-- `tls_process_finished` -/
def tlsProcessFinished (suite : Suite) (lib : Libcrypto X509 Pkey) (ans : FinishedAnswers)
    (pkt : Bytes) : Step X509 Pkey Unit := do
  let s ← get
  let dual := s.server = true ∧ s.dualCert = true
  onlyIf (s.server = true) do
    modify fun s => { s with
      cleanuphand := s.cleanuphand || s.postHandshakeAuth != .requested }
    modify tls13SaveHandshakeDigestForPha
  check (ans.pending = false) ⟨.unexpectedMessage, .notOnRecordBoundary⟩
  let md := s.peerFinishMd
  check (if dual then md.length < pkt.length else md.length = pkt.length)
    ⟨.decodeError, .badDigestLength⟩
  check (pkt.take md.length = md) ⟨.decryptError, .digestCheckFailed⟩
  onlyIf dual do
    processGmIkm lib (pkt.drop md.length)
    orCleanse (tls13GenerateMasterSecret suite)
  if s.server = true then
    onlyIf (s.postHandshakeAuth ≠ .requested) do
      modify (tls13ChangeCipherState suite .application .serverRead)
      onlyIf (s.dualCert = true) (modify (tls13ChangeCipherState suite .application .serverWrite))
  else do
    onlyIf (s.dualCert = false) do
      tls13GenerateMasterSecret suite
      modify (tls13ChangeCipherState suite .application .clientRead)
    lift ans.initialServerFlight

/-! ## what a run does -/

theorem sealGmIkm_ok {hl : Nat}
    (h : (sealGmIkm lib rnd hl).run s = .ok ct t) :
    ∃ pub ikm, s.peerGmEncPkey = some pub ∧ t = { s with gmIkm := ikm } ∧
      ((lib.isA pub "SM2" = true ∧ ikm.length = hl ∧ lib.encrypt pub rnd.pk ikm = some ct) ∨
        (lib.isA pub "SM2" = false ∧ lib.encapsulate pub rnd.pk = some (ct, ikm) ∧
          ikm.length ≤ evpMaxMdSize)) := by
  rw [sealGmIkm, run_get_bind_ok, run_orThrow_bind_ok] at h
  obtain ⟨pub, hpub, h⟩ := h
  split at h
  · next hsm2 =>
    rw [run_orThrow_bind_ok] at h
    obtain ⟨c, hct, h⟩ := h
    rw [run_modify_bind_ok, run_pure_ok] at h
    obtain ⟨hc, ht⟩ := h
    subst hc
    exact ⟨pub, _, hpub, ht.symm, .inl ⟨hsm2, (rnd.bytes hl).2, hct⟩⟩
  · next hsm2 =>
    rw [run_orThrow_bind_ok] at h
    obtain ⟨⟨c, ss⟩, hct, h⟩ := h
    rw [run_check_bind_ok, run_modify_bind_ok, run_pure_ok] at h
    obtain ⟨hlen, hc, ht⟩ := h
    dsimp only at hlen hc ht
    subst hc
    exact ⟨pub, ss, hpub, ht.symm, .inr ⟨by simpa using hsm2, hct, hlen⟩⟩

theorem processGmIkm_ok (h : (processGmIkm lib pkt).run s = .ok () t) :
    ∃ priv ct ikm, s.gmEncCert.bind CertPkey.privatekey = some priv ∧
      pkt = putUint 2 ct.length ++ ct ∧ ct ≠ [] ∧ openGmIkm lib priv ct = some ikm ∧
      ∃ spill, t = { s with overrun := spill, gmIkm := ikm } := by
  rw [processGmIkm, run_get_bind_ok, run_orThrow_bind_ok] at h
  obtain ⟨priv, hpriv, h⟩ := h
  rw [run_orThrow_bind_ok] at h
  obtain ⟨⟨n, ct⟩, henc, h⟩ := h
  rw [run_check_bind_ok, run_modify_bind_ok, run_orThrow_bind_ok] at h
  obtain ⟨⟨hne, hlen⟩, ikm, hikm, h⟩ := h
  rw [run_modify_ok] at h
  dsimp only at hne hlen hikm
  obtain ⟨hpkt, _⟩ := getUint_eq_some_iff.mp henc
  refine ⟨priv, ct, ikm, hpriv, ?_, ?_, hikm, _, h.symm⟩
  · rw [hpkt, hlen]
  · intro hnil
    rw [hnil] at hlen
    exact hne hlen.symm

/-- The client before its verify data: in a handshake without a client
certificate the handshake keys are installed for its Finished. -/
def Conn.beforeFinished (suite : Suite) (s : Conn X509 Pkey) : Conn X509 Pkey :=
  let s₁ := { s with
    cleanuphand := s.cleanuphand || (!s.server && s.postHandshakeAuth != .requested) }
  if s.server = false ∧ s.certReq = 0 then tls13ChangeCipherState suite .handshake .clientWrite s₁
  else s₁

@[simp] theorem beforeFinished_server : (s.beforeFinished suite).server = s.server := by
  unfold Conn.beforeFinished
  split <;> rfl

@[simp] theorem beforeFinished_dualCert : (s.beforeFinished suite).dualCert = s.dualCert := by
  unfold Conn.beforeFinished
  split <;> rfl

theorem beforeFinished_eq
    (h : (onlyIf (s.server = false ∧ s.certReq = 0)
      (modify (tls13ChangeCipherState suite .handshake .clientWrite)) :
        Step X509 Pkey Unit).run { s with
        cleanuphand := s.cleanuphand || (!s.server && s.postHandshakeAuth != .requested) } =
      .ok () t) : t = s.beforeFinished suite := by
  unfold Conn.beforeFinished
  rcases run_onlyIf_ok.mp h with ⟨hc, hm⟩ | ⟨hc, hm⟩
  · rw [if_pos hc]
    exact (run_modify_ok.mp hm).symm
  · rw [if_neg hc]
    exact hm.symm

/-- The Finished of a client in dual-certificate mode. -/
theorem tlsConstructFinished_dual_ok
    (hs : s.server = false) (hd : s.dualCert = true)
    (h : (tlsConstructFinished suite lib rnd).run s = .ok body t) :
    ∃ ct ikm u, (sealGmIkm lib rnd (tls13FinalFinishMac suite false (s.beforeFinished suite)).length).run
        { s.beforeFinished suite with
          finishMd := tls13FinalFinishMac suite false (s.beforeFinished suite) } = .ok ct ikm ∧
      ct.length < 256 ^ 2 ∧ (tls13GenerateMasterSecret suite).run ikm = .ok () u ∧
      t = tls13ChangeCipherState suite .application .clientRead u ∧
      body = tls13FinalFinishMac suite false (s.beforeFinished suite) ++
        (putUint 2 ct.length ++ ct) := by
  rw [tlsConstructFinished, run_get_bind_ok, run_modify_bind_ok] at h
  obtain ⟨_, s₁, hfirst, h⟩ := run_bind_ok.mp h
  have hs₁ := beforeFinished_eq hfirst
  subst hs₁
  rw [run_get_bind_ok] at h
  dsimp only at h
  have hserver : (s.beforeFinished suite).server = false := beforeFinished_server.trans hs
  have hdual : (s.beforeFinished suite).dualCert = true := beforeFinished_dualCert.trans hd
  have hmd : tls13FinalFinishMac suite (s.beforeFinished suite).server (s.beforeFinished suite) =
      tls13FinalFinishMac suite false (s.beforeFinished suite) := by rw [hserver]
  rw [hmd, run_modify_bind_ok, if_pos ⟨hserver, hdual⟩] at h
  obtain ⟨ct, u, hseal, h⟩ := run_bind_ok.mp h
  rw [run_check_bind_ok] at h
  obtain ⟨hct, h⟩ := h
  obtain ⟨_, v, hgen, h⟩ := run_bind_ok.mp h
  rw [run_modify_bind_ok, run_pure_ok] at h
  obtain ⟨hbody, ht⟩ := h
  exact ⟨ct, u, v, hseal, hct, hgen, ht.symm, hbody.symm⟩

/-- What the client seals for the server. -/
def Sealed (lib : Libcrypto X509 Pkey) (hl : Nat) (pub : Pkey) (ikm ct : Bytes) : Prop :=
  ∃ rnd, (lib.isA pub "SM2" = true ∧ ikm.length = hl ∧ lib.encrypt pub rnd ikm = some ct) ∨
    (lib.isA pub "SM2" = false ∧ lib.encapsulate pub rnd = some (ct, ikm) ∧
      ikm.length ≤ evpMaxMdSize)

/-- What the Finished of a client in dual-certificate mode does: the
master-secret input `ikm` goes out as `ct`, and the server's application secret
is taken from the transcript as it is. -/
structure BuiltFinished (suite : Suite) (lib : Libcrypto X509 Pkey) (s t : Conn X509 Pkey)
    (body : Bytes) (pub : Pkey) (md ikm ct : Bytes) : Prop where
  pkey : s.peerGmEncPkey = some pub
  body : body = md ++ (putUint 2 ct.length ++ ct)
  mdLength : md.length = suite.mdSize
  sealed : Sealed lib suite.mdSize pub ikm ct
  small : ct.length < 256 ^ 2
  ikmLength : ikm = [] ∨ ikm.length = suite.mdSize
  master : t.masterSecret = suite.generateSecret s.handshakeSecret
    (if ikm = [] then none else some ikm)
  serverApp : t.serverAppTrafficSecret = suite.hkdfExpand t.masterSecret .serverApplicationTraffic
    (suite.hash s.transcript) suite.mdSize
  sfHash : t.serverFinishedHash = suite.hash s.transcript
  sfTranscript : t.serverFinishedTranscript = s.transcript
  taken : t.serverAppTranscript = s.transcript
  read : t.read =
    { key := suite.hkdfExpand t.serverAppTrafficSecret .key [] suite.keyLength
      iv := suite.hkdfExpand t.serverAppTrafficSecret .iv [] suite.ivLength
      seq := 0 }
  write : s.certReq ≠ 0 → t.write = s.write
  transcript : t.transcript = s.transcript
  handState : t.handState = s.handState
  pha : t.postHandshakeAuth = s.postHandshakeAuth
  client : t.server = false

theorem builtFinished (hs : s.server = false)
    (hd : s.dualCert = true) (h : (tlsConstructFinished suite lib rnd).run s = .ok body t) :
    ∃ pub md ikm ct, BuiltFinished suite lib s t body pub md ikm ct := by
  obtain ⟨ct, v, u, hseal, hct, hgen, ht, hbody⟩ := tlsConstructFinished_dual_ok hs hd h
  obtain ⟨pub, ikm, hpub, hv, hsealed⟩ := sealGmIkm_ok hseal
  have hkept : (s.beforeFinished suite).transcript = s.transcript ∧
      (s.beforeFinished suite).handshakeSecret = s.handshakeSecret ∧
      (s.beforeFinished suite).peerGmEncPkey = s.peerGmEncPkey ∧
      (s.beforeFinished suite).postHandshakeAuth = s.postHandshakeAuth ∧
      (s.beforeFinished suite).handState = s.handState := by
    unfold Conn.beforeFinished
    split
    · exact ⟨rfl, rfl, rfl, rfl, rfl⟩
    · exact ⟨rfl, rfl, rfl, rfl, rfl⟩
  obtain ⟨htr, hsec, hkey, hpha, hhand⟩ := hkept
  have hclient : (s.beforeFinished suite).server = false := beforeFinished_server.trans hs
  subst hv
  have hlen : (tls13FinalFinishMac suite false (s.beforeFinished suite)).length = suite.mdSize :=
    suite.length_hmac _ _
  obtain ⟨hikm, hu⟩ := tls13GenerateMasterSecret_of_ikm hgen
  rw [hlen] at hsealed
  refine ⟨pub, tls13FinalFinishMac suite false (s.beforeFinished suite), ikm, ct, ?_⟩
  subst ht hu
  exact {
    pkey := hkey.symm.trans hpub
    body := hbody
    mdLength := hlen
    sealed := ⟨_, hsealed⟩
    small := hct
    ikmLength := hikm
    master := by
      rw [← hsec]
      rfl
    serverApp := by
      rw [← htr]
      simp [tls13ChangeCipherState, Conn.install, Conn.sfHashFixup, Change.isRead, trafficLabel]
    sfHash := by
      rw [← htr]
      simp [tls13ChangeCipherState, Conn.install, Conn.sfHashFixup, Change.isRead]
    sfTranscript := by
      rw [← htr]
      simp [tls13ChangeCipherState, Conn.install, Conn.sfHashFixup, Change.isRead]
    taken := by
      rw [← htr]
      simp [tls13ChangeCipherState, Conn.install, Conn.sfHashFixup, Change.isRead]
    read := rfl
    write := by
      intro hreq
      change (s.beforeFinished suite).write = s.write
      rw [Conn.beforeFinished, if_neg fun h => hreq h.2]
    transcript := htr
    handState := hhand
    pha := hpha
    client := hclient }

/-- Any other Finished changes no key but those of the handshake. -/
theorem tlsConstructFinished_plain_ok
    (hd : s.server = true ∨ s.dualCert = false)
    (h : (tlsConstructFinished suite lib rnd).run s = .ok body t) :
    body = tls13FinalFinishMac suite s.server (s.beforeFinished suite) ∧
      t = { s.beforeFinished suite with finishMd := body } := by
  rw [tlsConstructFinished, run_get_bind_ok, run_modify_bind_ok] at h
  obtain ⟨_, s₁, hfirst, h⟩ := run_bind_ok.mp h
  have hs₁ := beforeFinished_eq hfirst
  subst hs₁
  rw [run_get_bind_ok] at h
  dsimp only at h
  have hnot : ¬ ((s.beforeFinished suite).server = false ∧
      (s.beforeFinished suite).dualCert = true) := by
    rw [beforeFinished_server, beforeFinished_dualCert]
    intro ⟨hc, hdual⟩
    simp [hc, hdual] at hd
  have hmd : tls13FinalFinishMac suite (s.beforeFinished suite).server (s.beforeFinished suite) =
      tls13FinalFinishMac suite s.server (s.beforeFinished suite) := by rw [beforeFinished_server]
  rw [hmd, run_modify_bind_ok, if_neg hnot, run_pure_ok] at h
  obtain ⟨hbody, ht⟩ := h
  subst hbody
  exact ⟨rfl, ht.symm⟩

/-- The server before it looks at a Finished. -/
def Conn.beforeProcess (s : Conn X509 Pkey) : Conn X509 Pkey :=
  tls13SaveHandshakeDigestForPha { s with
    cleanuphand := s.cleanuphand || s.postHandshakeAuth != .requested }

theorem beforeProcess_run (hs : s.server = true) :
    (onlyIf (s.server = true) (do
      modify fun s => { s with
        cleanuphand := s.cleanuphand || s.postHandshakeAuth != .requested }
      modify tls13SaveHandshakeDigestForPha) : Step X509 Pkey Unit).run s =
      .ok () s.beforeProcess :=
  run_onlyIf_ok.mpr (.inl ⟨hs, by rw [run_modify_bind_ok, run_modify_ok]; rfl⟩)

variable {ans : FinishedAnswers}

/-- A client Finished that the server accepts in dual-certificate mode. -/
theorem tlsProcessFinished_dual_ok (hs : s.server = true)
    (hd : s.dualCert = true) (h : (tlsProcessFinished suite lib ans pkt).run s = .ok () t) :
    ∃ priv ct ikm spill u, s.gmEncCert.bind CertPkey.privatekey = some priv ∧
      pkt = s.peerFinishMd ++ (putUint 2 ct.length ++ ct) ∧ openGmIkm lib priv ct = some ikm ∧
      (tls13GenerateMasterSecret suite).run
        { s.beforeProcess with overrun := spill, gmIkm := ikm } = .ok () u ∧
      t = if s.postHandshakeAuth ≠ .requested then
          tls13ChangeCipherState suite .application .serverWrite
            (tls13ChangeCipherState suite .application .serverRead u)
        else u := by
  have hdual : s.server = true ∧ s.dualCert = true := ⟨hs, hd⟩
  rw [tlsProcessFinished, run_get_bind_ok] at h
  dsimp only at h
  obtain ⟨_, s₁, hfirst, h⟩ := run_bind_ok.mp h
  rw [beforeProcess_run hs] at hfirst
  injection hfirst with _ hs₁
  subst hs₁
  rw [run_check_bind_ok, run_check_bind_ok, run_check_bind_ok] at h
  obtain ⟨_, _, htake, h⟩ := h
  obtain ⟨_, u, hgm, h⟩ := run_bind_ok.mp h
  rcases run_onlyIf_ok.mp hgm with ⟨_, hgm⟩ | ⟨hc, _⟩
  · obtain ⟨_, v, hprocess, hgen⟩ := run_bind_ok.mp hgm
    obtain ⟨priv, ct, ikm, hpriv, hpkt, _, hopen, spill, hv⟩ := processGmIkm_ok hprocess
    subst hv
    refine ⟨priv, ct, ikm, spill, u, hpriv, ?_, hopen, orCleanse_ok.mp hgen, ?_⟩
    · rw [← hpkt]
      conv_lhs => rw [← List.take_append_drop s.peerFinishMd.length pkt, htake]
    · rw [if_pos hs] at h
      rcases run_onlyIf_ok.mp h with ⟨hpha, h⟩ | ⟨hpha, h⟩
      · rw [run_modify_bind_ok] at h
        rw [if_pos hpha]
        rcases run_onlyIf_ok.mp h with ⟨_, h⟩ | ⟨hc, _⟩
        · exact (run_modify_ok.mp h).symm
        · exact absurd hd hc
      · rw [if_neg hpha]
        exact h.symm
  · exact absurd hdual hc

/-- A client Finished that the server accepts outside of it. -/
theorem tlsProcessFinished_plain_ok (hs : s.server = true)
    (hd : s.dualCert = false) (h : (tlsProcessFinished suite lib ans pkt).run s = .ok () t) :
    t = if s.postHandshakeAuth ≠ .requested then
        tls13ChangeCipherState suite .application .serverRead s.beforeProcess
      else s.beforeProcess := by
  have hdual : ¬ (s.server = true ∧ s.dualCert = true) := by simp [hd]
  rw [tlsProcessFinished, run_get_bind_ok] at h
  dsimp only at h
  obtain ⟨_, s₁, hfirst, h⟩ := run_bind_ok.mp h
  rw [beforeProcess_run hs] at hfirst
  injection hfirst with _ hs₁
  subst hs₁
  rw [run_check_bind_ok, run_check_bind_ok, run_check_bind_ok] at h
  obtain ⟨_, _, _, h⟩ := h
  obtain ⟨_, u, hgm, h⟩ := run_bind_ok.mp h
  rcases run_onlyIf_ok.mp hgm with ⟨hc, _⟩ | ⟨_, hu⟩
  · exact absurd hc hdual
  · subst hu
    rw [if_pos hs] at h
    rcases run_onlyIf_ok.mp h with ⟨hpha, h⟩ | ⟨hpha, h⟩
    · rw [run_modify_bind_ok] at h
      rw [if_pos hpha]
      rcases run_onlyIf_ok.mp h with ⟨hc, _⟩ | ⟨_, h⟩
      · simp [hd] at hc
      · exact h.symm
    · rw [if_neg hpha]
      exact h.symm

/-! ## SM2 decryption -/

/-- The fields of an SM2 ciphertext: the point, the masked message and the
hash. -/
structure Sm2Ciphertext where
  c1 : Bytes
  c2 : Bytes
  c3 : Bytes

/-- What `ossl_sm2_decrypt` is made from. -/
structure Sm2Primitives (Pkey : Type) where
  /-- `d2i_SM2_Ciphertext` -/
  d2i : Bytes → Option Sm2Ciphertext
  /-- the coordinates of the shared point -/
  sharedPoint : Pkey → Bytes → Option (Bytes × Bytes)
  /-- the bytes of the X9.63 KDF -/
  kdfBytes : (n : Nat) → Bytes → Buf n
  digest : Bytes → Bytes
  digestSize : Nat

variable {sm2 : Sm2Primitives Pkey}

/-- `ossl_ecdh_kdf_X9_63`, which refuses to derive nothing
(`SSKDF_hash_kdm`) -/
def Sm2Primitives.osslEcdhKdfX963 (sm2 : Sm2Primitives Pkey) (outlen : Nat) (z : Bytes) :
    Option (Buf outlen) :=
  if outlen = 0 then none else some (sm2.kdfBytes outlen z)

/-- `ossl_sm2_plaintext_size` -/
def Sm2Primitives.osslSm2PlaintextSize (sm2 : Sm2Primitives Pkey) (ct : Bytes) : Option Nat :=
  (sm2.d2i ct).map fun c => c.c2.length

/-- `ossl_sm2_decrypt` into a buffer of the given size -/
def Sm2Primitives.osslSm2Decrypt (sm2 : Sm2Primitives Pkey) (key : Pkey) (ct : Bytes)
    (size : Nat) : Option Bytes := do
  let c ← sm2.d2i ct
  guard (c.c3.length = sm2.digestSize)
  guard (c.c2.length ≤ size)
  let p ← sm2.sharedPoint key c.c1
  let mask ← sm2.osslEcdhKdfX963 c.c2.length (p.1 ++ p.2)
  let ptext := List.zipWith (· ^^^ ·) c.c2 mask.1
  guard (sm2.digest (p.1 ++ ptext ++ p.2) = c.c3)
  some ptext

/-- The two calls of `EVP_PKEY_decrypt`: the second is given as much room as
the first asked for. -/
def Sm2Primitives.evpPkeyDecrypt (sm2 : Sm2Primitives Pkey) (key : Pkey) (ct : Bytes) :
    Option Bytes := do
  let ptl ← sm2.osslSm2PlaintextSize ct
  sm2.osslSm2Decrypt key ct ptl

/-- SM2 decrypts to no empty message. -/
theorem Sm2Primitives.evpPkeyDecrypt_ne_nil {key : Pkey}
    {ptext : Bytes} (h : sm2.evpPkeyDecrypt key ct = some ptext) : ptext ≠ [] := by
  simp only [evpPkeyDecrypt, osslSm2Decrypt, Option.bind_eq_bind, Option.bind_eq_some_iff] at h
  obtain ⟨_, _, c, _, _, _, _, _, p, _, mask, hmask, _, _, hptext⟩ := h
  injection hptext with hptext
  have hne : c.c2.length ≠ 0 := by
    intro hzero
    rw [osslEcdhKdfX963, if_pos hzero] at hmask
    contradiction
  intro hnil
  have hlen : ptext.length = c.c2.length := by
    rw [← hptext, List.length_zipWith, mask.2, Nat.min_self]
  rw [hnil] at hlen
  exact hne hlen.symm

/-- What the results below take from libcrypto: an SM2 key decrypts as the
library does, and no key encapsulates an empty secret. -/
structure OpensInput (lib : Libcrypto X509 Pkey) (sm2 : Sm2Primitives Pkey) : Prop where
  decrypt : ∀ key ct, lib.isA key "SM2" = true → lib.decrypt key ct = sm2.evpPkeyDecrypt key ct
  size : ∀ key ct, lib.isA key "SM2" = true →
    lib.decryptSize key ct = (sm2.osslSm2PlaintextSize ct).getD 0
  decapsulate : ∀ key ct ss, lib.decapsulate key ct = some ss → ss ≠ []

theorem openGmIkm_ne_nil {priv : Pkey} {ikm : Bytes}
    (hlib : OpensInput lib sm2) (h : openGmIkm lib priv ct = some ikm) : ikm ≠ [] := by
  unfold openGmIkm at h
  split at h
  · next hsm2 =>
    rw [hlib.decrypt priv ct hsm2] at h
    exact Sm2Primitives.evpPkeyDecrypt_ne_nil h
  · exact hlib.decapsulate priv ct ikm (Option.filter_eq_some_iff.mp h).1

/-! ## the input of the master secret -/

theorem tls13ChangeCipherState_masterSecret (suite : Suite) (epoch : Epoch) (which : Change)
    (s : Conn X509 Pkey) :
    (tls13ChangeCipherState suite epoch which s).masterSecret = s.masterSecret ∧
      (tls13ChangeCipherState suite epoch which s).masterSecretInput = s.masterSecretInput := by
  cases epoch <;> cases which <;> exact ⟨rfl, rfl⟩

/-- A client Finished that the server accepts in dual-certificate mode brought a
ciphertext, and the master secret was derived with what it decrypts to, which is
as long as the hash. -/
def InputOfHashLength (suite : Suite) (lib : Libcrypto X509 Pkey) (s t : Conn X509 Pkey)
    (pkt : Bytes) : Prop :=
  ∃ priv ct ikm, s.gmEncCert.bind CertPkey.privatekey = some priv ∧
    pkt = s.peerFinishMd ++ (putUint 2 ct.length ++ ct) ∧ openGmIkm lib priv ct = some ikm ∧
    ikm.length = suite.mdSize ∧ t.masterSecretInput = some ikm ∧
    t.masterSecret = suite.generateSecret s.handshakeSecret (some ikm)

theorem accepted_inputOfHashLength
    (hlib : OpensInput lib sm2) (hs : s.server = true) (hd : s.dualCert = true)
    (h : (tlsProcessFinished suite lib ans pkt).run s = .ok () t) :
    InputOfHashLength suite lib s t pkt := by
  obtain ⟨priv, ct, ikm, spill, u, hpriv, hpkt, hopen, hgen, ht⟩ :=
    tlsProcessFinished_dual_ok hs hd h
  have hne := openGmIkm_ne_nil hlib hopen
  rcases tls13GenerateMasterSecret_ok.mp hgen with ⟨hnil, _⟩ | ⟨hlen, hu⟩
  · exact absurd hnil hne
  · have hmaster : t.masterSecret = u.masterSecret ∧ t.masterSecretInput = u.masterSecretInput := by
      rw [ht]
      split
      · obtain ⟨hm, hi⟩ := tls13ChangeCipherState_masterSecret suite .application .serverRead u
        exact ⟨(tls13ChangeCipherState_masterSecret _ _ _ _).1.trans hm,
          (tls13ChangeCipherState_masterSecret _ _ _ _).2.trans hi⟩
      · exact ⟨rfl, rfl⟩
    refine ⟨priv, ct, ikm, hpriv, hpkt, hopen, hlen, ?_, ?_⟩
    · rw [hmaster.2, hu]
    · rw [hmaster.1, hu]
      rfl

/-! ## the buffer of the input -/

/-- The server gets to decrypt `ct` with `priv`. -/
structure Opened (s : Conn X509 Pkey) (ans : FinishedAnswers) (pkt : Bytes) (priv : Pkey)
    (ct : Bytes) : Prop where
  boundary : ans.pending = false
  pkey : s.gmEncCert.bind CertPkey.privatekey = some priv
  body : pkt = s.peerFinishMd ++ (putUint 2 ct.length ++ ct)
  nonempty : ct ≠ []
  small : ct.length < 256 ^ 2

theorem tls13ChangeCipherState_overrun (suite : Suite) (epoch : Epoch) (which : Change)
    (s : Conn X509 Pkey) :
    (tls13ChangeCipherState suite epoch which s).overrun = s.overrun := by
  cases epoch <;> cases which <;> rfl

section overrun

variable {b : Bool}

theorem keeps_orCleanse {x : Step X509 Pkey Unit}
    (hx : Keeps (fun s : Conn X509 Pkey => s.overrun = b) x) :
    Keeps (fun s : Conn X509 Pkey => s.overrun = b) (orCleanse x) := by
  constructor
  intro s hs
  have h := hx.kept s hs
  unfold orCleanse
  simp only [tryCatch, tryCatchThe, MonadExceptOf.tryCatch, EStateM.tryCatch, EStateM.run] at h ⊢
  cases hr : x s with
  | ok a u =>
    rw [hr] at h
    exact h
  | error e u =>
    rw [hr] at h
    exact h

theorem keeps_generateMasterSecret (suite : Suite) :
    Keeps (fun s : Conn X509 Pkey => s.overrun = b) (tls13GenerateMasterSecret suite) :=
  keeps_get.bind fun _ => keeps_check.bind fun _ => keeps_modify fun _ h => h

theorem keeps_changeCipherState (suite : Suite) (which : Change) :
    Keeps (fun s : Conn X509 Pkey => s.overrun = b)
      (modify (tls13ChangeCipherState suite .application which) : Step X509 Pkey Unit) :=
  keeps_modify fun s h => (tls13ChangeCipherState_overrun suite .application which s).trans h

/-- Behind the input nothing is written to the buffer. -/
theorem keeps_afterInput (suite : Suite) (ans : FinishedAnswers) (s : Conn X509 Pkey) :
    Keeps (fun s : Conn X509 Pkey => s.overrun = b)
      (if s.server = true then
        onlyIf (s.postHandshakeAuth ≠ .requested) do
          modify (tls13ChangeCipherState suite .application .serverRead)
          onlyIf (s.dualCert = true)
            (modify (tls13ChangeCipherState suite .application .serverWrite))
      else do
        onlyIf (s.dualCert = false) do
          tls13GenerateMasterSecret suite
          modify (tls13ChangeCipherState suite .application .clientRead)
        lift ans.initialServerFlight : Step X509 Pkey Unit) := by
  refine Keeps.ite (Keeps.onlyIf ?_) ?_
  · exact (keeps_changeCipherState suite _).bind fun _ => (keeps_changeCipherState suite _).onlyIf
  · refine Keeps.bind (Keeps.onlyIf ?_) fun _ => keeps_lift
    exact (keeps_generateMasterSecret suite).bind fun _ => keeps_changeCipherState suite _

/-- Where the server gets to decrypt, the room of the second call decides. -/
theorem processGmIkm_overruns {priv : Pkey}
    (hpriv : s.gmEncCert.bind CertPkey.privatekey = some priv) (hne : ct ≠ [])
    (hsmall : ct.length < 256 ^ 2) (hover : evpMaxMdSize < gmIkmWritten lib priv ct) :
    Ends (fun t => t.overrun = true) (processGmIkm lib (putUint 2 ct.length ++ ct)) s := by
  unfold processGmIkm
  refine ends_get_bind (ends_orThrow_bind_some hpriv ?_)
  refine ends_orThrow_bind_some (getUint_append ct hsmall) (ends_check_bind_of ?_ ?_)
  · exact ⟨fun h => hne (List.length_eq_zero_iff.mp h), rfl⟩
  · refine ends_modify_bind (Keeps.ends ?_ (by simp [hover]))
    exact keeps_orThrow.bind fun _ => keeps_modify fun _ h => h

/-- Where no ciphertext asks for more room than there is, nothing else is
overwritten. -/
theorem processGmIkm_bounded (hroom : s.overrun = false)
    (h : ∀ priv ct, s.gmEncCert.bind CertPkey.privatekey = some priv →
      pkt = putUint 2 ct.length ++ ct → ct ≠ [] → ct.length < 256 ^ 2 →
      gmIkmWritten lib priv ct ≤ evpMaxMdSize) :
    Ends (fun t => t.overrun = false) (processGmIkm lib pkt) s := by
  unfold processGmIkm
  refine ends_get_bind (ends_orThrow_bind hroom fun priv hpriv => ?_)
  refine ends_orThrow_bind hroom fun enc henc => ends_check_bind hroom fun hlen => ?_
  obtain ⟨hpkt, hsmall⟩ := getUint_eq_some_iff.mp henc
  have hle := h priv enc.2 hpriv (by rw [hpkt, hlen.2])
    (fun hnil => hlen.1 (by rw [← hlen.2, hnil]; rfl)) (by rw [hlen.2]; exact hsmall)
  refine ends_modify_bind (Keeps.ends ?_ (by simp [hroom, hle]))
  exact keeps_orThrow.bind fun _ => keeps_modify fun _ h => h

end overrun

/-- **The processor stays in its buffer** exactly if no ciphertext that it gets to
decrypt asks for more room. -/
theorem tlsProcessFinished_overrun (hs : s.server = true)
    (hd : s.dualCert = true) (hroom : s.overrun = false) :
    (final ((tlsProcessFinished suite lib ans pkt).run s)).overrun = false ↔
      ∀ priv ct, Opened s ans pkt priv ct → gmIkmWritten lib priv ct ≤ evpMaxMdSize := by
  have hdual : s.server = true ∧ s.dualCert = true := ⟨hs, hd⟩
  constructor
  · intro hfalse priv ct hopened
    by_contra hover
    have htrue : Ends (fun t => t.overrun = true) (tlsProcessFinished suite lib ans pkt) s := by
      have hlt : s.peerFinishMd.length < pkt.length := by
        rw [hopened.body]
        simp only [List.length_append, length_putUint]
        omega
      have htake : pkt.take s.peerFinishMd.length = s.peerFinishMd := by
        rw [hopened.body, List.take_left]
      have hdrop : pkt.drop s.peerFinishMd.length = putUint 2 ct.length ++ ct := by
        rw [hopened.body, List.drop_left]
      unfold tlsProcessFinished
      refine ends_get_bind (ends_bind_of (beforeProcess_run hs) ?_)
      refine ends_check_bind_of hopened.boundary (ends_check_bind_of ?_ (ends_check_bind_of htake ?_))
      · rw [if_pos hdual]
        exact hlt
      · refine Ends.bind_keeps ?_ fun _ => keeps_afterInput suite ans s
        rw [onlyIf, if_pos hdual, hdrop]
        refine Ends.bind_keeps ?_ fun _ => keeps_orCleanse (keeps_generateMasterSecret suite)
        exact processGmIkm_overruns (s := s.beforeProcess) hopened.pkey hopened.nonempty
          hopened.small (Nat.lt_of_not_le hover)
    rw [Ends, hfalse] at htrue
    contradiction
  · intro hle
    change Ends (fun t => t.overrun = false) (tlsProcessFinished suite lib ans pkt) s
    unfold tlsProcessFinished
    refine ends_get_bind (ends_bind_of (beforeProcess_run hs) ?_)
    refine ends_check_bind hroom fun hpend => ends_check_bind hroom fun _ =>
      ends_check_bind hroom fun htake => ?_
    refine Ends.bind_keeps ?_ fun _ => keeps_afterInput suite ans s
    rw [onlyIf, if_pos hdual]
    refine Ends.bind_keeps (processGmIkm_bounded (s := s.beforeProcess) hroom ?_) fun _ =>
      keeps_orCleanse (keeps_generateMasterSecret suite)
    intro priv ct hpriv hrest hne hsmall
    refine hle priv ct ⟨hpend, hpriv, ?_, hne, hsmall⟩
    conv_lhs => rw [← List.take_append_drop s.peerFinishMd.length pkt, htake, hrest]

/-- **The dual-certificate secret is never skipped, and never overruns its
buffer, exactly if the SM2 ciphertext holds no message of more than
`evpMaxMdSize` bytes.** -/
theorem dual_finished_input_length
    {pkt : Bytes} (hlib : OpensInput lib sm2) (hs : s.server = true) (hd : s.dualCert = true)
    (hroom : s.overrun = false) :
    ((final ((tlsProcessFinished suite lib ans pkt).run s)).overrun = false ∧
        ∀ t, (tlsProcessFinished suite lib ans pkt).run s = .ok () t →
          InputOfHashLength suite lib s t pkt) ↔
      ∀ priv ct c, Opened s ans pkt priv ct → lib.isA priv "SM2" = true → sm2.d2i ct = some c →
        c.c2.length ≤ evpMaxMdSize := by
  have hsize : ∀ priv ct, gmIkmWritten lib priv ct ≤ evpMaxMdSize ↔
      ∀ c, lib.isA priv "SM2" = true → sm2.d2i ct = some c → c.c2.length ≤ evpMaxMdSize := by
    intro priv ct
    unfold gmIkmWritten
    split
    · next hsm2 =>
      rw [hlib.size priv ct hsm2, Sm2Primitives.osslSm2PlaintextSize]
      cases sm2.d2i ct with
      | none => simp
      | some c => simp [hsm2]
    · next hsm2 => simp [hsm2]
  rw [tlsProcessFinished_overrun hs hd hroom]
  constructor
  · intro hsafe priv ct c hopened hsm2 hc
    exact (hsize priv ct).mp (hsafe.1 priv ct hopened) c hsm2 hc
  · intro h
    refine ⟨fun priv ct hopened => (hsize priv ct).mpr fun c hsm2 hc => ?_, fun t ht => ?_⟩
    · exact h priv ct c hopened hsm2 hc
    · exact accepted_inputOfHashLength hlib hs hd ht

/-! ## a suite without cryptography -/

/-- A suite whose hash is two bytes long. -/
def Suite.plain : Suite where
  mdSize := 2
  keyLength := 1
  ivLength := 1
  hash data := data
  generateSecret prev ikm := prev ++ ikm.getD []
  hkdfExpand secret _ data _ := secret ++ data
  hmac _ _ := [7, 7]
  mdSize_pos := by decide
  mdSize_le := by decide
  length_hmac _ _ := rfl

/-- SM2 with an empty mask. -/
def plainSm2 : Sm2Primitives (String × Bytes) where
  d2i ct := some ⟨[], ct, []⟩
  sharedPoint _ _ := some ([], [])
  kdfBytes n _ := Buf.zero n
  digest _ := []
  digestSize := 0

/-- `Libcrypto.plain` with that decryption. -/
def plainDual : Libcrypto Bytes (String × Bytes) := { Libcrypto.plain with
    decrypt := plainSm2.evpPkeyDecrypt
    decryptSize := fun _ ct => (plainSm2.osslSm2PlaintextSize ct).getD 0
    decapsulate := fun _ ct => if ct = [] then none else some ct }

theorem plainDual_opensInput : OpensInput plainDual plainSm2 where
  decrypt _ _ _ := rfl
  size _ _ _ := rfl
  decapsulate key ct ss h := by
    change (if ct = [] then none else some ct) = some ss at h
    split at h
    · contradiction
    · next hne =>
      injection h with h
      rw [← h]
      exact hne

/-- A server that waits for the client Finished. -/
def plainDualServer : Conn Bytes (String × Bytes) where
  server := true
  handState := .srFinished
  dualCert := true
  handshakeSecret := [3]
  serverFinishedHash := [4]
  sfHashSaved := true
  gmEncCert := some ⟨some [0, 2], some ("SM2", [2])⟩
  finishMd := [7, 7]
  peerFinishMd := [7, 7]

theorem dual_finished_input_length_plain :
    ∃ t, (tlsProcessFinished .plain plainDual {} [7, 7, 0, 2, 5, 6]).run plainDualServer =
        .ok () t ∧ t.overrun = false ∧
      InputOfHashLength .plain plainDual plainDualServer t [7, 7, 0, 2, 5, 6] := by
  obtain ⟨t, hrun⟩ : ∃ t, (tlsProcessFinished .plain plainDual {} [7, 7, 0, 2, 5, 6]).run
      plainDualServer = .ok () t := ⟨_, rfl⟩
  have hshort : ∀ priv ct c, Opened plainDualServer {} [7, 7, 0, 2, 5, 6] priv ct →
      plainDual.isA priv "SM2" = true → plainSm2.d2i ct = some c → c.c2.length ≤ evpMaxMdSize := by
    intro priv ct c hopened _ hc
    have hlen := congrArg List.length hopened.body
    injection hc with hc
    subst hc
    simp [plainDualServer, length_putUint] at hlen
    change ct.length ≤ 64
    omega
  have hboth : (final ((tlsProcessFinished .plain plainDual {} [7, 7, 0, 2, 5, 6]).run
        plainDualServer)).overrun = false ∧ _ :=
    (dual_finished_input_length plainDual_opensInput rfl rfl rfl).mpr hshort
  rw [hrun] at hboth
  exact ⟨t, hrun, hboth.1, hboth.2 t rfl⟩

/-- A ciphertext with a message of 65 bytes: the server fails behind it, but has
written past the buffer. -/
theorem dual_finished_overruns :
    (plainDual.decrypt ("SM2", [2]) (List.replicate 65 5)).map List.length = some 65 ∧
      Opened plainDualServer {} ([7, 7, 0, 65] ++ List.replicate 65 5) ("SM2", [2])
        (List.replicate 65 5) ∧
      (final ((tlsProcessFinished .plain plainDual {} ([7, 7, 0, 65] ++ List.replicate 65 5)).run
        plainDualServer)).overrun = true := by
  refine ⟨by decide, ⟨rfl, rfl, by decide, by decide, by decide⟩, by decide +kernel⟩

end Tlcp.Tls13
