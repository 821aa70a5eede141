import Tlcp.Ssl.State

/-!
# Tlcp.Tls13.KeySchedule

The key schedule of TLS 1.3 behind the ServerHello, with the additions for the
GM dual-certificate mode (`tls13_gm_dual_cert`).

In that mode the server has a second certificate, for encryption.  The client
sends a secret under its key with its Finished, and the master secret takes
that secret in:

```text
   handshake_secret --+-- "c hs traffic", "s hs traffic"
                      |
   tls13_gm_master_secret_ikm (empty outside dual-certificate mode)
                      |
   master_secret -----+-- "c ap traffic"  hash through the server Finished
                      +-- "s ap traffic"  hash through the server Finished
                      +-- "exp master", "res master"
```

`Conn` has the fields of the source's `SSL` that this part reads or writes.
The hash of the suite with HKDF and HMAC over it is a parameter, `Suite`.
-/

namespace Tlcp.Tls13

open Octets Fallible

/-! ## the suite -/

/-- The labels of HKDF-Expand-Label. -/
inductive Label where
  | clientHandshakeTraffic
  | serverHandshakeTraffic
  | clientApplicationTraffic
  | serverApplicationTraffic
  | exporterMasterSecret
  | resumptionMasterSecret
  | finished
  | key
  | iv
  deriving DecidableEq, Repr

/-- `EVP_MAX_MD_SIZE`, the size of `tls13_gm_master_secret_ikm` -/
def evpMaxMdSize : Nat := 64

/-- The hash of a suite and what is built on it. -/
structure Suite where
  /-- `EVP_MD_get_size(ssl_handshake_md(s))` -/
  mdSize : Nat
  keyLength : Nat
  ivLength : Nat
  hash : Bytes → Bytes
  /-- `tls13_generate_secret(prevsecret, insecret)`; `none` is no input secret -/
  generateSecret : Bytes → Option Bytes → Bytes
  /-- `tls13_hkdf_expand(secret, label, data, length)` -/
  hkdfExpand : Bytes → Label → Bytes → Nat → Bytes
  hmac : Bytes → Bytes → Bytes
  mdSize_pos : 0 < mdSize
  mdSize_le : mdSize ≤ evpMaxMdSize
  length_hmac (k m : Bytes) : (hmac k m).length = mdSize

/-! ## the connection -/

/-- `SSL_PHA_STATE` -/
inductive Pha where
  | none
  | extSent
  | extReceived
  | requestPending
  | requested
  deriving DecidableEq, Repr

/-- The states of the machines behind the server Finished. -/
inductive HandState where
  | ok
  | crFinished
  | crCertReq
  | pendingEarlyDataEnd
  | cwEndOfEarlyData
  | cwChange
  | cwCert
  | cwCertVrfy
  | cwFinished
  | swCertReq
  | swFinished
  | earlyData
  | srEndOfEarlyData
  | srCert
  | srCertVrfy
  | srFinished
  | swSessionTicket
  deriving DecidableEq, Repr

/-- The keys of one direction of the record layer, and its sequence number. -/
structure Channel where
  key : Bytes := []
  iv : Bytes := []
  seq : Nat := 0
  deriving DecidableEq, Repr

/-- The connection object. -/
structure Conn (X509 Pkey : Type) where
  server : Bool
  handState : HandState
  /-- `ext.tls13_gm_dual_cert` -/
  dualCert : Bool := false
  postHandshakeAuth : Pha := .none
  /-- `early_data_state` is `WRITE_RETRY` or `FINISHED_WRITING` -/
  earlyDataWritten : Bool := false
  /-- `early_data_state` is `READING` or `READ_RETRY` -/
  earlyDataReading : Bool := false
  /-- `ext.early_data == SSL_EARLY_DATA_ACCEPTED` -/
  earlyDataAccepted : Bool := false
  /-- `SSL_OP_ENABLE_MIDDLEBOX_COMPAT` without a HelloRetryRequest -/
  middleboxCompat : Bool := false
  /-- `s3.tmp.cert_req`, of the client -/
  certReq : Nat := 0
  /-- `s3.tmp.cert_request`, of the server -/
  certRequest : Bool := false
  /-- `session->peer` -/
  peer : Option X509 := none
  sentShutdown : Bool := false
  ticketExpected : Bool := false
  /-- `num_tickets > sent_tickets` -/
  ticketsLeft : Bool := false
  cleanuphand : Bool := false
  /-- what `s3.handshake_dgst` was fed -/
  transcript : Bytes := []
  phaDgst : Option Bytes := none
  handshakeSecret : Bytes := []
  masterSecret : Bytes := []
  /-- history: the input that the master secret was derived with -/
  masterSecretInput : Option Bytes := none
  clientFinishedSecret : Bytes := []
  serverFinishedSecret : Bytes := []
  handshakeTrafficHash : Bytes := []
  serverFinishedHash : Bytes := []
  /-- `tls13_gm_dual_cert_sf_hash_saved` -/
  sfHashSaved : Bool := false
  clientAppTrafficSecret : Bytes := []
  serverAppTrafficSecret : Bytes := []
  exporterMasterSecret : Bytes := []
  resumptionMasterSecret : Bytes := []
  /-- history: the transcripts that `serverFinishedHash` and the two application
  secrets were taken from -/
  serverFinishedTranscript : Bytes := []
  clientAppTranscript : Bytes := []
  serverAppTranscript : Bytes := []
  /-- the first `tls13_gm_master_secret_ikm_len` bytes of
  `tls13_gm_master_secret_ikm` -/
  gmIkm : Bytes := []
  /-- history: more than its `evpMaxMdSize` bytes were written to
  `tls13_gm_master_secret_ikm`, so what lies behind it is overwritten -/
  overrun : Bool := false
  /-- `tls13_peer_gm_enc_pkey` -/
  peerGmEncPkey : Option Pkey := none
  /-- `s3.tmp.tls13_gm_enc_cert` -/
  gmEncCert : Option (CertPkey X509 Pkey) := none
  /-- `s3.tmp.finish_md`, as long as `finish_md_len` -/
  finishMd : Bytes := []
  peerFinishMd : Bytes := []
  read : Channel := {}
  write : Channel := {}

/-- Code that mutates the connection and may end in `SSLfatal`. -/
abbrev Step (X509 Pkey : Type) := EStateM Fatal (Conn X509 Pkey)

variable {X509 Pkey : Type}

/-- `SSL_IS_FIRST_HANDSHAKE` -/
def Conn.isFirstHandshake (s : Conn X509 Pkey) : Bool :=
  s.finishMd.length == 0 || s.peerFinishMd.length == 0

/-! ## secrets -/

/-- `tls13_generate_master_secret`.  The input is forgotten behind it. -/
def tls13GenerateMasterSecret (suite : Suite) : Step X509 Pkey Unit := do
  let s ← get
  check (s.gmIkm.length = 0 ∨ s.gmIkm.length = suite.mdSize) ⟨.internalError, .internalError⟩
  let ikm := if s.gmIkm.length = 0 then none else some s.gmIkm
  modify fun s => { s with
    masterSecret := suite.generateSecret s.handshakeSecret ikm
    masterSecretInput := ikm
    gmIkm := [] }

theorem tls13GenerateMasterSecret_ok {suite : Suite} {s t : Conn X509 Pkey} :
    (tls13GenerateMasterSecret suite).run s = .ok () t ↔ (s.gmIkm = [] ∧ t = { s with
        masterSecret := suite.generateSecret s.handshakeSecret none, masterSecretInput := none }) ∨
      (s.gmIkm.length = suite.mdSize ∧ t = { s with
        masterSecret := suite.generateSecret s.handshakeSecret (some s.gmIkm),
        masterSecretInput := some s.gmIkm, gmIkm := [] }) := by
  have hpos := suite.mdSize_pos
  rw [tls13GenerateMasterSecret, run_get_bind_ok, run_check_bind_ok]
  dsimp only
  rw [run_modify_ok]
  by_cases hlen : s.gmIkm.length = 0
  · have hnil : s.gmIkm = [] := List.length_eq_zero_iff.mp hlen
    have hne : s.gmIkm.length ≠ suite.mdSize := by omega
    rw [if_pos hlen]
    constructor
    · intro ⟨_, ht⟩
      refine .inl ⟨hnil, ?_⟩
      rw [← ht, ← hnil]
    · intro h
      rcases h with ⟨_, ht⟩ | ⟨hmd, _⟩
      · refine ⟨.inl hlen, ?_⟩
        rw [ht, ← hnil]
      · exact absurd hmd hne
  · rw [if_neg hlen]
    constructor
    · intro ⟨hor, ht⟩
      exact .inr ⟨hor.resolve_left hlen, ht.symm⟩
    · intro h
      rcases h with ⟨hnil, _⟩ | ⟨hmd, ht⟩
      · exact absurd (by rw [hnil]; rfl) hlen
      · exact ⟨.inr hmd, ht.symm⟩

/-- The same, for an input that was just set. -/
theorem tls13GenerateMasterSecret_of_ikm {suite : Suite} {s t : Conn X509 Pkey} {ikm : Bytes}
    (h : (tls13GenerateMasterSecret suite).run { s with gmIkm := ikm } = .ok () t) :
    (ikm = [] ∨ ikm.length = suite.mdSize) ∧ t = { s with
      masterSecret := suite.generateSecret s.handshakeSecret (if ikm = [] then none else some ikm),
      masterSecretInput := if ikm = [] then none else some ikm, gmIkm := [] } := by
  rcases tls13GenerateMasterSecret_ok.mp h with ⟨hnil, ht⟩ | ⟨hlen, ht⟩
  · dsimp only at hnil
    subst hnil
    exact ⟨.inl rfl, ht⟩
  · dsimp only at hlen
    have hne : ikm ≠ [] := by
      intro hnil
      have hpos := suite.mdSize_pos
      rw [← hlen, hnil] at hpos
      simp at hpos
    rw [if_neg hne]
    exact ⟨.inr hlen, ht⟩

/-- `tls13_final_finish_mac` with the label of the server or of the client -/
def tls13FinalFinishMac (suite : Suite) (serverLabel : Bool) (s : Conn X509 Pkey) : Bytes :=
  let key := if serverLabel then s.serverFinishedSecret
    else if s.isFirstHandshake then s.clientFinishedSecret
    else suite.hkdfExpand s.clientAppTrafficSecret .finished [] suite.mdSize
  suite.hmac key (suite.hash s.transcript)

/-! ## the cipher state -/

/-- `SSL3_CC_HANDSHAKE` and `SSL3_CC_APPLICATION` -/
inductive Epoch where
  | handshake
  | application
  deriving DecidableEq, Repr

/-- `SSL3_CHANGE_CIPHER_*` -/
inductive Change where
  | clientWrite
  | serverRead
  | clientRead
  | serverWrite
  deriving DecidableEq, Repr

/-- `SSL3_CC_READ` -/
def Change.isRead : Change → Bool
  | .clientRead | .serverRead => true
  | .clientWrite | .serverWrite => false

/-- The label of a traffic secret. -/
def trafficLabel : Epoch → Change → Label
  | .handshake, .clientWrite | .handshake, .serverRead => .clientHandshakeTraffic
  | .handshake, .clientRead | .handshake, .serverWrite => .serverHandshakeTraffic
  | .application, .clientWrite | .application, .serverRead => .clientApplicationTraffic
  | .application, .clientRead | .application, .serverWrite => .serverApplicationTraffic

/-- `derive_secret_key_and_iv` behind the secret, with the reset of the
sequence number -/
def Conn.install (suite : Suite) (which : Change) (secret : Bytes) (s : Conn X509 Pkey) :
    Conn X509 Pkey :=
  let channel : Channel :=
    { key := suite.hkdfExpand secret .key [] suite.keyLength
      iv := suite.hkdfExpand secret .iv [] suite.ivLength
      seq := 0 }
  if which.isRead then { s with read := channel } else { s with write := channel }

/-- The hash that the server's application secret is taken from is the saved
one: the server derives it behind the client Finished. -/
def Conn.sfHashFixup (s : Conn X509 Pkey) (which : Change) : Bool :=
  s.server && !which.isRead && s.dualCert && s.sfHashSaved

/-- `tls13_change_cipher_state` behind the ServerHello -/
def tls13ChangeCipherState (suite : Suite) (epoch : Epoch) (which : Change)
    (s : Conn X509 Pkey) : Conn X509 Pkey :=
  let hashval := suite.hash s.transcript
  match epoch, which with
  | .handshake, .clientWrite | .handshake, .serverRead =>
    -- the hash moves on if early data was processed, so the saved one is used
    let secret := suite.hkdfExpand s.handshakeSecret (trafficLabel epoch which)
      s.handshakeTrafficHash suite.mdSize
    { s with clientFinishedSecret := suite.hkdfExpand secret .finished [] suite.mdSize }.install
      suite which secret
  | .handshake, .clientRead | .handshake, .serverWrite =>
    let secret := suite.hkdfExpand s.handshakeSecret (trafficLabel epoch which) hashval
      suite.mdSize
    { s with
      handshakeTrafficHash := hashval
      serverFinishedSecret := suite.hkdfExpand secret .finished [] suite.mdSize }.install
      suite which secret
  | .application, .clientWrite | .application, .serverRead =>
    let secret := suite.hkdfExpand s.masterSecret (trafficLabel epoch which)
      s.serverFinishedHash suite.mdSize
    { s with
      resumptionMasterSecret :=
        suite.hkdfExpand s.masterSecret .resumptionMasterSecret hashval suite.mdSize
      clientAppTrafficSecret := secret
      clientAppTranscript := s.serverFinishedTranscript }.install suite which secret
  | .application, .clientRead | .application, .serverWrite =>
    let fixup := s.sfHashFixup which
    let hashval := if fixup then s.serverFinishedHash else hashval
    let secret := suite.hkdfExpand s.masterSecret (trafficLabel epoch which) hashval suite.mdSize
    { s with
      serverFinishedHash := hashval
      serverFinishedTranscript := if fixup then s.serverFinishedTranscript else s.transcript
      serverAppTranscript := if fixup then s.serverFinishedTranscript else s.transcript
      sfHashSaved := s.sfHashSaved && !fixup
      serverAppTrafficSecret := secret
      exporterMasterSecret :=
        suite.hkdfExpand s.masterSecret .exporterMasterSecret hashval suite.mdSize }.install
      suite which secret

/-- The server's application secret, taken from the saved hash. -/
theorem tls13ChangeCipherState_fixup {suite : Suite} {s : Conn X509 Pkey}
    (h : s.sfHashFixup .serverWrite = true) :
    (tls13ChangeCipherState suite .application .serverWrite s).serverAppTrafficSecret =
        suite.hkdfExpand s.masterSecret .serverApplicationTraffic s.serverFinishedHash
          suite.mdSize ∧
      (tls13ChangeCipherState suite .application .serverWrite s).serverAppTranscript =
        s.serverFinishedTranscript := by
  constructor
  · change suite.hkdfExpand _ _ (if s.sfHashFixup .serverWrite then _ else _) _ = _
    rw [if_pos h]
    rfl
  · change (if s.sfHashFixup .serverWrite then _ else _) = _
    rw [if_pos h]

end Tlcp.Tls13
