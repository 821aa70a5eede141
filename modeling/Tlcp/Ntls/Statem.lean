import Tlcp.Lib.Run
import Tlcp.Ntls.Common

/-!
# Tlcp.Ntls.Statem

The driver that both NTLS machines run under (`ntls_statem.c`).

A `Machine` is what the client and the server each supply: their transition
functions, message processors and constructors.  The driver feeds it.  Its
loop can return to the application between any two messages and around each
callback, so a run is a list of small `Event`s: a message is read, a round of
post-processing is made, a message is written, the application clears the
object or asks for a renegotiation.  An event that the driver would not act
on in a state is impossible there.

`Event.abort` stands for the failures below the handshake (allocation, the
record layer): the machine may enter its error state at any point.
-/

namespace Tlcp

open Octets Fallible

variable {X509 Pkey Ans : Type}

/-- `WRITE_TRAN` -/
inductive WriteTran where
  | cont
  | finished
  deriving DecidableEq, Repr

/-- What an endpoint supplies to the driver.  `Ans` is what its steps are told
from outside: random bytes, and the answers of callbacks and of code that is
not modelled. -/
structure Machine (X509 Pkey Ans : Type) where
  isServer : Bool
  readTransition : MsgType → Handshake X509 Pkey Unit
  maxMessageSize : SSL X509 Pkey → Nat
  processMessage : Ans → Bytes → Handshake X509 Pkey MsgProcess
  postProcessMessage : Ans → Work → Handshake X509 Pkey Work
  writeTransition : Ans → Handshake X509 Pkey WriteTran
  preWork : Ans → Work → Handshake X509 Pkey Work
  constructMessage : Ans → Handshake X509 Pkey (MsgType × Bytes)
  postWork : Ans → Handshake X509 Pkey Unit

/-- One thing that happens to a connection object. -/
inductive Event (Ans : Type) where
  /-- the application calls `SSL_clear`; the flag is `SSL_SENT_SHUTDOWN` -/
  | clear (sentShutdown : Bool)
  /-- the application calls `SSL_renegotiate` -/
  | renegotiate
  /-- `ssl3_renegotiate_check` finds a renegotiation to start -/
  | renegotiateCheck
  /-- the record layer finds handshake data outside a handshake -/
  | handshakeData
  /-- the state machine is entered -/
  | enter
  /-- a message is read and processed -/
  | recv (mt : MsgType) (body : Bytes) (ans : Ans)
  /-- a round of the post-processing of the last message -/
  | postProcess (ans : Ans)
  /-- a round of the write machine: one transition, and the message it asks for -/
  | write (ans : Ans)
  /-- a failure outside the handshake code -/
  | abort (e : Fatal)

/-! ## setting up and clearing -/

/-- `tls_setup_handshake_ntls` -/
def tlsSetupHandshake : Handshake X509 Pkey Unit := do
  ssl3InitFinishedMac
  let s ← get
  if s.server then
    check (s.ciphersAvailable) ⟨.handshakeFailure, .noCiphersAvailable⟩
    onlyIf (s.isFirstHandshake = false) (modify fun s => { s with s3.tmp.certRequest := false })
  else
    modify fun s =>
      { s with s3.clientRandom := List.replicate 32 0, hit := false, s3.tmp.certReq := 0 }

/-- `SSL_in_before` -/
def SSL.inBefore (s : SSL X509 Pkey) : Prop :=
  s.statem.handState = .before ∧ s.statem.state = .uninited

instance (s : SSL X509 Pkey) : Decidable s.inBefore := inferInstanceAs (Decidable (_ ∧ _))

/-- `SSL_clear` of an object that has no renegotiation pending.  Unless it was
shut down or never finished a handshake, the session is bad and dropped. -/
def sslClear (sentShutdown : Bool) (s : SSL X509 Pkey) : SSL X509 Pkey := { s with
    session := if !sentShutdown ∧ ¬ (s.statem.inInit ∨ s.inBefore) then {} else s.session
    hit := false
    statem.state := .uninited
    statem.handState := .before
    statem.inInit := true
    statem.noCertVerify := false
    version := ntlsVersion
    clientVersion := ntlsVersion
    clienthello := none
    s3 := {}
    trace := [] }

/-- The head of `state_machine_ntls`, from a fresh object: clear it and set up
the first handshake. -/
def enterFresh (isServer : Bool) : Handshake X509 Pkey Unit := do
  modify (sslClear false)
  modify fun s => { s with statem.requestState := .before, server := isServer }
  tlsSetupHandshake
  modify fun s => { s with statem.state := .writing, statem.writeState := .transition }

/-- The head of `state_machine_ntls`, after a handshake. -/
def enterAgain (isServer : Bool) : Handshake X509 Pkey Unit := do
  modify fun s => { s with server := isServer, s3.changeCipherSpec := false }
  let s ← get
  onlyIf s.renegotiate tlsSetupHandshake
  modify fun s => { s with statem.state := .writing, statem.writeState := .transition }

/-- `tls_finish_handshake_ntls` -/
def tlsFinishHandshake : Handshake X509 Pkey Work := do
  let s ← get
  onlyIf s.statem.cleanuphand (modify fun s =>
    { s with renegotiate := false, statem.cleanuphand := false, ext.ticketExpected := false })
  modify fun s => { s with statem.inInit := false }
  pure .finishedStop

/-! ## reading -/

/-- `s3.tmp.message_size`: the record of a ChangeCipherSpec counts its own
byte. -/
def messageSize (mt : MsgType) (body : Bytes) : Nat :=
  if mt = .changeCipherSpec then body.length + 1 else body.length

/-- Where the driver goes on after a message was processed. -/
def SSL.afterProcess (ret : MsgProcess) (s : SSL X509 Pkey) : SSL X509 Pkey := match ret with
  | .finishedReading => { s with statem.state := .writing, statem.writeState := .transition }
  | .continueProcessing => { s with statem.readState := .postProcess .moreA }
  | .continueReading => { s with statem.readState := .header }

/-- Where the driver goes on after a round of post-processing. -/
def SSL.afterWork (wst : Work) (s : SSL X509 Pkey) : SSL X509 Pkey := match wst with
  | .finishedStop => { s with statem.state := .writing, statem.writeState := .transition }
  | .finishedContinue => { s with statem.readState := .header }
  | wst => { s with statem.readState := .postProcess wst }

/-- `READ_STATE_HEADER` and `READ_STATE_BODY` -/
def readMessage (lib : Libcrypto X509 Pkey) (m : Machine X509 Pkey Ans) (mt : MsgType)
    (body : Bytes) (ans : Ans) : Handshake X509 Pkey Unit := do
  m.readTransition mt
  let s ← get
  check (messageSize mt body ≤ m.maxMessageSize s) ⟨.illegalParameter, .excessiveMessageSize⟩
  tlsGetMessageBody lib mt body
  let ret ← m.processMessage ans body
  record (.accepted mt body)
  modify (SSL.afterProcess ret)

/-- `READ_STATE_POST_PROCESS` -/
def postProcessRound (m : Machine X509 Pkey Ans) (wst : Work) (ans : Ans) :
    Handshake X509 Pkey Unit := do
  let wst ← m.postProcessMessage ans wst
  modify (SSL.afterWork wst)

/-! ## writing -/

/-- Construct, send and finish the message of the current state.  What is sent
goes into the transcript, except for a ChangeCipherSpec. -/
def sendMessage (m : Machine X509 Pkey Ans) (ans : Ans) : Handshake X509 Pkey Unit := do
  let (mt, body) ← m.constructMessage ans
  onlyIf (mt ≠ .changeCipherSpec) (ssl3FinishMac (handshakeBytes mt body))
  record (.sent mt body)
  m.postWork ans
  modify fun s => { s with statem.writeState := .transition }

/-- `WRITE_STATE_PRE_WORK` and what follows it. -/
def preWorkRound (m : Machine X509 Pkey Ans) (wst : Work) (ans : Ans) :
    Handshake X509 Pkey Unit := do
  match ← m.preWork ans wst with
  | .finishedStop => modify fun s => { s with statem.state := .finished }
  | .finishedContinue => sendMessage m ans
  | wst => modify fun s => { s with statem.writeState := .preWork wst }

/-- One round of `write_state_machine_ntls`. -/
def writeRound (m : Machine X509 Pkey Ans) (ans : Ans) : Handshake X509 Pkey Unit := do
  let s ← get
  match s.statem.writeState with
  | .preWork wst => preWorkRound m wst ans
  | .transition =>
    match ← m.writeTransition ans with
    | .finished =>
      modify fun s => { s with statem.state := .reading, statem.readState := .header }
    | .cont => preWorkRound m .moreA ans

/-! ## the step function -/

/-- Enter the error state. -/
def SSL.fail (s : SSL X509 Pkey) (e : Fatal) : SSL X509 Pkey :=
  { s with statem.state := .error e, statem.inInit := true }

/-- The object after handshake code ran: a fatal error is kept in its flow. -/
def settle : EStateM.Result Fatal (SSL X509 Pkey) Unit → SSL X509 Pkey
  | .ok _ s => s
  | .error e s => s.fail e

/-- One event.  An application whose `SSL_clear` is refused, because a
renegotiation is pending, leaves the object alone. -/
def step (lib : Libcrypto X509 Pkey) (m : Machine X509 Pkey Ans) (s : SSL X509 Pkey) :
    Event Ans → Option (SSL X509 Pkey)
  | .clear sentShutdown => if s.renegotiate then none else some (sslClear sentShutdown s)
  | .renegotiate => some { s with renegotiate := true, s3.renegotiate := true }
  | .renegotiateCheck =>
    if s.s3.renegotiate ∧ s.statem.inInit = false then
      some { s with
        statem.inInit := true
        statem.requestState := .swHelloReq
        s3.renegotiate := false }
    else none
  | .handshakeData =>
    if s.statem.inInit = false then some { s with statem.inInit := true } else none
  | .enter =>
    if s.inBefore ∧ s.renegotiate = false then some (settle ((enterFresh m.isServer).run s))
    else if s.statem.state = .finished ∧ s.statem.inInit then some (settle ((enterAgain m.isServer).run s))
    else none
  | .recv mt body ans =>
    if s.statem.state = .reading ∧ s.statem.readState = .header then
      some (settle ((readMessage lib m mt body ans).run s))
    else none
  | .postProcess ans =>
    match s.statem.state, s.statem.readState with
    | .reading, .postProcess wst => some (settle ((postProcessRound m wst ans).run s))
    | _, _ => none
  | .write ans =>
    if s.statem.state = .writing then some (settle ((writeRound m ans).run s)) else none
  | .abort e => some (s.fail e)

section stepped

variable (lib : Libcrypto X509 Pkey) (m : Machine X509 Pkey Ans) (s : SSL X509 Pkey)

/-- What an event did that could happen. -/
inductive Stepped : Event Ans → SSL X509 Pkey → Prop where
  | clear (sentShutdown : Bool) : Stepped (.clear sentShutdown) (sslClear sentShutdown s)
  | renegotiate : Stepped .renegotiate { s with renegotiate := true, s3.renegotiate := true }
  | renegotiateCheck : Stepped .renegotiateCheck { s with
      statem.inInit := true, statem.requestState := .swHelloReq, s3.renegotiate := false }
  | handshakeData : Stepped .handshakeData { s with statem.inInit := true }
  | fresh (hbefore : s.inBefore) (hren : s.renegotiate = false) :
      Stepped .enter (settle ((enterFresh m.isServer).run s))
  | again (hfin : s.statem.state = .finished) (hinit : s.statem.inInit = true) :
      Stepped .enter (settle ((enterAgain m.isServer).run s))
  | recv (mt : MsgType) (body : Bytes) (ans : Ans) (hst : s.statem.state = .reading)
      (hrs : s.statem.readState = .header) :
      Stepped (.recv mt body ans) (settle ((readMessage lib m mt body ans).run s))
  | post (wst : Work) (ans : Ans) (hst : s.statem.state = .reading)
      (hrs : s.statem.readState = .postProcess wst) :
      Stepped (.postProcess ans) (settle ((postProcessRound m wst ans).run s))
  | write (ans : Ans) (hst : s.statem.state = .writing) :
      Stepped (.write ans) (settle ((writeRound m ans).run s))
  | abort (e : Fatal) : Stepped (.abort e) (s.fail e)

variable {lib m s} {t : SSL X509 Pkey} {e : Event Ans}

theorem step_some (h : step lib m s e = some t) : Stepped lib m s e t := by
  cases e with
  | clear sentShutdown =>
    simp only [step, Option.ite_none_left_eq_some, Option.some.injEq] at h
    exact h.2 ▸ .clear sentShutdown
  | renegotiate => exact Option.some.inj h ▸ .renegotiate
  | renegotiateCheck =>
    simp only [step, Option.ite_none_right_eq_some, Option.some.injEq] at h
    exact h.2 ▸ .renegotiateCheck
  | handshakeData =>
    simp only [step, Option.ite_none_right_eq_some, Option.some.injEq] at h
    exact h.2 ▸ .handshakeData
  | enter =>
    simp only [step] at h
    split at h
    · next hfresh => exact Option.some.inj h ▸ .fresh hfresh.1 hfresh.2
    · split at h
      · next hagain => exact Option.some.inj h ▸ .again hagain.1 hagain.2
      · contradiction
  | recv mt body ans =>
    simp only [step, Option.ite_none_right_eq_some, Option.some.injEq] at h
    exact h.2 ▸ .recv mt body ans h.1.1 h.1.2
  | postProcess ans =>
    simp only [step] at h
    split at h
    · next wst hst hrs => exact Option.some.inj h ▸ .post wst ans hst hrs
    · contradiction
  | write ans =>
    simp only [step, Option.ite_none_right_eq_some, Option.some.injEq] at h
    exact h.2 ▸ .write ans h.1
  | abort e => exact Option.some.inj h ▸ .abort e

/-- An object that failed stays so until it is cleared. -/
theorem step_error {f : Fatal} (hs : s.statem.state = .error f) (hclear : ∀ c, e ≠ .clear c)
    (h : step lib m s e = some t) : ∃ f, t.statem.state = .error f := by
  cases step_some h with
  | clear c => exact absurd rfl (hclear c)
  | renegotiate => exact ⟨f, hs⟩
  | renegotiateCheck => exact ⟨f, hs⟩
  | handshakeData => exact ⟨f, hs⟩
  | fresh hbefore => simp [hbefore.2] at hs
  | again hfin => simp [hfin] at hs
  | recv _ _ _ hst => simp [hst] at hs
  | post _ _ hst => simp [hst] at hs
  | write _ hst => simp [hst] at hs
  | abort e => exact ⟨e, rfl⟩

end stepped

/-! ## what the parts of a round did -/

section rounds

variable {lib : Libcrypto X509 Pkey} {m : Machine X509 Pkey Ans}
  {s t : SSL X509 Pkey} {u : Unit} {mt : MsgType} {body : Bytes} {ans : Ans} {wst : Work}

theorem tlsSetupHandshake_server (hserver : s.server = true)
    (h : tlsSetupHandshake.run s = .ok u t) :
    t = { s with
      s3.handshakeBuffer := some [], s3.handshakeDgst := none,
      s3.tmp.certRequest := s.isFirstHandshake && s.s3.tmp.certRequest, trace := [] } := by
  rw [tlsSetupHandshake, ssl3InitFinishedMac, run_modify_bind_ok, run_get_bind_ok,
    if_pos hserver, run_check_bind_ok, run_onlyIf_ok, run_modify_ok] at h
  obtain ⟨_, h⟩ := h
  have hfirst : SSL.isFirstHandshake
      { s with s3.handshakeBuffer := some [], s3.handshakeDgst := none, trace := [] } =
      s.isFirstHandshake := rfl
  rw [hfirst] at h
  cases hf : s.isFirstHandshake <;> simp_all

/-- The head of the machine, from a fresh server object. -/
theorem enterFresh_server (h : (enterFresh true).run s = .ok u t) : t = { sslClear false s with
      statem.requestState := .before, server := true, s3.handshakeBuffer := some [],
      statem.state := .writing, statem.writeState := .transition } := by
  rw [enterFresh, run_modify_bind_ok, run_modify_bind_ok] at h
  obtain ⟨_, s₁, hsetup, h⟩ := run_bind_ok.mp h
  rw [run_modify_ok] at h
  rw [← h, tlsSetupHandshake_server rfl hsetup]
  rfl

/-- The head of the machine, from a server object that finished a handshake. -/
theorem enterAgain_server (h : (enterAgain true).run s = .ok u t) : t = { s with
        server := true, s3.changeCipherSpec := false, statem.state := .writing,
        statem.writeState := .transition } ∨
      t = { s with
        server := true, s3.changeCipherSpec := false, s3.handshakeBuffer := some [],
        s3.handshakeDgst := none, s3.tmp.certRequest := s.isFirstHandshake && s.s3.tmp.certRequest,
        trace := [], statem.state := .writing, statem.writeState := .transition } := by
  rw [enterAgain, run_modify_bind_ok, run_get_bind_ok] at h
  obtain ⟨_, s₁, hsetup, h⟩ := run_bind_ok.mp h
  rw [run_modify_ok] at h
  subst h
  cases run_onlyIf_ok.mp hsetup with
  | inl hren => exact .inr (by rw [tlsSetupHandshake_server rfl hren.2]; rfl)
  | inr hnone => exact .inl (by rw [← hnone.2])

theorem readMessage_ok (h : (readMessage lib m mt body ans).run s = .ok u t) :
    ∃ s₁ s₂ ret s₃, (m.readTransition mt).run s = .ok () s₁ ∧
      (tlsGetMessageBody lib mt body).run s₁ = .ok () s₂ ∧
      (m.processMessage ans body).run s₂ = .ok ret s₃ ∧
      t = SSL.afterProcess ret { s₃ with trace := s₃.trace ++ [.accepted mt body] } := by
  obtain ⟨_, s₁, h₁, h⟩ := run_bind_ok.mp h
  rw [run_get_bind_ok, run_check_bind_ok] at h
  obtain ⟨_, h⟩ := h
  obtain ⟨_, s₂, h₂, h⟩ := run_bind_ok.mp h
  obtain ⟨ret, s₃, h₃, h⟩ := run_bind_ok.mp h
  rw [record, run_modify_bind_ok, run_modify_ok] at h
  exact ⟨s₁, s₂, ret, s₃, h₁, h₂, h₃, h.symm⟩

theorem postProcessRound_ok (h : (postProcessRound m wst ans).run s = .ok u t) :
    ∃ wst' s₁, (m.postProcessMessage ans wst).run s = .ok wst' s₁ ∧ t = SSL.afterWork wst' s₁ := by
  obtain ⟨wst', s₁, h₁, h⟩ := run_bind_ok.mp h
  rw [run_modify_ok] at h
  exact ⟨wst', s₁, h₁, h.symm⟩

theorem sendMessage_ok (h : (sendMessage m ans).run s = .ok u t) :
    ∃ mt body s₁ dg bf s₃, (m.constructMessage ans).run s = .ok (mt, body) s₁ ∧
      (s₁.s3.handshakeDgst = none → dg = none) ∧
      (∀ T, Hashes s₁.s3.handshakeDgst s₁.s3.handshakeBuffer T →
        Hashes dg bf (T ++ (Obs.sent mt body : Obs X509).bytes)) ∧
      (m.postWork ans).run { s₁ with
          s3.handshakeDgst := dg, s3.handshakeBuffer := bf,
          trace := s₁.trace ++ [.sent mt body] } = .ok () s₃ ∧
      t = { s₃ with statem.writeState := .transition } := by
  obtain ⟨⟨mt, body⟩, s₁, h₁, h⟩ := run_bind_ok.mp h
  obtain ⟨_, s₂, h₂, h⟩ := run_bind_ok.mp h
  rw [record, run_modify_bind_ok] at h
  obtain ⟨_, s₃, h₃, hend⟩ := run_bind_ok.mp h
  rw [run_modify_ok] at hend
  cases run_onlyIf_ok.mp h₂ with
  | inl hmac =>
    obtain ⟨dg, bf, hs₂, hnone⟩ := ssl3FinishMac_frame hmac.2
    refine ⟨mt, body, s₁, dg, bf, s₃, h₁, hnone, ?_, by rw [hs₂] at h₃; exact h₃, hend.symm⟩
    intro T hT
    have hfeed := hT.feed hmac.2
    rw [hs₂] at hfeed
    simpa [Obs.bytes, hmac.1] using hfeed
  | inr hccs =>
    obtain ⟨hmt, hs₂⟩ := hccs
    subst hs₂
    refine ⟨mt, body, s₁, s₁.s3.handshakeDgst, s₁.s3.handshakeBuffer, s₃, h₁, id, ?_, h₃, hend.symm⟩
    intro T hT
    simpa [Obs.bytes, not_not.mp hmt] using hT

theorem tlsFinishHandshake_ok {r : Work} (h : tlsFinishHandshake.run s = .ok r t) :
    r = .finishedStop ∧ ∃ ren cl te, t = { s with
      renegotiate := ren, statem.cleanuphand := cl, statem.inInit := false,
      ext.ticketExpected := te } := by
  rw [tlsFinishHandshake, run_get_bind_ok] at h
  obtain ⟨_, s₁, hclean, h⟩ := run_bind_ok.mp h
  rw [run_modify_bind_ok, run_pure_ok] at h
  obtain ⟨hr, ht⟩ := h
  subst ht
  refine ⟨hr.symm, ?_⟩
  cases run_onlyIf_ok.mp hclean with
  | inl hc =>
    have hs₁ := run_modify_ok.mp hc.2
    subst hs₁
    exact ⟨_, _, _, rfl⟩
  | inr hc =>
    obtain ⟨_, hs₁⟩ := hc
    subst hs₁
    exact ⟨_, _, _, rfl⟩

/-- The handshake of `s` is over in `t`. -/
abbrev SSL.Done (s t : SSL X509 Pkey) : Prop := ∃ ren cl te, t = { s with
  renegotiate := ren, ext.ticketExpected := te, statem.handState := .ok
  statem.state := .finished, statem.cleanuphand := cl, statem.inInit := false }

theorem preWorkRound_ok (h : (preWorkRound m wst ans).run s = .ok u t) :
    ∃ wst' s₁, (m.preWork ans wst).run s = .ok wst' s₁ ∧
      ((wst' = .finishedStop ∧ t = { s₁ with statem.state := .finished }) ∨
        (wst' = .finishedContinue ∧ (sendMessage m ans).run s₁ = .ok () t) ∨
        (wst' ≠ .finishedStop ∧ wst' ≠ .finishedContinue ∧
          t = { s₁ with statem.writeState := .preWork wst' })) := by
  obtain ⟨wst', s₁, h₁, h⟩ := run_bind_ok.mp h
  refine ⟨wst', s₁, h₁, ?_⟩
  split at h
  · exact .inl ⟨rfl, (run_modify_ok.mp h).symm⟩
  · exact .inr (.inl ⟨rfl, h⟩)
  · next hstop hcont => exact .inr (.inr ⟨hstop, hcont, (run_modify_ok.mp h).symm⟩)

theorem writeRound_ok (h : (writeRound m ans).run s = .ok u t) :
    (∃ s₁, (m.writeTransition ans).run s = .ok .finished s₁ ∧
        t = { s₁ with statem.state := .reading, statem.readState := .header }) ∨
      (∃ s₁, (m.writeTransition ans).run s = .ok .cont s₁ ∧
        (preWorkRound m .moreA ans).run s₁ = .ok () t) ∨
      (∃ wst, s.statem.writeState = .preWork wst ∧ (preWorkRound m wst ans).run s = .ok () t) := by
  rw [writeRound, run_get_bind_ok] at h
  split at h
  · next wst hwst => exact .inr (.inr ⟨wst, hwst, h⟩)
  · obtain ⟨tran, s₁, h₁, h⟩ := run_bind_ok.mp h
    cases tran with
    | finished => exact .inl ⟨s₁, h₁, (run_modify_ok.mp h).symm⟩
    | cont => exact .inr (.inl ⟨s₁, h₁, h⟩)

end rounds

/-! ## the rule for live objects -/

/-- The object is in a handshake or has finished one. -/
def SSL.live (s : SSL X509 Pkey) : Prop :=
  s.statem.state = .reading ∨ s.statem.state = .writing ∨ s.statem.state = .finished

instance (s : SSL X509 Pkey) : Decidable s.live := inferInstanceAs (Decidable (_ ∨ _ ∨ _))

theorem settle_live {r : EStateM.Result Fatal (SSL X509 Pkey) Unit} (h : (settle r).live) :
    r = .ok () (settle r) := by
  cases r with
  | ok u s => rfl
  | error e s => simp [settle, SSL.fail, SSL.live] at h

/-- The object has `Q`, or is in the error state. -/
def orFailed (Q : SSL X509 Pkey → Prop) (s : SSL X509 Pkey) : Prop :=
  (∃ e, s.statem.state = .error e) ∨ Q s

theorem orFailed_settle {Q : SSL X509 Pkey → Prop} {s : SSL X509 Pkey}
    {x : Handshake X509 Pkey Unit} (h : ∀ t, x.run s = .ok () t → Q t) :
    orFailed Q (settle (x.run s)) := by
  cases hx : x.run s with
  | ok u t => exact .inr (h t hx)
  | error e t => exact .inl ⟨e, rfl⟩

/-- What to check of a machine so that an event that meets `C` leads from a live
object with `P` to one related to it by `R`, if that is live again. -/
structure Machine.Leads (lib : Libcrypto X509 Pkey) (m : Machine X509 Pkey Ans)
    (C : SSL X509 Pkey → Event Ans → Prop) (P : SSL X509 Pkey → Prop)
    (R : SSL X509 Pkey → SSL X509 Pkey → Prop) : Prop where
  fresh : ∀ s t, (enterFresh m.isServer).run s = .ok () t → R s t
  again : ∀ s t, P s → s.statem.state = .finished → (enterAgain m.isServer).run s = .ok () t → R s t
  quiet : ∀ s r p i q, P s → s.live → (s.renegotiate = true → r = true) → R s { s with
      renegotiate := r, s3.renegotiate := p, statem.inInit := i, statem.requestState := q }
  recv : ∀ s mt body ans t, P s → C s (.recv mt body ans) → s.statem.state = .reading →
    s.statem.readState = .header → (readMessage lib m mt body ans).run s = .ok () t → R s t
  post : ∀ s wst ans t, P s → C s (.postProcess ans) → s.statem.state = .reading →
    s.statem.readState = .postProcess wst → (postProcessRound m wst ans).run s = .ok () t → R s t
  write : ∀ s ans t, P s → s.statem.state = .writing → (writeRound m ans).run s = .ok () t → R s t

variable {lib : Libcrypto X509 Pkey} {m : Machine X509 Pkey Ans}
  {C : SSL X509 Pkey → Event Ans → Prop} {P : SSL X509 Pkey → Prop} {s t : SSL X509 Pkey}
  {es : List (Event Ans)}

/-- **One event** of a machine that was checked. -/
theorem Machine.Leads.step {R : SSL X509 Pkey → SSL X509 Pkey → Prop} (hm : m.Leads lib C P R)
    {e : Event Ans} (hs : s.live → P s) (hc : C s e) (h : Tlcp.step lib m s e = some t)
    (ht : t.live) : R s t := by
  cases step_some h with
  | clear sentShutdown => simp [sslClear, SSL.live] at ht
  | renegotiate => exact hm.quiet s true true _ _ (hs ht) ht fun _ => rfl
  | renegotiateCheck => exact hm.quiet s _ false true .swHelloReq (hs ht) ht id
  | handshakeData => exact hm.quiet s _ _ true _ (hs ht) ht id
  | fresh => exact hm.fresh s _ (settle_live ht)
  | again hfin => exact hm.again s _ (hs (.inr (.inr hfin))) hfin (settle_live ht)
  | recv mt body ans hst hrs => exact hm.recv s mt body ans _ (hs (.inl hst)) hc hst hrs (settle_live ht)
  | post wst ans hst hrs => exact hm.post s wst ans _ (hs (.inl hst)) hc hst hrs (settle_live ht)
  | write ans hst => exact hm.write s ans _ (hs (.inr (.inl hst))) hst (settle_live ht)
  | abort e => simp [SSL.fail, SSL.live] at ht

theorem step_recv {mt : MsgType} {body : Bytes} {ans : Ans}
    (h : Tlcp.step lib m s (.recv mt body ans) = some t) (ht : t.live) :
    s.statem.state = .reading ∧ s.statem.readState = .header ∧
      (readMessage lib m mt body ans).run s = .ok () t := by
  cases step_some h with
  | recv _ _ _ hst hrs => exact ⟨hst, hrs, settle_live ht⟩

theorem step_post {ans : Ans} (h : Tlcp.step lib m s (.postProcess ans) = some t) :
    s.statem.state = .reading ∧ ∃ wst, s.statem.readState = .postProcess wst := by
  cases step_some h with
  | post wst _ hst hrs => exact ⟨hst, wst, hrs⟩

theorem step_write {ans : Ans} (h : Tlcp.step lib m s (.write ans) = some t) (ht : t.live) :
    s.statem.state = .writing ∧ (writeRound m ans).run s = .ok () t := by
  cases step_some h with
  | write _ hst => exact ⟨hst, settle_live ht⟩

/-- A property that a machine keeps can be assumed when a further one is
checked. -/
theorem Machine.Leads.and {Q : SSL X509 Pkey → Prop}
    (hP : m.Leads lib C P fun _ => P) (hQ : m.Leads lib C (fun s => P s ∧ Q s) fun _ => Q) :
    m.Leads lib C (fun s => P s ∧ Q s) (fun _ t => P t ∧ Q t) where
  fresh s t h := ⟨hP.fresh s t h, hQ.fresh s t h⟩
  again s t hs hfin h := ⟨hP.again s t hs.1 hfin h, hQ.again s t hs hfin h⟩
  quiet s r p i q hs hl hr := ⟨hP.quiet s r p i q hs.1 hl hr, hQ.quiet s r p i q hs hl hr⟩
  recv s mt body ans t hs hc hst hrs h :=
    ⟨hP.recv s mt body ans t hs.1 hc hst hrs h, hQ.recv s mt body ans t hs hc hst hrs h⟩
  post s wst ans t hs hc hst hrs h :=
    ⟨hP.post s wst ans t hs.1 hc hst hrs h, hQ.post s wst ans t hs hc hst hrs h⟩
  write s ans t hs hst h := ⟨hP.write s ans t hs.1 hst h, hQ.write s ans t hs hst h⟩

/-- **Runs**: what a machine keeps holds of every live object that a run
leads to from a fresh one, if its events all meet the condition. -/
theorem Machine.Leads.run
    (hm : m.Leads lib C P fun _ => P)
    (hs : s.inBefore) (hc : Run.Meets (Tlcp.step lib m) C s es)
    (h : Run.run (Tlcp.step lib m) s es = some t) (ht : t.live) : P t := by
  have hinv : t.live → P t := by
    refine Run.invariant (P := fun s => s.live → P s)
      (fun _ _ _ hu hc hstep => hm.step hu hc hstep) ?_ hc h
    intro hlive
    simp [SSL.live, hs.2] at hlive
  exact hinv ht

/-- No condition on the events of a run. -/
def anyEvent (_ : SSL X509 Pkey) (_ : Event Ans) : Prop := True

theorem meets_anyEvent : Run.Meets (Tlcp.step lib m) anyEvent s es :=
  Run.meets_of_forall (fun _ _ => trivial) s es

/-! ## what handshake code keeps -/

section keeps

variable {lib : Libcrypto X509 Pkey} {P : SSL X509 Pkey → Prop}

/-- A property that does not look at the transcript. -/
def IgnoresTranscript (P : SSL X509 Pkey → Prop) : Prop :=
  ∀ s dg bf, P s → P { s with s3.handshakeDgst := dg, s3.handshakeBuffer := bf }

theorem keeps_ssl3FinishMac (hP : IgnoresTranscript P) {data : Bytes} :
    Keeps P (ssl3FinishMac data) := by
  refine Keeps.bind keeps_get fun s => ?_
  split
  · exact keeps_modify fun s h => hP s _ s.s3.handshakeBuffer h
  · exact keeps_modify fun s h => hP s s.s3.handshakeDgst _ h
  · exact keeps_throw

theorem keeps_ssl3DigestCachedRecords (hP : IgnoresTranscript P) {keep : Bool} :
    Keeps P (ssl3DigestCachedRecords keep) := by
  refine Keeps.bind (Keeps.bind keeps_get fun s => ?_)
    fun _ => Keeps.onlyIf (keeps_modify fun s h => hP s s.s3.handshakeDgst _ h)
  split
  · exact keeps_pure
  · exact Keeps.bind keeps_check fun _ => Keeps.bind keeps_check fun _ =>
      keeps_modify fun s h => hP s _ s.s3.handshakeBuffer h

theorem keeps_finalFinishMac (hP : IgnoresTranscript P) {label : String} :
    Keeps P (finalFinishMac lib label) :=
  Keeps.bind (keeps_ssl3DigestCachedRecords hP) fun _ => Keeps.bind keeps_get fun _ =>
    Keeps.bind keeps_orThrow fun _ => keeps_pure

end keeps

/-! ## the verify mode -/

section mode

variable {lib : Libcrypto X509 Pkey} {p : Nat → Prop}

/-- A property of the verify mode that each part of a machine keeps. -/
structure Machine.KeepsMode (m : Machine X509 Pkey Ans) (p : Nat → Prop) : Prop where
  read : ∀ mt, Keeps (fun s => p s.verifyMode) (m.readTransition mt)
  process : ∀ ans body, Keeps (fun s => p s.verifyMode) (m.processMessage ans body)
  post : ∀ ans wst, Keeps (fun s => p s.verifyMode) (m.postProcessMessage ans wst)
  write : ∀ ans, Keeps (fun s => p s.verifyMode) (m.writeTransition ans)
  pre : ∀ ans wst, Keeps (fun s => p s.verifyMode) (m.preWork ans wst)
  construct : ∀ ans, Keeps (fun s => p s.verifyMode) (m.constructMessage ans)
  postWork : ∀ ans, Keeps (fun s => p s.verifyMode) (m.postWork ans)

theorem ignoresTranscript_mode : IgnoresTranscript (fun s : SSL X509 Pkey => p s.verifyMode) :=
  fun _ _ _ h => h

theorem keeps_tlsSetupHandshake :
    Keeps (fun s : SSL X509 Pkey => p s.verifyMode) tlsSetupHandshake :=
  Keeps.bind (keeps_modify fun _ h => h) fun _ => Keeps.bind keeps_get fun _ =>
    Keeps.ite (Keeps.bind keeps_check fun _ => Keeps.onlyIf (keeps_modify fun _ h => h))
      (keeps_modify fun _ h => h)

theorem keeps_tlsGetMessageBody {mt : MsgType} {body : Bytes} :
    Keeps (fun s : SSL X509 Pkey => p s.verifyMode) (tlsGetMessageBody lib mt body) :=
  Keeps.bind (Keeps.onlyIf (Keeps.bind keeps_get fun _ =>
    Keeps.bind (keeps_finalFinishMac ignoresTranscript_mode) fun _ => keeps_modify fun _ h => h))
    fun _ => Keeps.onlyIf (keeps_ssl3FinishMac ignoresTranscript_mode)

theorem settle_keeps {x : Handshake X509 Pkey Unit}
    (hx : Keeps (fun s => p s.verifyMode) x) (hs : p s.verifyMode) :
    p (settle (x.run s)).verifyMode := by
  have h := hx.kept s hs
  cases hr : x.run s with
  | ok u t =>
    rw [hr] at h
    exact h
  | error e t =>
    rw [hr] at h
    exact h

variable {m : Machine X509 Pkey Ans} (hm : m.KeepsMode p)
include hm

theorem Machine.KeepsMode.preWorkRound (wst : Work) (ans : Ans) :
    Keeps (fun s => p s.verifyMode) (Tlcp.preWorkRound m wst ans) := by
  refine Keeps.bind (hm.pre ans wst) fun wst' => ?_
  split
  · exact keeps_modify fun _ h => h
  · refine Keeps.bind (hm.construct ans) fun a => ?_
    refine Keeps.bind (Keeps.onlyIf (keeps_ssl3FinishMac ignoresTranscript_mode)) fun _ => ?_
    refine Keeps.bind (keeps_modify fun _ h => h) fun _ => ?_
    exact Keeps.bind (hm.postWork ans) fun _ => keeps_modify fun _ h => h
  · exact keeps_modify fun _ h => h

theorem Machine.KeepsMode.step {e : Event Ans}
    (hs : p s.verifyMode) (h : Tlcp.step lib m s e = some t) : p t.verifyMode := by
  cases step_some h with
  | clear sentShutdown => exact hs
  | renegotiate => exact hs
  | renegotiateCheck => exact hs
  | handshakeData => exact hs
  | fresh =>
    refine settle_keeps (Keeps.bind (keeps_modify fun _ h => h) fun _ => ?_) hs
    refine Keeps.bind (keeps_modify fun _ h => h) fun _ => ?_
    exact Keeps.bind keeps_tlsSetupHandshake fun _ => keeps_modify fun _ h => h
  | again =>
    refine settle_keeps (Keeps.bind (keeps_modify fun _ h => h) fun _ => ?_) hs
    refine Keeps.bind keeps_get fun _ => ?_
    exact Keeps.bind (Keeps.onlyIf keeps_tlsSetupHandshake) fun _ => keeps_modify fun _ h => h
  | recv mt body ans =>
    refine settle_keeps (Keeps.bind (hm.read mt) fun _ => Keeps.bind keeps_get fun _ => ?_) hs
    refine Keeps.bind keeps_check fun _ => Keeps.bind keeps_tlsGetMessageBody fun _ => ?_
    refine Keeps.bind (hm.process ans body) fun ret => ?_
    refine Keeps.bind (keeps_modify fun _ h => h) fun _ => keeps_modify fun _ h => ?_
    cases ret <;> exact h
  | post wst ans =>
    refine settle_keeps (Keeps.bind (hm.post ans _) fun wst => keeps_modify fun _ h => ?_) hs
    cases wst <;> exact h
  | write ans =>
    refine settle_keeps (Keeps.bind keeps_get fun s => ?_) hs
    split
    · exact hm.preWorkRound _ ans
    · refine Keeps.bind (hm.write ans) fun tran => ?_
      cases tran with
      | finished => exact keeps_modify fun _ h => h
      | cont => exact hm.preWorkRound _ ans
  | abort e => exact hs

end mode

end Tlcp
