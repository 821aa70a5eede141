import Tlcp.Ntls.Server

/-!
# Tlcp.Ntls.Driver

`state_machine_ntls` and its two sub-machines, exit by exit.

`Tlcp.Ntls.Statem` cuts the driver into events and lets a failed event end in
the error flow.  Here the flow is assigned where `ntls_statem.c` assigns it,
so that it can be asked which exits leave it in `MSG_FLOW_ERROR` and which of
them restore `in_handshake`.

The driver is written over an `Endpoint`, the functions that it calls: those
of the client or of the server, the record layer, the buffers.  A nested call
says apart what it returned and whether it raised a fatal alert on the way,
because in the source these are two things: `SSLfatal` moves the flow, and the
return value tells the driver where to go on.  `Machine.endpoint` builds one
from the functions of a modelled endpoint.
-/

namespace Tlcp.Driver

open Octets

variable {X509 Pkey Ω Ans α : Type}
variable {fuel : Nat} {r : SubState} {v : Option Unit}

/-! ## the connection and nested calls -/

/-- `READ_STATE_*` -/
inductive ReadPhase where
  | header
  | body
  | postProcess
  deriving DecidableEq, Repr

/-- `WRITE_STATE_*` -/
inductive WritePhase where
  | transition
  | preWork
  | send
  | postWork
  deriving DecidableEq, Repr

/-- Why a handshake must not go on. -/
inductive Incident where
  /-- a message of the peer was refused -/
  | rejected
  /-- a message could not be constructed -/
  | constructFailed
  /-- a transition or a work function of the write machine failed -/
  | workFailed
  /-- `SSLfatal` was called -/
  | fatal (e : Fatal)
  deriving DecidableEq, Repr

/-- A connection object with the fields of `OSSL_STATEM` that only the driver
writes; the flow is `ssl.statem.state`.  `world` is all that the record layer
and the callbacks depend on, and `incidents` a history for the statements. -/
structure Conn (X509 Pkey Ω : Type) where
  ssl : SSL X509 Pkey
  world : Ω
  inHandshake : Int := 0
  readState : ReadPhase := .header
  readStateWork : Work := .moreA
  readStateFirstInit : Bool := false
  firstPacket : Bool := false
  writeState : WritePhase := .transition
  writeStateWork : Work := .moreA
  /-- `TLS1_FLAGS_STATELESS` -/
  stateless : Bool := false
  /-- `s->method` is not `NULL` -/
  hasMethod : Bool := true
  incidents : List Incident := []

/-- What a nested call did: the alert it raised, the value it returned, where
`none` is its error value, and the object it left. -/
structure Returned (X509 Pkey Ω α : Type) where
  raised : Option Fatal
  value : Option α
  ssl : SSL X509 Pkey
  world : Ω

/-- A function that the driver calls. -/
abbrev Nested (X509 Pkey Ω α : Type) := SSL X509 Pkey → Ω → Returned X509 Pkey Ω α

/-- The functions that the driver calls. -/
structure Endpoint (X509 Pkey Ω : Type) where
  /-- `tls_get_message_header_ntls`: the type and the size of the next message -/
  getMessageHeader : Nested X509 Pkey Ω (MsgType × Nat)
  readTransition : MsgType → Nested X509 Pkey Ω Unit
  maxMessageSize : SSL X509 Pkey → Nat
  growInitBuf : Nat → Nested X509 Pkey Ω Unit
  getMessageBody : Nested X509 Pkey Ω Bytes
  processMessage : Bytes → Nested X509 Pkey Ω MsgProcess
  postProcessMessage : Work → Nested X509 Pkey Ω Work
  writeTransition : Nested X509 Pkey Ω WriteTran
  preWork : Work → Nested X509 Pkey Ω Work
  /-- the type of the message to construct, or `none` for `SSL3_MT_DUMMY` -/
  getConstructMessage : Nested X509 Pkey Ω (Option MsgType)
  /-- `WPACKET_init` and `ssl_set_handshake_header` -/
  openPacket : MsgType → Nested X509 Pkey Ω Unit
  confunc : Nested X509 Pkey Ω Unit
  /-- `ssl_close_construct_packet` and `WPACKET_finish` -/
  closePacket : MsgType → Nested X509 Pkey Ω Unit
  doWrite : Nested X509 Pkey Ω Unit
  postWork : Work → Nested X509 Pkey Ω Work
  /-- what `SSL_clear` does before it looks at `s->renegotiate` -/
  clearSession : SSL X509 Pkey → SSL X509 Pkey
  /-- `SSL_clear` after it reset the state machine, with the method's own part -/
  methodClear : Nested X509 Pkey Ω Unit
  /-- the version passes `ssl_security` and the buffers can be had -/
  setupBuffers : Nested X509 Pkey Ω Unit
  initWbioBuffer : Nested X509 Pkey Ω Unit
  setupHandshake : Nested X509 Pkey Ω Unit

variable (E : Endpoint X509 Pkey Ω) (c : Conn X509 Pkey Ω)

/-- The flow is `MSG_FLOW_ERROR`. -/
def Conn.inError : Bool := match c.ssl.statem.state with
  | .error _ => true
  | _ => false

def Conn.setFlow (flow : MsgFlow) : Conn X509 Pkey Ω :=
  { c with ssl.statem.state := flow }

def Conn.note (i : Incident) : Conn X509 Pkey Ω :=
  { c with incidents := c.incidents ++ [i] }

/-- `ossl_statem_fatal_ntls`: the first error of a connection is the one that
stays. -/
def Conn.raise (e : Fatal) : Conn X509 Pkey Ω :=
  if c.ssl.statem.inInit ∧ c.inError then c.note (.fatal e)
  else { c with ssl := c.ssl.fail e }.note (.fatal e)

/-- `check_fatal`, in a build without assertions. -/
def Conn.checkFatal : Conn X509 Pkey Ω :=
  if c.ssl.statem.inInit ∧ c.inError then c else c.raise ⟨.internalError, .missingFatal⟩

/-- The object after a nested call.  Nested code writes the flow through
`SSLfatal` only. -/
def Conn.after (r : Returned X509 Pkey Ω α) : Conn X509 Pkey Ω :=
  let c := { c with ssl := { r.ssl with statem.state := c.ssl.statem.state }, world := r.world }
  match r.raised with
  | none => c
  | some e => c.raise e

/-- A nested call. -/
def Conn.call (f : Nested X509 Pkey Ω α) : Option α × Conn X509 Pkey Ω :=
  ((f c.ssl c.world).value, c.after (f c.ssl c.world))

/-! ## the read machine -/

/-- `SUB_STATE_RETURN` -/
inductive SubState where
  | error
  | finished
  | endHandshake
  deriving DecidableEq, Repr

/-- `READ_STATE_BODY`; a round without a return value goes on. -/
def readBody : Option SubState × Conn X509 Pkey Ω :=
  match c.call E.getMessageBody with
  | (none, c) => (some .error, c)
  | (some body, c) =>
    match { c with firstPacket := false }.call (E.processMessage body) with
    | (none, c) => (some .error, (c.note .rejected).checkFatal)
    | (some .finishedReading, c) => (some .finished, c)
    | (some .continueProcessing, c) =>
      (none, { c with readState := .postProcess, readStateWork := .moreA })
    | (some .continueReading, c) => (none, { c with readState := .header })

/-- The buffer for the message is made and the body read, once the header was
accepted. -/
def readSized (size : Nat) (c : Conn X509 Pkey Ω) : Option SubState × Conn X509 Pkey Ω :=
  if 0 < size then
    match c.call (E.growInitBuf (size + 4)) with
    | (none, c) => (some .error, c.raise ⟨.internalError, .bufLib⟩)
    | (some _, c) => readBody E { c with readState := .body }
  else readBody E { c with readState := .body }

/-- `READ_STATE_HEADER` -/
def readHeader : Option SubState × Conn X509 Pkey Ω :=
  match c.call E.getMessageHeader with
  | (none, c) => (some .error, c)
  | (some (mt, size), c) =>
    match c.call (E.readTransition mt) with
    | (none, c) => (some .error, c.note .rejected)
    | (some _, c) =>
      if E.maxMessageSize c.ssl < size then
        (some .error, (c.note .rejected).raise ⟨.illegalParameter, .excessiveMessageSize⟩)
      else readSized E size c

/-- The switch on what a work function returned: `failed` is what an error of
it means, `stop` the return value behind `WORK_FINISHED_STOP`, and `cont` what
follows `WORK_FINISHED_CONTINUE`. -/
def workSwitch (failed : Incident) (stop : SubState)
    (cont : Conn X509 Pkey Ω → Option SubState × Conn X509 Pkey Ω) :
    Work → Conn X509 Pkey Ω → Option SubState × Conn X509 Pkey Ω
  | .error, c => (some .error, (c.note failed).checkFatal)
  | .finishedContinue, c => cont c
  | .finishedStop, c => (some stop, c)
  | _, c => (some .error, c)

/-- `READ_STATE_POST_PROCESS` -/
def readPostProcess : Option SubState × Conn X509 Pkey Ω :=
  match c.call (E.postProcessMessage c.readStateWork) with
  | (wst, c) =>
    workSwitch .rejected .finished (fun c => (none, { c with readState := .header }))
      (wst.getD .error) { c with readStateWork := wst.getD .error }

/-- One round of the loop of `read_state_machine_ntls`. -/
def readRound : Option SubState × Conn X509 Pkey Ω :=
  match c.readState with
  | .header => readHeader E c
  | .body => readBody E c
  | .postProcess => readPostProcess E c

/-- Repeat a round until it returns. -/
def loop {β : Type} (round : Conn X509 Pkey Ω → Option β × Conn X509 Pkey Ω) :
    Nat → Conn X509 Pkey Ω → Option (β × Conn X509 Pkey Ω)
  | 0, _ => none
  | fuel + 1, c =>
    match round c with
    | (none, c) => loop round fuel c
    | (some r, c) => some (r, c)

/-- `read_state_machine_ntls` -/
def readStateMachine (fuel : Nat) (c : Conn X509 Pkey Ω) : Option (SubState × Conn X509 Pkey Ω) :=
  loop (readRound E) fuel
    (if c.readStateFirstInit then { c with firstPacket := true, readStateFirstInit := false }
      else c)

/-! ## the write machine -/

/-- `WRITE_STATE_TRANSITION` -/
def writeTransition : Option SubState × Conn X509 Pkey Ω :=
  match c.call E.writeTransition with
  | (none, c) => (some .error, (c.note .workFailed).checkFatal)
  | (some .finished, c) => (some .finished, c)
  | (some .cont, c) => (none, { c with writeState := .preWork, writeStateWork := .moreA })

/-- `WRITE_STATE_POST_WORK` -/
def writePostWork : Option SubState × Conn X509 Pkey Ω :=
  match c.call (E.postWork c.writeStateWork) with
  | (wst, c) =>
    workSwitch .workFailed .endHandshake (fun c => (none, { c with writeState := .transition }))
      (wst.getD .error) { c with writeStateWork := wst.getD .error }

/-- `WRITE_STATE_SEND` -/
def writeSend : Option SubState × Conn X509 Pkey Ω :=
  match c.call E.doWrite with
  | (none, c) => (some .error, c)
  | (some _, c) => writePostWork E { c with writeState := .postWork, writeStateWork := .moreA }

/-- The packet of a message: opened, filled and closed. -/
def writePacket (mt : MsgType) (c : Conn X509 Pkey Ω) : Option SubState × Conn X509 Pkey Ω :=
  match c.call (E.openPacket mt) with
  | (none, c) =>
    (some .error, (c.note .constructFailed).raise ⟨.internalError, .internalError⟩)
  | (some _, c) =>
    match c.call E.confunc with
    | (none, c) => (some .error, (c.note .constructFailed).checkFatal)
    | (some _, c) =>
      match c.call (E.closePacket mt) with
      | (none, c) =>
        (some .error, (c.note .constructFailed).raise ⟨.internalError, .internalError⟩)
      | (some _, c) => writeSend E c

/-- The message that the pre-work was for. -/
def writeConstruct : Option SubState × Conn X509 Pkey Ω :=
  match c.call E.getConstructMessage with
  | (none, c) => (some .error, c.note .constructFailed)
  | (some none, c) => (none, { c with writeState := .postWork, writeStateWork := .moreA })
  | (some (some mt), c) => writePacket E mt c

/-- `WRITE_STATE_PRE_WORK` -/
def writePreWork : Option SubState × Conn X509 Pkey Ω :=
  match c.call (E.preWork c.writeStateWork) with
  | (wst, c) =>
    workSwitch .workFailed .endHandshake
      (fun c => writeConstruct E { c with writeState := .send })
      (wst.getD .error) { c with writeStateWork := wst.getD .error }

/-- One round of the loop of `write_state_machine_ntls`. -/
def writeRound : Option SubState × Conn X509 Pkey Ω :=
  match c.writeState with
  | .transition => writeTransition E c
  | .preWork => writePreWork E c
  | .send => writeSend E c
  | .postWork => writePostWork E c

/-- `write_state_machine_ntls` -/
def writeStateMachine (fuel : Nat) (c : Conn X509 Pkey Ω) : Option (SubState × Conn X509 Pkey Ω) :=
  loop (writeRound E) fuel c

/-! ## the outer machine -/

/-- The object when `SSL_clear` has reset its state machine. -/
def Conn.reset : Conn X509 Pkey Ω := { c with
    ssl := { E.clearSession c.ssl with
      statem.state := .uninited
      statem.handState := .before
      statem.inInit := true
      statem.noCertVerify := false } }

/-- `SSL_clear` -/
def sslClear : Option Unit × Conn X509 Pkey Ω :=
  if c.hasMethod = false then (none, c)
  else if c.ssl.renegotiate then (none, { c with ssl := E.clearSession c.ssl })
  else (c.reset E).call E.methodClear

/-- The head of `state_machine_ntls` clears the object, unless a handshake is
under way or the object is stateless. -/
def Conn.clearsFirst : Prop :=
  (c.ssl.statem.inInit = false ∨ c.ssl.inBefore) ∧ c.stateless = false

instance : Decidable c.clearsFirst := inferInstanceAs (Decidable (_ ∧ _))

/-- The flow of a handshake that starts is to write. -/
def startWriting : Conn X509 Pkey Ω :=
  { c.setFlow .writing with writeState := .transition }

/-- The end of the initialisation of a handshake; `none` is a jump to
`end`. -/
def initialiseHandshake : Option Unit × Conn X509 Pkey Ω :=
  if c.ssl.inBefore ∨ c.ssl.renegotiate then
    match c.call E.setupHandshake with
    | (none, c) => (none, c)
    | (some _, c) =>
      (some (), startWriting
        { c with readStateFirstInit := c.readStateFirstInit || c.ssl.isFirstHandshake })
  else (some (), startWriting c)

/-- The fields that the initialisation of a handshake sets first. -/
def Conn.begin (server : Bool) : Conn X509 Pkey Ω :=
  if c.ssl.statem.state = .uninited then
    { c with
      ssl.statem.handState := .before
      ssl.statem.requestState := .before
      ssl.server := server }
  else { c with ssl.server := server }

/-- The initialisation of a handshake. -/
def initialise (server : Bool) (c : Conn X509 Pkey Ω) : Option Unit × Conn X509 Pkey Ω :=
  match (c.begin server).call E.setupBuffers with
  | (none, c) => (none, c.raise ⟨.noAlert, .internalError⟩)
  | (some _, c) =>
    match { c with ssl.s3.changeCipherSpec := false }.call E.initWbioBuffer with
    | (none, c) => (none, c.raise ⟨.noAlert, .internalError⟩)
    | (some _, c) => initialiseHandshake E c

/-- One round of the loop of `state_machine_ntls`; it returns the value of
the call. -/
def flowRound (fuel : Nat) (c : Conn X509 Pkey Ω) : Option (Option Int × Conn X509 Pkey Ω) :=
  match c.ssl.statem.state with
  | .finished => some (some 1, c)
  | .reading =>
    (readStateMachine E fuel c).map fun
      | (.finished, c) => (none, startWriting c)
      | (_, c) => (some (-1), c)
  | .writing =>
    (writeStateMachine E fuel c).map fun
      | (.finished, c) => (none, { c.setFlow .reading with readState := .header })
      | (.endHandshake, c) => (none, c.setFlow .finished)
      | (.error, c) => (some (-1), c)
  | _ => some (some (-1), c.checkFatal)

/-- The loop of `state_machine_ntls`. -/
def flowLoop (inner : Nat) : Nat → Conn X509 Pkey Ω → Option (Int × Conn X509 Pkey Ω)
  | 0, _ => none
  | fuel + 1, c =>
    match flowRound E inner c with
    | none => none
    | some (none, c) => flowLoop inner fuel c
    | some (some ret, c) => some (ret, c)

/-- The call counts itself in. -/
def Conn.enter : Conn X509 Pkey Ω :=
  { c with inHandshake := c.inHandshake + 1 }

/-- `end:` -/
def Conn.leave : Conn X509 Pkey Ω :=
  { c with inHandshake := c.inHandshake - 1 }

/-- `state_machine_ntls` behind the clearing of the object. -/
def stateMachineFrom (fuel : Nat) (server : Bool) (c : Conn X509 Pkey Ω) :
    Option (Int × Conn X509 Pkey Ω) :=
  if c.ssl.statem.state = .uninited ∨ c.ssl.statem.state = .finished then
    match initialise E server c with
    | (none, c) => some (-1, c.leave)
    | (some _, c) => (flowLoop E fuel fuel c).map fun (ret, c) => (ret, c.leave)
  else (flowLoop E fuel fuel c).map fun (ret, c) => (ret, c.leave)

/-- `state_machine_ntls`.  The return behind a refused `SSL_clear` does not
pass `end`. -/
def stateMachine (fuel : Nat) (server : Bool) (c : Conn X509 Pkey Ω) :
    Option (Int × Conn X509 Pkey Ω) :=
  if c.inError then some (-1, c)
  else if c.clearsFirst then
    match sslClear E c.enter with
    | (none, c) => some (-1, c)
    | (some _, c) => stateMachineFrom E fuel server c
  else stateMachineFrom E fuel server c.enter

/-! ## what nested calls are held to -/

/-- A call that raised an alert reports an error. -/
def Nested.Honest (f : Nested X509 Pkey Ω α) : Prop :=
  ∀ s w, (f s w).value.isSome → (f s w).raised = none

/-- A call that reports an error raised an alert. -/
def Nested.Loud (f : Nested X509 Pkey Ω α) : Prop :=
  ∀ s w, (f s w).value = none → (f s w).raised.isSome

/-- What `ntls_statem.c` expects of the functions it calls: a fatal alert is
followed by the error value, and where it has no `check_fatal`, an error value
("already called") comes after a fatal alert. -/
structure Endpoint.Disciplined (E : Endpoint X509 Pkey Ω) : Prop where
  getMessageHeader : Nested.Honest E.getMessageHeader
  readTransition : ∀ mt, Nested.Honest (E.readTransition mt)
  growInitBuf : ∀ n, Nested.Honest (E.growInitBuf n)
  getMessageBody : Nested.Honest E.getMessageBody
  processMessage : ∀ body, Nested.Honest (E.processMessage body)
  postProcessMessage : ∀ wst, Nested.Honest (E.postProcessMessage wst)
  writeTransition : Nested.Honest E.writeTransition
  preWork : ∀ wst, Nested.Honest (E.preWork wst)
  getConstructMessage : Nested.Honest E.getConstructMessage
  openPacket : ∀ mt, Nested.Honest (E.openPacket mt)
  confunc : Nested.Honest E.confunc
  closePacket : ∀ mt, Nested.Honest (E.closePacket mt)
  doWrite : Nested.Honest E.doWrite
  postWork : ∀ wst, Nested.Honest (E.postWork wst)
  methodClear : Nested.Honest E.methodClear
  setupBuffers : Nested.Honest E.setupBuffers
  initWbioBuffer : Nested.Honest E.initWbioBuffer
  setupHandshake : Nested.Honest E.setupHandshake
  readTransition_loud : ∀ mt, Nested.Loud (E.readTransition mt)
  getConstructMessage_loud : Nested.Loud E.getConstructMessage

/-! ## the modelled endpoints -/

/-- Handshake code as a nested call: an error is raised where it is returned. -/
def ofHandshake (x : Handshake X509 Pkey α) : Nested X509 Pkey Ω α := fun s w =>
  match x.run s with
  | .ok a s => ⟨none, some a, s, w⟩
  | .error e s => ⟨some e, none, s, w⟩

theorem ofHandshake_honest (x : Handshake X509 Pkey α) :
    Nested.Honest (ofHandshake x : Nested X509 Pkey Ω α) := by
  intro s w
  unfold ofHandshake
  cases x.run s with
  | ok a s => exact fun _ => rfl
  | error e s => exact nofun

theorem ofHandshake_loud (x : Handshake X509 Pkey α) :
    Nested.Loud (ofHandshake x : Nested X509 Pkey Ω α) := by
  intro s w
  unfold ofHandshake
  cases x.run s with
  | ok a s => exact nofun
  | error e s => exact fun _ => rfl

/-- Handshake code that is told an answer from outside. -/
def asking (ask : Ω → Ans × Ω) (x : Ans → Handshake X509 Pkey α) : Nested X509 Pkey Ω α :=
  fun s w => ofHandshake (x (ask w).1) s (ask w).2

theorem asking_honest (ask : Ω → Ans × Ω) (x : Ans → Handshake X509 Pkey α) :
    Nested.Honest (asking ask x) :=
  fun s w => ofHandshake_honest (x (ask w).1) s (ask w).2

/-- A client or a server under the driver.  The record layer and the buffers
are those of `base`, and `ask` says what the callbacks answer. -/
def Machine.endpoint (m : Machine X509 Pkey Ans) (ask : Ω → Ans × Ω)
    (base : Endpoint X509 Pkey Ω) : Endpoint X509 Pkey Ω :=
  { base with
    readTransition := fun mt => ofHandshake (m.readTransition mt)
    maxMessageSize := m.maxMessageSize
    processMessage := fun body => asking ask fun ans => m.processMessage ans body
    postProcessMessage := fun wst => asking ask fun ans => m.postProcessMessage ans wst
    writeTransition := asking ask m.writeTransition
    preWork := fun wst => asking ask fun ans => m.preWork ans wst
    confunc := asking ask fun ans => discard (m.constructMessage ans)
    postWork := fun _ => asking ask fun ans => m.postWork ans *> pure Work.finishedContinue
    setupHandshake := ofHandshake tlsSetupHandshake }

/-- The modelled endpoints keep to what the driver expects. -/
theorem Machine.endpoint_disciplined (m : Machine X509 Pkey Ans) (ask : Ω → Ans × Ω)
    {base : Endpoint X509 Pkey Ω} (hbase : base.Disciplined) :
    (Machine.endpoint m ask base).Disciplined :=
  { hbase with
    readTransition := fun _ => ofHandshake_honest _, processMessage := fun _ => asking_honest ask _,
    postProcessMessage := fun _ => asking_honest ask _, writeTransition := asking_honest ask _,
    preWork := fun _ => asking_honest ask _, confunc := asking_honest ask _,
    postWork := fun _ => asking_honest ask _, setupHandshake := ofHandshake_honest _,
    readTransition_loud := fun _ => ofHandshake_loud _ }

/-! ## the effect of a round -/

/-- Nothing went wrong between two points of a call. -/
structure Smooth (c d : Conn X509 Pkey Ω) : Prop where
  inHandshake : d.inHandshake = c.inHandshake
  incidents : d.incidents = c.incidents

/-- If something went wrong, then the flow is `MSG_FLOW_ERROR`. -/
structure Settled (c d : Conn X509 Pkey Ω) : Prop where
  inHandshake : d.inHandshake = c.inHandshake
  final : d.incidents = c.incidents ∨ d.inError = true

variable {c} {d e : Conn X509 Pkey Ω} {f : Nested X509 Pkey Ω α} {a : α}

theorem Smooth.settled (h : Smooth c d) : Settled c d := ⟨h.inHandshake, .inl h.incidents⟩

theorem Smooth.trans (h : Smooth c d) (h' : Smooth d e) : Smooth c e :=
  ⟨h'.inHandshake.trans h.inHandshake, h'.incidents.trans h.incidents⟩

theorem Settled.of_smooth (h : Smooth c d) (h' : Settled d e) : Settled c e :=
  ⟨h'.inHandshake.trans h.inHandshake, h'.final.imp_left fun hi => hi.trans h.incidents⟩

@[simp] theorem raise_inHandshake (x : Fatal) : (c.raise x).inHandshake = c.inHandshake := by
  unfold Conn.raise
  split <;> rfl

@[simp] theorem raise_inError (x : Fatal) : (c.raise x).inError = true := by
  unfold Conn.raise
  split
  · next h => exact h.2
  · rfl

@[simp] theorem checkFatal_inHandshake : c.checkFatal.inHandshake = c.inHandshake := by
  unfold Conn.checkFatal
  split <;> simp

@[simp] theorem checkFatal_inError : c.checkFatal.inError = true := by
  unfold Conn.checkFatal
  split
  · next h => exact h.2
  · exact raise_inError _

theorem after_inHandshake (r : Returned X509 Pkey Ω α) :
    (c.after r).inHandshake = c.inHandshake := by
  unfold Conn.after
  cases r.raised with
  | none => rfl
  | some x => exact raise_inHandshake x

/-- A nested call that succeeded. -/
theorem call_some (hf : Nested.Honest f) (h : c.call f = (some a, d)) : Smooth c d := by
  injection h with hv hd
  have hquiet : (f c.ssl c.world).raised = none := hf _ _ (by rw [hv]; rfl)
  subst hd
  refine ⟨after_inHandshake _, ?_⟩
  rw [Conn.after, hquiet]

/-- A nested call, whatever it returned. -/
theorem call_settled {v : Option α} (h : c.call f = (v, d)) : Settled c d := by
  injection h with hv hd
  subst hd
  refine ⟨after_inHandshake _, ?_⟩
  rw [Conn.after]
  cases (f c.ssl c.world).raised with
  | none => exact .inl rfl
  | some x => exact .inr (raise_inError x)

/-- A nested call that failed and is known to have raised an alert. -/
theorem call_none (hf : Nested.Loud f) (h : c.call f = (none, d)) : d.inError = true := by
  injection h with hv hd
  obtain ⟨x, hx⟩ := Option.isSome_iff_exists.mp (hf _ _ hv)
  rw [← hd, Conn.after, hx]
  exact raise_inError x

/-- A round that gives an error has settled; otherwise nothing went wrong. -/
def Sound (c : Conn X509 Pkey Ω) (r : Option SubState × Conn X509 Pkey Ω) : Prop :=
  match r.1 with
  | some .error => Settled c r.2
  | _ => Smooth c r.2

theorem Sound.after {r : Option SubState × Conn X509 Pkey Ω} (hr : Sound d r)
    (h : Smooth c d) : Sound c r := by
  unfold Sound at *
  split at hr
  · exact .of_smooth h hr
  · exact h.trans hr

/-- A failed call after which the driver enters the error flow itself. -/
theorem Settled.raised (h : Settled c d) {e : Conn X509 Pkey Ω}
    (hcount : e.inHandshake = d.inHandshake) (herror : e.inError = true) : Settled c e :=
  ⟨hcount.trans h.inHandshake, .inr herror⟩

theorem workSwitch_sound {failed : Incident} {stop : SubState} {v : Option Work}
    {cont : Conn X509 Pkey Ω → Option SubState × Conn X509 Pkey Ω}
    (hsettled : Settled c d) (hsmooth : v.isSome → Smooth c d) (hstop : stop ≠ .error)
    (hcont : Sound d (cont d)) : Sound c (workSwitch failed stop cont (v.getD .error) d) := by
  have herror : Sound c (workSwitch failed stop cont .error d) :=
    hsettled.raised checkFatal_inHandshake checkFatal_inError
  cases v with
  | none => exact herror
  | some wst =>
    have hd := hsmooth rfl
    cases wst with
    | error => exact herror
    | finishedStop =>
      cases stop with
      | error => contradiction
      | finished => exact hd
      | endHandshake => exact hd
    | finishedContinue => exact hcont.after hd
    | moreA => exact hd.settled
    | moreB => exact hd.settled
    | moreC => exact hd.settled

section rounds

variable {E} (hE : E.Disciplined)
include hE

theorem readBody_sound (c : Conn X509 Pkey Ω) : Sound c (readBody E c) := by
  unfold readBody
  split
  · next h => exact call_settled h
  · next body d hbody =>
    have hread := call_some hE.getMessageBody hbody
    have hd : Smooth c { d with firstPacket := false } := ⟨hread.inHandshake, hread.incidents⟩
    refine Sound.after ?_ hd
    split
    · next h => exact (call_settled h).raised checkFatal_inHandshake checkFatal_inError
    all_goals
      next h =>
      have hcall := call_some (hE.processMessage body) h
      exact ⟨hcall.inHandshake, hcall.incidents⟩

theorem readSized_sound (size : Nat) (c : Conn X509 Pkey Ω) : Sound c (readSized E size c) := by
  unfold readSized
  split
  · split
    · next h => exact (call_settled h).raised (raise_inHandshake _) (raise_inError _)
    · next h =>
      have hcall := call_some (hE.growInitBuf _) h
      exact (readBody_sound hE _).after ⟨hcall.inHandshake, hcall.incidents⟩
  · exact (readBody_sound hE _).after ⟨rfl, rfl⟩

theorem readHeader_sound (c : Conn X509 Pkey Ω) : Sound c (readHeader E c) := by
  unfold readHeader
  split
  · next h => exact call_settled h
  · next mt size d hheader =>
    refine Sound.after ?_ (call_some hE.getMessageHeader hheader)
    split
    · next h =>
      have herror := call_none (hE.readTransition_loud mt) h
      exact (call_settled h).raised rfl herror
    · next h =>
      refine Sound.after ?_ (call_some (hE.readTransition mt) h)
      split
      · exact ⟨raise_inHandshake _, .inr (raise_inError _)⟩
      · exact readSized_sound hE size _

theorem readPostProcess_sound (c : Conn X509 Pkey Ω) : Sound c (readPostProcess E c) := by
  unfold readPostProcess
  split
  next v d h =>
  have hcall := call_settled h
  refine workSwitch_sound ⟨hcall.inHandshake, hcall.final⟩ ?_ (by decide) ⟨rfl, rfl⟩
  intro hv
  obtain ⟨wst, rfl⟩ := Option.isSome_iff_exists.mp hv
  have hsmooth := call_some (hE.postProcessMessage _) h
  exact ⟨hsmooth.inHandshake, hsmooth.incidents⟩

theorem readRound_sound (c : Conn X509 Pkey Ω) : Sound c (readRound E c) := by
  unfold readRound
  split
  · exact readHeader_sound hE c
  · exact readBody_sound hE c
  · exact readPostProcess_sound hE c

theorem writeTransition_sound (c : Conn X509 Pkey Ω) : Sound c (writeTransition E c) := by
  unfold writeTransition
  split
  · next h => exact (call_settled h).raised checkFatal_inHandshake checkFatal_inError
  all_goals
    next h =>
    have hcall := call_some hE.writeTransition h
    exact ⟨hcall.inHandshake, hcall.incidents⟩

theorem writePostWork_sound (c : Conn X509 Pkey Ω) : Sound c (writePostWork E c) := by
  unfold writePostWork
  split
  next v d h =>
  have hcall := call_settled h
  refine workSwitch_sound ⟨hcall.inHandshake, hcall.final⟩ ?_ (by decide) ⟨rfl, rfl⟩
  intro hv
  obtain ⟨wst, rfl⟩ := Option.isSome_iff_exists.mp hv
  have hsmooth := call_some (hE.postWork _) h
  exact ⟨hsmooth.inHandshake, hsmooth.incidents⟩

theorem writeSend_sound (c : Conn X509 Pkey Ω) : Sound c (writeSend E c) := by
  unfold writeSend
  split
  · next h => exact call_settled h
  · next h =>
    have hcall := call_some hE.doWrite h
    exact (writePostWork_sound hE _).after ⟨hcall.inHandshake, hcall.incidents⟩

theorem writePacket_sound (mt : MsgType) (c : Conn X509 Pkey Ω) :
    Sound c (writePacket E mt c) := by
  unfold writePacket
  split
  · next h => exact (call_settled h).raised (raise_inHandshake _) (raise_inError _)
  · next hopen =>
    refine Sound.after ?_ (call_some (hE.openPacket mt) hopen)
    split
    · next h => exact (call_settled h).raised checkFatal_inHandshake checkFatal_inError
    · next hfill =>
      refine Sound.after ?_ (call_some hE.confunc hfill)
      split
      · next h => exact (call_settled h).raised (raise_inHandshake _) (raise_inError _)
      · next hclose => exact (writeSend_sound hE _).after (call_some (hE.closePacket mt) hclose)

theorem writeConstruct_sound (c : Conn X509 Pkey Ω) : Sound c (writeConstruct E c) := by
  unfold writeConstruct
  split
  · next h =>
    have herror := call_none hE.getConstructMessage_loud h
    exact (call_settled h).raised rfl herror
  · next h =>
    have hcall := call_some hE.getConstructMessage h
    exact ⟨hcall.inHandshake, hcall.incidents⟩
  · next mt d h => exact (writePacket_sound hE mt d).after (call_some hE.getConstructMessage h)

theorem writePreWork_sound (c : Conn X509 Pkey Ω) : Sound c (writePreWork E c) := by
  unfold writePreWork
  split
  next v d h =>
  have hcall := call_settled h
  refine workSwitch_sound ⟨hcall.inHandshake, hcall.final⟩ ?_ (by decide)
    ((writeConstruct_sound hE _).after ⟨rfl, rfl⟩)
  intro hv
  obtain ⟨wst, rfl⟩ := Option.isSome_iff_exists.mp hv
  have hsmooth := call_some (hE.preWork _) h
  exact ⟨hsmooth.inHandshake, hsmooth.incidents⟩

theorem writeRound_sound (c : Conn X509 Pkey Ω) : Sound c (writeRound E c) := by
  unfold writeRound
  split
  · exact writeTransition_sound hE c
  · exact writePreWork_sound hE c
  · exact writeSend_sound hE c
  · exact writePostWork_sound hE c

end rounds

/-! ## the effect of a call -/

/-- A loop over sound rounds is sound. -/
theorem loop_sound {round : Conn X509 Pkey Ω → Option SubState × Conn X509 Pkey Ω}
    (hround : ∀ c, Sound c (round c)) {c d : Conn X509 Pkey Ω}
    (h : loop round fuel c = some (r, d)) : Sound c (some r, d) := by
  induction fuel generalizing c with
  | zero => contradiction
  | succ fuel ih =>
    have hc := hround c
    rw [loop] at h
    split at h
    · next e he =>
      rw [he] at hc
      exact (ih h).after hc
    · next e he =>
      rw [he] at hc
      cases h
      exact hc

section calls

variable {E} (hE : E.Disciplined)
include hE

theorem readStateMachine_sound
    (h : readStateMachine E fuel c = some (r, d)) : Sound c (some r, d) := by
  refine (loop_sound (readRound_sound hE) h).after ?_
  split <;> exact ⟨rfl, rfl⟩

theorem writeStateMachine_sound
    (h : writeStateMachine E fuel c = some (r, d)) : Sound c (some r, d) :=
  loop_sound (writeRound_sound hE) h

omit hE in
/-- A part of a call that went on after nothing went wrong. -/
theorem Smooth.goesOn {p : Prop} (h : Smooth c d) : Settled c d ∧ (p → Smooth c d) :=
  ⟨h.settled, fun _ => h⟩

/-- One round of the outer loop: it goes on only if nothing went wrong. -/
theorem flowRound_sound {ret : Option Int} (h : flowRound E fuel c = some (ret, d)) :
    Settled c d ∧ (ret = none → Smooth c d) := by
  unfold flowRound at h
  split at h
  · cases h
    exact Smooth.goesOn ⟨rfl, rfl⟩
  · obtain ⟨⟨r, e⟩, hr, he⟩ := Option.map_eq_some_iff.mp h
    have hsound := readStateMachine_sound hE hr
    cases r with
    | error =>
      cases he
      exact ⟨hsound, nofun⟩
    | finished =>
      cases he
      exact Smooth.goesOn ⟨hsound.inHandshake, hsound.incidents⟩
    | endHandshake =>
      cases he
      exact Smooth.goesOn hsound
  · obtain ⟨⟨r, e⟩, hr, he⟩ := Option.map_eq_some_iff.mp h
    have hsound := writeStateMachine_sound hE hr
    cases r with
    | error =>
      cases he
      exact ⟨hsound, nofun⟩
    | finished =>
      cases he
      exact Smooth.goesOn ⟨hsound.inHandshake, hsound.incidents⟩
    | endHandshake =>
      cases he
      exact Smooth.goesOn ⟨hsound.inHandshake, hsound.incidents⟩
  · cases h
    exact ⟨⟨checkFatal_inHandshake, .inr checkFatal_inError⟩, nofun⟩

theorem flowLoop_settled {inner : Nat} {ret : Int}
    (h : flowLoop E inner fuel c = some (ret, d)) : Settled c d := by
  induction fuel generalizing c with
  | zero => contradiction
  | succ fuel ih =>
    rw [flowLoop] at h
    split at h
    · contradiction
    · next e he => exact .of_smooth ((flowRound_sound hE he).2 rfl) (ih h)
    · next he =>
      cases h
      exact (flowRound_sound hE he).1

theorem initialiseHandshake_sound (h : initialiseHandshake E c = (v, d)) :
    Settled c d ∧ (v.isSome → Smooth c d) := by
  unfold initialiseHandshake at h
  split at h
  · split at h
    · next hcall =>
      cases h
      exact ⟨call_settled hcall, nofun⟩
    · next hcall =>
      have hsmooth := call_some hE.setupHandshake hcall
      cases h
      exact Smooth.goesOn ⟨hsmooth.inHandshake, hsmooth.incidents⟩
  · cases h
    exact Smooth.goesOn ⟨rfl, rfl⟩

theorem initialise_sound {server : Bool} (h : initialise E server c = (v, d)) :
    Settled c d ∧ (v.isSome → Smooth c d) := by
  have hbegin : Smooth c (c.begin server) := by
    unfold Conn.begin
    split <;> exact ⟨rfl, rfl⟩
  unfold initialise at h
  split at h
  · next hcall =>
    cases h
    exact ⟨.of_smooth hbegin ((call_settled hcall).raised (raise_inHandshake _) (raise_inError _)),
      nofun⟩
  · next c₁ hcall =>
    have h₁ := hbegin.trans (call_some hE.setupBuffers hcall)
    have hccs : Smooth c { c₁ with ssl.s3.changeCipherSpec := false } :=
      ⟨h₁.inHandshake, h₁.incidents⟩
    split at h
    · next hcall =>
      cases h
      exact ⟨.of_smooth hccs ((call_settled hcall).raised (raise_inHandshake _) (raise_inError _)),
        nofun⟩
    · next c₂ hcall =>
      have h₂ := hccs.trans (call_some hE.initWbioBuffer hcall)
      have hrest := initialiseHandshake_sound hE h
      exact ⟨.of_smooth h₂ hrest.1, fun hv => h₂.trans (hrest.2 hv)⟩

/-- A call that passes `end` gives back what it added to `in_handshake`. -/
theorem stateMachineFrom_settled {server : Bool} {ret : Int}
    (h : stateMachineFrom E fuel server c = some (ret, d)) :
    d.inHandshake = c.inHandshake - 1 ∧ (d.incidents = c.incidents ∨ d.inError = true) := by
  have hleave : ∀ e, Settled c e → e.leave.inHandshake = c.inHandshake - 1 ∧
      (e.leave.incidents = c.incidents ∨ e.leave.inError = true) :=
    fun e he => ⟨congrArg (· - 1) he.inHandshake, he.final⟩
  unfold stateMachineFrom at h
  split at h
  · split at h
    · next e he =>
      cases h
      exact hleave _ (initialise_sound hE he).1
    · next e he =>
      obtain ⟨⟨r, e'⟩, hr, hd⟩ := Option.map_eq_some_iff.mp h
      cases hd
      exact hleave _ (.of_smooth ((initialise_sound hE he).2 rfl) (flowLoop_settled hE hr))
  · obtain ⟨⟨r, e'⟩, hr, hd⟩ := Option.map_eq_some_iff.mp h
    cases hd
    exact hleave _ (flowLoop_settled hE hr)

end calls

/-! ## balance and finality -/

/-- What a call should leave behind: the counter as it was, and after anything
went wrong the error flow, which no later call leaves or changes anything in. -/
structure BalancedAndFinal (E : Endpoint X509 Pkey Ω) (c d : Conn X509 Pkey Ω) : Prop where
  balanced : d.inHandshake = c.inHandshake
  error : d.incidents ≠ c.incidents → d.inError = true
  final : d.inError = true → ∀ fuel server, stateMachine E fuel server d = some (-1, d)

/-- The head of the call has to clear the object, and `SSL_clear` refuses: there
is no method, a renegotiation is pending, or the method's own part fails. -/
def ClearRefused (E : Endpoint X509 Pkey Ω) (c : Conn X509 Pkey Ω) : Prop :=
  c.inError = false ∧ c.clearsFirst ∧ (c.hasMethod = false ∨ c.ssl.renegotiate = true ∨
      (E.methodClear (c.reset E).ssl c.world).value = none)

theorem sslClear_eq_none {E : Endpoint X509 Pkey Ω} :
    (sslClear E c).1 = none ↔ c.hasMethod = false ∨ c.ssl.renegotiate = true ∨
      (E.methodClear (c.reset E).ssl c.world).value = none := by
  unfold sslClear
  split
  · next h => simp [h]
  · next h =>
    split
    · next h' => simp [h']
    · next h' => simp [h, h', Conn.call, Conn.reset]

/-- `SSL_clear` leaves the counter alone. -/
theorem sslClear_inHandshake {E : Endpoint X509 Pkey Ω}
    (h : sslClear E c = (v, d)) : d.inHandshake = c.inHandshake := by
  unfold sslClear at h
  split at h
  · cases h
    rfl
  · split at h
    · cases h
      rfl
    · exact (call_settled h).inHandshake

theorem sslClear_smooth {E : Endpoint X509 Pkey Ω} (hE : E.Disciplined) {u : Unit}
    (h : sslClear E c = (some u, d)) : Smooth c d := by
  unfold sslClear at h
  split at h
  · cases h
  · split at h
    · cases h
    · have hcall := call_some hE.methodClear h
      exact ⟨hcall.inHandshake, hcall.incidents⟩

/-- **Balance and finality** of a call, by the state it is made in. -/
theorem stateMachine_balancedAndFinal_iff {E : Endpoint X509 Pkey Ω} (hE : E.Disciplined)
    {c d : Conn X509 Pkey Ω} {fuel : Nat} {server : Bool} {ret : Int}
    (h : stateMachine E fuel server c = some (ret, d)) :
    BalancedAndFinal E c d ↔ ¬ ClearRefused E c := by
  have hfinal : d.inError = true → ∀ fuel server, stateMachine E fuel server d = some (-1, d) := by
    intro hd fuel server
    rw [stateMachine, if_pos hd]
  have hpass : ∀ c₁, Smooth c.enter c₁ → stateMachineFrom E fuel server c₁ = some (ret, d) →
      BalancedAndFinal E c d := by
    intro c₁ h₁ hrun
    have hd := stateMachineFrom_settled hE hrun
    refine ⟨?_, fun hne => hd.2.resolve_left fun heq => hne (heq.trans h₁.incidents), hfinal⟩
    rw [hd.1, h₁.inHandshake]
    exact Int.add_sub_cancel _ _
  unfold stateMachine at h
  split at h
  · next herror =>
    cases h
    refine iff_of_true ⟨rfl, fun hne => absurd rfl hne, hfinal⟩ fun hrefused => ?_
    exact absurd (herror.symm.trans hrefused.1) Bool.noConfusion
  · next herror =>
    split at h
    · next hclears =>
      split at h
      · next e he =>
        have hcount : e.inHandshake = c.inHandshake + 1 := sslClear_inHandshake he
        cases h
        refine iff_of_false (fun hgood => ?_) (not_not_intro ?_)
        · have hbalanced := hgood.balanced
          omega
        · have hnone : (sslClear E c.enter).1 = none := congrArg Prod.fst he
          exact ⟨by simpa using herror, hclears, (sslClear_eq_none (c := c.enter)).mp hnone⟩
      · next e he =>
        refine iff_of_true (hpass e (sslClear_smooth hE he) h) fun hrefused => ?_
        have hnone : (sslClear E c.enter).1 = none := sslClear_eq_none.mpr hrefused.2.2
        rw [he] at hnone
        exact absurd hnone nofun
    · next hclears => exact iff_of_true (hpass _ ⟨rfl, rfl⟩ h) fun hrefused => hclears hrefused.2.1

/-- A call that succeeds with `a`, or fails without an alert. -/
def quietly (a : Option α) : Nested X509 Pkey Ω α := fun s w => ⟨none, a, s, w⟩

theorem quietly_honest (a : Option α) : Nested.Honest (quietly a : Nested X509 Pkey Ω α) :=
  fun _ _ _ => rfl

/-- An endpoint with nothing to say, whose peer sends nothing. -/
def idle : Endpoint X509 Pkey Ω where
  getMessageHeader := quietly none
  readTransition _ := quietly (some ())
  maxMessageSize _ := 0
  growInitBuf _ := quietly (some ())
  getMessageBody := quietly none
  processMessage _ := quietly (some .continueReading)
  postProcessMessage _ := quietly (some .finishedContinue)
  writeTransition := quietly (some .finished)
  preWork _ := quietly (some .finishedContinue)
  getConstructMessage := quietly (some none)
  openPacket _ := quietly (some ())
  confunc := quietly (some ())
  closePacket _ := quietly (some ())
  doWrite := quietly (some ())
  postWork _ := quietly (some .finishedContinue)
  clearSession s := { s with hit := false }
  methodClear := quietly (some ())
  setupBuffers := quietly (some ())
  initWbioBuffer := quietly (some ())
  setupHandshake := quietly (some ())

theorem idle_disciplined : (idle : Endpoint X509 Pkey Ω).Disciplined where
  getMessageHeader := quietly_honest _
  readTransition _ := quietly_honest _
  growInitBuf _ := quietly_honest _
  getMessageBody := quietly_honest _
  processMessage _ := quietly_honest _
  postProcessMessage _ := quietly_honest _
  writeTransition := quietly_honest _
  preWork _ := quietly_honest _
  getConstructMessage := quietly_honest _
  openPacket _ := quietly_honest _
  confunc := quietly_honest _
  closePacket _ := quietly_honest _
  doWrite := quietly_honest _
  postWork _ := quietly_honest _
  methodClear := quietly_honest _
  setupBuffers := quietly_honest _
  initWbioBuffer := quietly_honest _
  setupHandshake := quietly_honest _
  readTransition_loud _ _ _ := nofun
  getConstructMessage_loud _ _ := nofun

/-- The same, but the header of a message comes in. -/
def receiving (mt : MsgType) (size : Nat) : Endpoint X509 Pkey Ω :=
  { idle with getMessageHeader := quietly (some (mt, size)) }

theorem receiving_disciplined (mt : MsgType) (size : Nat) :
    (receiving mt size : Endpoint X509 Pkey Ω).Disciplined :=
  { idle_disciplined with getMessageHeader := quietly_honest _ }

/-- A connection object as `SSL_new` makes it, and one on which
`SSL_renegotiate` was called before the first handshake. -/
def fresh (renegotiate : Bool) : Conn Bytes (String × Bytes) Unit :=
  { ssl := { renegotiate := renegotiate }, world := () }

/-- A server that has nothing configured, whose client sends a Finished. -/
def early : Endpoint Bytes (String × Bytes) Unit :=
  Machine.endpoint (server .plain) (fun w => ({}, w)) (receiving .finished 12)

/-- The first call on a fresh server reads the header and rejects it; it is
balanced and leaves the error flow. -/
theorem early_balancedAndFinal : ∃ d, stateMachine early 3 true (fresh false) = some (-1, d) ∧
      d.incidents = [.fatal ⟨.unexpectedMessage, .unexpectedMessage⟩, .rejected] ∧ d.inError = true ∧
      BalancedAndFinal early (fresh false) d := by
  obtain ⟨d, hd, hincidents, herror⟩ : ∃ d, stateMachine early 3 true (fresh false) = some (-1, d) ∧
      d.incidents = [.fatal ⟨.unexpectedMessage, .unexpectedMessage⟩, .rejected] ∧ d.inError = true :=
    ⟨_, rfl, rfl, rfl⟩
  have hdisciplined : early.Disciplined := Machine.endpoint_disciplined _ _ (receiving_disciplined _ _)
  have hclear : ¬ ClearRefused early (fresh false) := by
    simp [ClearRefused, fresh, early, Machine.endpoint, receiving, idle, quietly]
  exact ⟨d, hd, hincidents, herror, (stateMachine_balancedAndFinal_iff hdisciplined hd).mpr hclear⟩

/-- A renegotiation asked for before the first handshake: each attempt fails
and leaves `in_handshake` one higher. -/
theorem refused_clear_unbalanced : ∃ d, stateMachine early 3 true (fresh true) = some (-1, d) ∧
      d.inHandshake = (fresh true).inHandshake + 1 ∧ ¬ BalancedAndFinal early (fresh true) d := by
  refine ⟨_, rfl, rfl, fun h => ?_⟩
  exact absurd h.balanced (by decide)

end Tlcp.Driver
