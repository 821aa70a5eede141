import Tlcp.Ntls.Reader
import Tlcp.Ntls.ServerSteps

/-!
# Tlcp.Ntls.Writer

How the NTLS machines hand their messages to the record layer
(`ssl3_do_write_ntls` and the loop of `write_state_machine_ntls` around it).

The driver of `Tlcp.Ntls.Statem` sends a message in one event: it constructs
it, adds it to the transcript and does the work behind it.  Here a message is
in `init_buf` with the range `init_off`, `init_num` that the record layer has
not reported as written, and each call of the record layer takes what it can.

```text
init_buf:  |  hashed, on the wire  |  on the wire  |  still to go  |
           0                    init_off     + wnum             + init_num
```

`wnum` is the record layer's own count: a call that would block may have put
records out, and goes on behind them when it is made again with the same
bytes.  A flush that would block leaves the driver in `WRITE_STATE_POST_WORK`.

A run of the writer erases to a run of the driver (`erase`);
`blocking_invisible` says that nothing else is left of it.
-/

namespace Tlcp

open Octets Fallible

variable {X509 Pkey Ans : Type}

/-! ## the driver, up to the record layer and behind it -/

variable (lib : Libcrypto X509 Pkey) (m : Machine X509 Pkey Ans)

/-- `WRITE_STATE_PRE_WORK`, up to the call of the record layer: the message to
send, if there is one. -/
def preWorkBuild (wst : Work) (ans : Ans) : Handshake X509 Pkey (Option (MsgType × Bytes)) := do
  match ← m.preWork ans wst with
  | .finishedStop =>
    modify fun s => { s with statem.state := .finished }
    pure none
  | .finishedContinue =>
    let msg ← m.constructMessage ans
    pure (some msg)
  | wst =>
    modify fun s => { s with statem.writeState := .preWork wst }
    pure none

/-- A round of `write_state_machine_ntls`, up to the call of the record layer. -/
def beginWrite (ans : Ans) : Handshake X509 Pkey (Option (MsgType × Bytes)) := do
  let s ← get
  match s.statem.writeState with
  | .preWork wst => preWorkBuild m wst ans
  | .transition =>
    match ← m.writeTransition ans with
    | .finished =>
      modify fun s => { s with statem.state := .reading, statem.readState := .header }
      pure none
    | .cont => preWorkBuild m .moreA ans

/-- `WRITE_STATE_POST_WORK` -/
def postWorkRound (ans : Ans) : Handshake X509 Pkey Unit := do
  m.postWork ans
  modify fun s => { s with statem.writeState := .transition }

/-- What is left of a round when `tail` is left to write. -/
def sendRest (ans : Ans) (mt : MsgType) (body tail : Bytes) : Handshake X509 Pkey Unit := do
  onlyIf (mt ≠ .changeCipherSpec) (ssl3FinishMac tail)
  record (.sent mt body)
  postWorkRound m ans

/-- What follows the first part of a round. -/
def writeTail (ans : Ans) : Option (MsgType × Bytes) → Handshake X509 Pkey Unit
  | none => pure ()
  | some (mt, body) => sendRest m ans mt body (handshakeBytes mt body)

theorem preWorkRound_eq (wst : Work) (ans : Ans) :
    preWorkRound m wst ans = preWorkBuild m wst ans >>= writeTail m ans := by
  simp only [preWorkRound, preWorkBuild, bind_assoc]
  refine bind_congr fun wst' => ?_
  cases wst' <;> simp [writeTail, sendMessage, sendRest, postWorkRound]

theorem writeRound_eq (ans : Ans) :
    writeRound m ans = beginWrite m ans >>= writeTail m ans := by
  simp only [writeRound, beginWrite, bind_assoc]
  refine bind_congr fun s => ?_
  cases s.statem.writeState with
  | preWork wst => exact preWorkRound_eq m wst ans
  | transition =>
    simp only [bind_assoc]
    refine bind_congr fun tran => ?_
    cases tran with
    | finished => simp [writeTail]
    | cont => exact preWorkRound_eq m .moreA ans

/-! ## the record layer -/

/-- How a call of `ssl3_write_bytes` returns: below zero or not, the count that
it reports, and what it has put out of the bytes behind that count. -/
structure WriteAnswer where
  failed : Bool
  written : Nat
  wnum : Nat
  deriving DecidableEq, Repr

/-- What the record layer promises of a call with `len` bytes, `wnum` of which
it has put out before: it goes on behind them, and reports a count only when
it does not fail. -/
def WriteAnswer.Fits (a : WriteAnswer) (wnum len : Nat) : Prop :=
  (a.failed = true → a.written = 0) ∧ wnum ≤ a.written + a.wnum ∧ a.written + a.wnum ≤ len

instance (a : WriteAnswer) (wnum len : Nat) : Decidable (a.Fits wnum len) :=
  inferInstanceAs (Decidable (_ ∧ _ ∧ _))

/-- `init_buf` behind `ssl_close_construct_packet`: a ChangeCipherSpec has no
header. -/
def messageData (mt : MsgType) (body : Bytes) : Bytes :=
  if mt = .changeCipherSpec then [1] else handshakeBytes mt body

/-- The type of the record that `statem_do_write` asks for. -/
def SSL.writeType (s : SSL X509 Pkey) : RecordType :=
  if s.statem.handState = .cwChange ∨ s.statem.handState = .swChange then .changeCipherSpec
  else .handshake

theorem wireOf_eq (mt : MsgType) (body : Bytes) : wireOf mt body = (messageData mt body).map
      (if mt = .changeCipherSpec then .changeCipherSpec else .handshake, ·) := by
  by_cases h : mt = .changeCipherSpec
  · simp [wireOf, messageData, h]
  · simp [wireOf, messageData, h]

/-! ## the writer -/

/-- The message in `init_buf`.  `sent` is `WRITE_STATE_POST_WORK`. -/
structure Outgoing (Ans : Type) where
  ans : Ans
  mt : MsgType
  body : Bytes
  initOff : Nat
  initNum : Nat
  sent : Bool := false

/-- A connection object with the message it sends, what the record layer has
put out and which messages were constructed, since the object was cleared. -/
structure Writer (X509 Pkey Ans : Type) where
  ssl : SSL X509 Pkey
  out : Option (Outgoing Ans) := none
  wnum : Nat := 0
  wire : List (RecordType × UInt8) := []
  built : List (MsgType × Bytes) := []

/-- What can happen: an event of the driver, whose write stops at the record
layer; a call of the record layer; a round of the work behind a message, with
the flush done or not. -/
inductive IoEvent (Ans : Type) where
  | event (e : Event Ans)
  | send (a : WriteAnswer)
  | postWork (flushed : Bool)

/-- The write machine, up to the record layer. -/
def Writer.begin (ans : Ans) (w : Writer X509 Pkey Ans) : Writer X509 Pkey Ans :=
  match (beginWrite m ans).run w.ssl with
  | .error e s => { w with ssl := s.fail e }
  | .ok none s => { w with ssl := s }
  | .ok (some (mt, body)) s =>
    { w with
      ssl := s
      out := some { ans, mt, body, initOff := 0, initNum := (messageData mt body).length }
      built := w.built ++ [(mt, body)] }

/-- `ssl3_do_write_ntls` -/
def Writer.doWrite (a : WriteAnswer) (o : Outgoing Ans) (w : Writer X509 Pkey Ans) :
    Option (Writer X509 Pkey Ans) :=
  let ty := w.ssl.writeType
  let buf := ((messageData o.mt o.body).drop o.initOff).take o.initNum
  if a.Fits w.wnum buf.length then
    let w := { w with
      wire := w.wire ++ ((buf.take (a.written + a.wnum)).drop w.wnum).map (ty, ·)
      wnum := a.wnum }
    if a.failed then some w
    else
      match (onlyIf (ty = .handshake) (ssl3FinishMac (buf.take a.written))).run w.ssl with
      | .error e s => some { w with ssl := s.fail e, out := none }
      | .ok _ s =>
        if a.written = o.initNum then
          some { w with
            ssl := { s with trace := s.trace ++ [.sent o.mt o.body] }
            out := some { o with sent := true } }
        else
          some { w with
            ssl := s
            out := some { o with
              initOff := o.initOff + a.written
              initNum := o.initNum - a.written } }
  else none

/-- The work behind a message; it comes behind the flush, where there is one. -/
def Writer.finish (o : Outgoing Ans) (w : Writer X509 Pkey Ans) : Writer X509 Pkey Ans :=
  { w with ssl := settle ((postWorkRound m o.ans).run w.ssl), out := none }

/-- One thing that happens to a writer.  While a message is on its way the
driver is in no other place. -/
def Writer.step (w : Writer X509 Pkey Ans) : IoEvent Ans → Option (Writer X509 Pkey Ans)
  | .event e =>
    match w.out, e with
    | some _, _ => none
    | none, .write ans => if w.ssl.statem.state = .writing then some (w.begin m ans) else none
    | none, .clear b => (Tlcp.step lib m w.ssl (.clear b)).map fun s => { ssl := s }
    | none, e => (Tlcp.step lib m w.ssl e).map fun s => { w with ssl := s }
  | .send a =>
    match w.out with
    | some o => if o.sent then none else w.doWrite a o
    | none => none
  | .postWork flushed =>
    match w.out with
    | some o => if o.sent then some (if flushed then w.finish m o else w) else none
    | none => none

/-- The messages that an event of the driver constructs, behind those before. -/
def logged (s : SSL X509 Pkey) (built : List (MsgType × Bytes)) : Event Ans → List (MsgType × Bytes)
  | .clear _ => []
  | .write ans =>
    match (beginWrite m ans).run s with
    | .ok (some msg) _ => built ++ [msg]
    | _ => built
  | _ => built

/-- The driver with the messages it constructs: a writer that never blocks. -/
def atomicStep (x : SSL X509 Pkey × List (MsgType × Bytes)) (e : Event Ans) :
    Option (SSL X509 Pkey × List (MsgType × Bytes)) :=
  (Tlcp.step lib m x.1 e).map fun t => (t, logged m x.1 x.2 e)

/-- The event of the driver in an event of the writer. -/
def erase : IoEvent Ans → List (Event Ans)
  | .event e => [e]
  | _ => []

/-! ## the transcript, in pieces -/

section pieces

variable {m}
  {s t : SSL X509 Pkey} {u : Unit} {e : Fatal} {ans : Ans} {mt : MsgType} {body a : Bytes}

theorem ssl3FinishMac_append (h : (ssl3FinishMac a).run s = .ok u t) (b : Bytes) :
    (ssl3FinishMac (a ++ b)).run s = (ssl3FinishMac b).run t := by
  cases ssl3FinishMac_ok h with
  | inl hd =>
    obtain ⟨d, hd, ht⟩ := hd
    subst ht
    simp [ssl3FinishMac, hd]
  | inr hb =>
    obtain ⟨c, hd, hb, ht⟩ := hb
    subst ht
    simp [ssl3FinishMac, hd, hb]

theorem ssl3FinishMac_error (h : (ssl3FinishMac a).run s = .error e t) (b : Bytes) :
    (ssl3FinishMac b).run s = .error e t := by
  cases hd : s.s3.handshakeDgst with
  | some d => simp [ssl3FinishMac, hd] at h
  | none =>
    cases hb : s.s3.handshakeBuffer with
    | some c => simp [ssl3FinishMac, hd, hb] at h
    | none =>
      simp only [ssl3FinishMac, hd, hb, EStateM.run_bind, EStateM.run_get] at h ⊢
      exact h

/-- A ChangeCipherSpec is not hashed. -/
theorem sendRest_change (x y : Bytes) :
    sendRest m ans .changeCipherSpec body x = sendRest m ans .changeCipherSpec body y := by
  simp [sendRest, onlyIf]

theorem sendRest_data : sendRest m ans mt body (handshakeBytes mt body) =
      sendRest m ans mt body (messageData mt body) := by
  by_cases h : mt = .changeCipherSpec
  · subst h
    exact sendRest_change _ _
  · rw [messageData, if_neg h]

/-- A part of the rest was hashed. -/
theorem sendRest_append (a b : Bytes)
    (h : (onlyIf (mt ≠ .changeCipherSpec) (ssl3FinishMac a)).run s = .ok u t) :
    (sendRest m ans mt body (a ++ b)).run s = (sendRest m ans mt body b).run t := by
  cases run_onlyIf_ok.mp h with
  | inl hmac =>
    simp only [sendRest, onlyIf, if_pos hmac.1]
    rw [EStateM.run_bind, ssl3FinishMac_append hmac.2, ← EStateM.run_bind]
  | inr hccs =>
    obtain ⟨hmt, hst⟩ := hccs
    subst hst
    rw [not_not.mp hmt]
    rw [sendRest_change (a ++ b) b]

theorem sendRest_error (a b : Bytes)
    (h : (onlyIf (mt ≠ .changeCipherSpec) (ssl3FinishMac a)).run s = .error e t) :
    (sendRest m ans mt body b).run s = .error e t := by
  by_cases hmt : mt = .changeCipherSpec
  · simp [onlyIf, hmt] at h
  · simp only [onlyIf, if_pos (show mt ≠ .changeCipherSpec from hmt)] at h
    simp only [sendRest, onlyIf, if_pos (show mt ≠ .changeCipherSpec from hmt)]
    rw [EStateM.run_bind, ssl3FinishMac_error h b]

/-- The rest was hashed. -/
theorem sendRest_done (a : Bytes)
    (h : (onlyIf (mt ≠ .changeCipherSpec) (ssl3FinishMac a)).run s = .ok u t) :
    (sendRest m ans mt body a).run s =
      (postWorkRound m ans).run { t with trace := t.trace ++ [.sent mt body] } := by
  rw [sendRest, EStateM.run_bind, h]
  rfl

end pieces

/-! ## the simulation -/

/-- What the record layer has put out of the message. -/
def Outgoing.position (o : Outgoing Ans) (wnum : Nat) : Nat :=
  if o.sent then (messageData o.mt o.body).length else o.initOff + wnum

/-- What was added to the transcript of the message. -/
def Outgoing.hashed (o : Outgoing Ans) : Bytes := if o.mt = .changeCipherSpec then []
  else if o.sent then handshakeBytes o.mt o.body
  else (handshakeBytes o.mt o.body).take o.initOff

/-- The records of messages in a row. -/
def wireAll (msgs : List (MsgType × Bytes)) : List (RecordType × UInt8) :=
  msgs.flatMap fun x => wireOf x.1 x.2

/-- A machine whose constructors leave the state that tells the type of the
record. -/
def Machine.TypesRecords : Prop :=
  ∀ ans s mt body t, (m.constructMessage ans).run s = .ok (mt, body) t →
    t.writeType = if mt = .changeCipherSpec then .changeCipherSpec else .handshake

/-- The message `o` is on its way: it was constructed in a round that started
in `s`, behind the messages `b`, and led to `s₁`. -/
structure Writer.Sending (s : SSL X509 Pkey)
    (b : List (MsgType × Bytes)) (s₁ : SSL X509 Pkey) (w : Writer X509 Pkey Ans)
    (o : Outgoing Ans) : Prop where
  writing : s.statem.state = .writing
  begun : (beginWrite m o.ans).run s = .ok (some (o.mt, o.body)) s₁
  type : w.ssl.writeType = if o.mt = .changeCipherSpec then .changeCipherSpec else .handshake
  built : w.built = b ++ [(o.mt, o.body)]
  range : o.sent = false → o.initOff + o.initNum = (messageData o.mt o.body).length ∧
    w.wnum ≤ o.initNum
  reset : o.sent = true → w.wnum = 0
  wire : w.wire = wireAll b ++ (wireOf o.mt o.body).take (o.position w.wnum)
  hashed : ∀ T, Hashes s₁.s3.handshakeDgst s₁.s3.handshakeBuffer T →
    Hashes w.ssl.s3.handshakeDgst w.ssl.s3.handshakeBuffer (T ++ o.hashed)
  /-- what is left to do of the round is what the driver has left to do -/
  rest : (writeRound m o.ans).run s = if o.sent then (postWorkRound m o.ans).run w.ssl
    else (sendRest m o.ans o.mt o.body ((messageData o.mt o.body).drop o.initOff)).run w.ssl

/-- The bytes of all messages are out; of an object that failed, maybe not all
of the last one. -/
def Writer.Drained (w : Writer X509 Pkey Ans) : Prop := (w.wnum = 0 ∧ w.wire = wireAll w.built) ∨
    ((∃ e, w.ssl.statem.state = .error e) ∧ w.wire <+: wireAll w.built)

/-- The writer that started from `s₀`, and the events of the driver in its
run. -/
def Writer.Sim (lib : Libcrypto X509 Pkey) (m : Machine X509 Pkey Ans)
    (s₀ : SSL X509 Pkey) (es : List (Event Ans)) (w : Writer X509 Pkey Ans) : Prop :=
  match w.out with
  | none => Run.run (atomicStep lib m) (s₀, []) es = some (w.ssl, w.built) ∧ w.Drained
  | some o => ∃ es' s b s₁, es = es' ++ [.write o.ans] ∧
      Run.run (atomicStep lib m) (s₀, []) es' = some (s, b) ∧ w.Sending m s b s₁ o

section sim

variable {lib m}
  {s s₁ s₀ t : SSL X509 Pkey} {b : List (MsgType × Bytes)} {w w' : Writer X509 Pkey Ans}
  {o : Outgoing Ans} {es : List (Event Ans)} {ans : Ans} {mt : MsgType} {body : Bytes}

theorem Writer.Sim.idle (h : w.Sim lib m s₀ es) (hout : w.out = none) :
    Run.run (atomicStep lib m) (s₀, []) es = some (w.ssl, w.built) ∧ w.Drained := by
  simpa [Writer.Sim, hout] using h

theorem Writer.Sim.sending (h : w.Sim lib m s₀ es) (hout : w.out = some o) :
    ∃ es' s b s₁, es = es' ++ [.write o.ans] ∧
      Run.run (atomicStep lib m) (s₀, []) es' = some (s, b) ∧ w.Sending m s b s₁ o := by
  simpa [Writer.Sim, hout] using h

theorem Writer.Sim.of_idle (hout : w.out = none)
    (hrun : Run.run (atomicStep lib m) (s₀, []) es = some (w.ssl, w.built)) (h : w.Drained) :
    w.Sim lib m s₀ es := by
  simpa [Writer.Sim, hout] using ⟨hrun, h⟩

theorem Writer.Sim.of_sending {es' : List (Event Ans)} (s₁ : SSL X509 Pkey) (hout : w.out = some o)
    (hes : es = es' ++ [.write o.ans])
    (hrun : Run.run (atomicStep lib m) (s₀, []) es' = some (s, b)) (h : w.Sending m s b s₁ o) :
    w.Sim lib m s₀ es := by
  simp only [Writer.Sim, hout]
  exact ⟨es', s, b, s₁, hes, hrun, h⟩

/-- A piece more of a list that is handed over from an offset on. -/
theorem take_append_piece {α : Type} (l : List α) {off i k : Nat} (h : i ≤ k) :
    l.take (off + i) ++ ((l.drop off).take k).drop i = l.take (off + k) := by
  have hpiece : (l.drop off).take i ++ ((l.drop off).take k).drop i = (l.drop off).take k := by
    have := List.take_append_drop i ((l.drop off).take k)
    rwa [List.take_take, Nat.min_eq_left h] at this
  rw [List.take_add, List.append_assoc, hpiece, ← List.take_add]

theorem atomicStep_write (hst : s.statem.state = .writing)
    (hbegin : (beginWrite m ans).run s = .ok (some (mt, body)) s₁) :
    atomicStep lib m (s, b) (.write ans) =
      some (settle ((writeRound m ans).run s), b ++ [(mt, body)]) := by
  simp [atomicStep, Tlcp.step, hst, logged, hbegin]

/-- A message that was constructed. -/
theorem Writer.Sending.of_begin (hm : m.TypesRecords) (hst : s.statem.state = .writing)
    (hdrained : w.wnum = 0 ∧ w.wire = wireAll w.built)
    (hbegin : (beginWrite m ans).run s = .ok (some (mt, body)) s₁) :
    Writer.Sending m s w.built s₁
      { w with
        ssl := s₁
        out := some { ans, mt, body, initOff := 0, initNum := (messageData mt body).length }
        built := w.built ++ [(mt, body)] }
      { ans, mt, body, initOff := 0, initNum := (messageData mt body).length } := by
  have htype : s₁.writeType = if mt = .changeCipherSpec then .changeCipherSpec else .handshake := by
    have hbuild : ∀ {wst s'}, (preWorkBuild m wst ans).run s' = .ok (some (mt, body)) s₁ →
        ∃ s'', (m.constructMessage ans).run s'' = .ok (mt, body) s₁ := by
      intro wst s' h
      obtain ⟨wst', s'', _, h⟩ := run_bind_ok.mp h
      cases wst' with
      | finishedContinue =>
        obtain ⟨msg, s₂, hmsg, h⟩ := run_bind_ok.mp h
        rw [run_pure_ok] at h
        obtain ⟨heq, hs⟩ := h
        injection heq with heq
        subst heq hs
        exact ⟨_, hmsg⟩
      | _ =>
        rw [run_modify_bind_ok, run_pure_ok] at h
        exact absurd h.1 (by simp)
    have hcons : ∃ s'', (m.constructMessage ans).run s'' = .ok (mt, body) s₁ := by
      rw [beginWrite, run_get_bind_ok] at hbegin
      split at hbegin
      · exact hbuild hbegin
      · obtain ⟨tran, s', _, h⟩ := run_bind_ok.mp hbegin
        cases tran with
        | finished =>
          rw [run_modify_bind_ok, run_pure_ok] at h
          exact absurd h.1 (by simp)
        | cont => exact hbuild h
    obtain ⟨s'', hcons⟩ := hcons
    exact hm ans s'' mt body s₁ hcons
  have hround : (writeRound m ans).run s =
      (sendRest m ans mt body (messageData mt body)).run s₁ := by
    rw [writeRound_eq, EStateM.run_bind, hbegin, ← sendRest_data]
    rfl
  constructor
  · exact hst
  · exact hbegin
  · exact htype
  · rfl
  · intro _
    rw [hdrained.1]
    simp
  · intro h
    contradiction
  · simp [hdrained.1, hdrained.2, Outgoing.position]
  · intro T hT
    simpa [Outgoing.hashed] using hT
  · simpa using hround

/-- The driver made the round of a message that is done with. -/
theorem Writer.Sending.run_atomic (h : w.Sending m s b s₁ o)
    (hrun : Run.run (atomicStep lib m) (s₀, []) es = some (s, b)) :
    Run.run (atomicStep lib m) (s₀, []) (es ++ [.write o.ans]) =
      some (settle ((writeRound m o.ans).run s), w.built) := by
  rw [h.built]
  exact Run.run_concat_eq_some.mpr ⟨(s, b), hrun, atomicStep_write h.writing h.begun⟩

theorem wireAll_concat (b : List (MsgType × Bytes)) (x : MsgType × Bytes) :
    wireAll (b ++ [x]) = wireAll b ++ wireOf x.1 x.2 := by
  simp [wireAll]

/-- What the record layer has put out after a call. -/
theorem Writer.Sending.wire_call (h : w.Sending m s b s₁ o) (hsent : o.sent = false)
    {a : WriteAnswer} (hfits : w.wnum ≤ a.written + a.wnum) :
    w.wire ++ ((((messageData o.mt o.body).drop o.initOff).take (a.written + a.wnum)).drop
        w.wnum).map (w.ssl.writeType, ·) =
      wireAll b ++ (wireOf o.mt o.body).take (o.initOff + (a.written + a.wnum)) := by
  have hpos : o.position w.wnum = o.initOff + w.wnum := by simp [Outgoing.position, hsent]
  rw [h.wire, hpos, h.type, wireOf_eq, List.append_assoc, ← List.map_take, ← List.map_append,
    ← List.map_take, take_append_piece _ hfits]

theorem writeType_of_hash {d : Bytes} {p : Prop} [Decidable p] {u : Unit}
    (h : (onlyIf p (ssl3FinishMac d)).run s = .ok u t) : t.writeType = s.writeType := by
  cases run_onlyIf_ok.mp h with
  | inl hmac =>
    obtain ⟨dg, bf, ht, _⟩ := ssl3FinishMac_frame hmac.2
    rw [ht]
    rfl
  | inr hsame => rw [← hsame.2]

/-- The call failed: nothing is hashed and the range stays. -/
theorem Writer.Sending.failed {W : List (RecordType × UInt8)} {wnum : Nat}
    (hs : w.Sending m s b s₁ o) (hsent : o.sent = false) (hfits : wnum ≤ o.initNum)
    (hwire : W = wireAll b ++ (wireOf o.mt o.body).take (o.initOff + wnum)) :
    Writer.Sending m s b s₁ { w with wire := W, wnum := wnum } o := by
  refine ⟨hs.writing, hs.begun, hs.type, hs.built, fun _ => ⟨(hs.range hsent).1, hfits⟩, ?_, ?_,
    hs.hashed, hs.rest⟩
  · intro hsent'
    rw [hsent] at hsent'
    contradiction
  · rw [hwire]
    simp [Outgoing.position, hsent]

section hashed

-- A call that wrote `n` bytes of the rest; they were hashed.
variable {W : List (RecordType × UInt8)} {n wnum : Nat} {u : Unit} (hs : w.Sending m s b s₁ o)
  (hsent : o.sent = false) (hmac : (onlyIf (o.mt ≠ .changeCipherSpec)
    (ssl3FinishMac (((messageData o.mt o.body).drop o.initOff).take n))).run w.ssl = .ok u t)
  (hwire : W = wireAll b ++ (wireOf o.mt o.body).take (o.initOff + (n + wnum)))
include hs hsent hmac

theorem Writer.Sending.hashed_call {T : Bytes}
    (hT : Hashes s₁.s3.handshakeDgst s₁.s3.handshakeBuffer T) :
    Hashes t.s3.handshakeDgst t.s3.handshakeBuffer (T ++ if o.mt = .changeCipherSpec then []
      else (handshakeBytes o.mt o.body).take (o.initOff + n)) := by
  have hold := hs.hashed T hT
  cases run_onlyIf_ok.mp hmac with
  | inl hfed =>
    have hfeed := hold.feed hfed.2
    rw [Outgoing.hashed, if_neg hfed.1, hsent, if_neg (by simp)] at hfeed
    rw [if_neg hfed.1, List.take_add, ← List.append_assoc]
    simpa [messageData, hfed.1] using hfeed
  | inr hsame =>
    have hmt := not_not.mp hsame.1
    rw [if_pos hmt, ← hsame.2]
    simpa [Outgoing.hashed, hmt] using hold

include hwire

/-- All of the rest was written. -/
theorem Writer.Sending.all (hall : n = o.initNum) (hzero : wnum = 0) :
    Writer.Sending m s b s₁
      { w with
        wire := W
        wnum := wnum
        ssl := { t with trace := t.trace ++ [.sent o.mt o.body] }
        out := some { o with sent := true } }
      { o with sent := true } := by
  have hrange := (hs.range hsent).1
  have hrest := hs.rest
  rw [hsent, if_neg (by simp)] at hrest
  refine ⟨hs.writing, hs.begun, (writeType_of_hash hmac).trans hs.type, hs.built, ?_,
    fun _ => hzero, ?_, ?_, ?_⟩
  · intro hsent'
    contradiction
  · have hfull : o.initOff + (n + wnum) = (messageData o.mt o.body).length := by omega
    rw [hwire, hfull]
    simp [Outgoing.position]
  · intro T hT
    have hT' := hs.hashed_call hsent hmac hT
    rw [hall, hrange] at hT'
    by_cases hmt : o.mt = .changeCipherSpec
    · simpa [Outgoing.hashed, hmt] using hT'
    · simpa [Outgoing.hashed, messageData, hmt] using hT'
  · rw [List.take_of_length_le (by rw [List.length_drop]; omega)] at hmac
    rw [hrest, sendRest_done _ hmac]
    simp

/-- A part of the rest was written. -/
theorem Writer.Sending.part (hfits : n + wnum ≤ o.initNum) :
    Writer.Sending m s b s₁
      { w with
        wire := W
        wnum := wnum
        ssl := t
        out := some { o with initOff := o.initOff + n, initNum := o.initNum - n } }
      { o with initOff := o.initOff + n, initNum := o.initNum - n } := by
  have hrange := (hs.range hsent).1
  have hrest := hs.rest
  rw [hsent, if_neg (by simp)] at hrest
  refine ⟨hs.writing, hs.begun, (writeType_of_hash hmac).trans hs.type, hs.built, fun _ => ?_, ?_,
    ?_, ?_, ?_⟩
  · constructor
    · simp only
      omega
    · simp only
      omega
  · intro hsent'
    rw [hsent] at hsent'
    contradiction
  · rw [hwire]
    simp [Outgoing.position, hsent, Nat.add_assoc]
  · intro T hT
    simpa [Outgoing.hashed, hsent] using hs.hashed_call hsent hmac hT
  · have hsplit : (messageData o.mt o.body).drop o.initOff =
        ((messageData o.mt o.body).drop o.initOff).take n ++
          (messageData o.mt o.body).drop (o.initOff + n) := by
      rw [← List.drop_drop, List.take_append_drop]
    rw [hrest, hsplit, sendRest_append _ _ hmac]
    simp [hsent]

end hashed

/-- **A call of the record layer.** -/
theorem Writer.sim_doWrite {a : WriteAnswer} (hsim : w.Sim lib m s₀ es) (hout : w.out = some o)
    (hsent : o.sent = false) (h : w.doWrite a o = some w') : w'.Sim lib m s₀ es := by
  obtain ⟨es', s, b, s₁, hes, hrun, hs⟩ := hsim.sending hout
  obtain ⟨hrange, hwnum⟩ := hs.range hsent
  have hbuf : ((messageData o.mt o.body).drop o.initOff).take o.initNum =
      (messageData o.mt o.body).drop o.initOff := by
    rw [List.take_of_length_le]
    rw [List.length_drop]
    omega
  have hlen : ((messageData o.mt o.body).drop o.initOff).length = o.initNum := by
    rw [List.length_drop]
    omega
  have hhash : ∀ d, (onlyIf (w.ssl.writeType = .handshake) (ssl3FinishMac d) :
      Handshake X509 Pkey Unit) = onlyIf (o.mt ≠ .changeCipherSpec) (ssl3FinishMac d) := by
    intro d
    rw [hs.type]
    by_cases hmt : o.mt = .changeCipherSpec
    · simp [onlyIf, hmt]
    · simp [onlyIf, hmt]
  simp only [Writer.doWrite, hbuf, hlen, hhash] at h
  split at h
  · next hfits =>
    obtain ⟨hfail, hle, hend⟩ := hfits
    have hwire := hs.wire_call hsent hle
    split at h
    · next hfailed =>
      injection h with h
      subst h
      refine .of_sending s₁ hout hes hrun (hs.failed hsent (by omega) ?_)
      rw [hwire, hfail hfailed, Nat.zero_add]
    · split at h
      · -- the hash failed: the driver fails at the same place
        next e t hmac =>
          have hrest := hs.rest
          rw [hsent, if_neg (by simp)] at hrest
          injection h with h
          subst h
          refine .of_idle rfl ?_ (.inr ⟨⟨e, rfl⟩, ?_⟩)
          · rw [hes, hs.run_atomic hrun, hrest, sendRest_error _ _ hmac]
            rfl
          · rw [hwire, hs.built, wireAll_concat]
            exact (List.prefix_append_right_inj _).mpr (List.take_prefix _ _)
      · next t hmac =>
        split at h
        · next hall =>
          injection h with h
          subst h
          exact .of_sending s₁ rfl hes hrun (hs.all hsent hmac hwire hall (by omega))
        · injection h with h
          subst h
          exact .of_sending s₁ rfl hes hrun (hs.part hsent hmac hwire hend)
  · contradiction

/-- An event of the driver that does not write. -/
theorem Writer.sim_other {e : Event Ans} (hsim : w.Sim lib m s₀ es) (hout : w.out = none)
    (hclear : ∀ c, e ≠ .clear c) (hwrite : ∀ ans, e ≠ .write ans)
    (h : Tlcp.step lib m w.ssl e = some t) :
    Writer.Sim lib m s₀ (es ++ [e]) { w with ssl := t } := by
  obtain ⟨hrun, hdrained⟩ := hsim.idle hout
  have hlogged : logged m w.ssl w.built e = w.built := by
    cases e with
    | clear c => exact absurd rfl (hclear c)
    | write ans => exact absurd rfl (hwrite ans)
    | _ => rfl
  have hstep : atomicStep lib m (w.ssl, w.built) e = some (t, w.built) := by
    simp [atomicStep, h, hlogged]
  refine .of_idle hout (Run.run_concat_eq_some.mpr ⟨_, hrun, hstep⟩) ?_
  cases hdrained with
  | inl hdone => exact .inl hdone
  | inr hfailed =>
    obtain ⟨⟨f, hf⟩, hfront⟩ := hfailed
    exact .inr ⟨step_error hf hclear h, hfront⟩

/-- The write machine, up to the record layer. -/
theorem Writer.sim_begin (hm : m.TypesRecords) (hsim : w.Sim lib m s₀ es) (hout : w.out = none)
    (hst : w.ssl.statem.state = .writing) :
    Writer.Sim lib m s₀ (es ++ [.write ans]) (w.begin m ans) := by
  obtain ⟨hrun, hdrained⟩ := hsim.idle hout
  have hdone : w.wnum = 0 ∧ w.wire = wireAll w.built := by
    cases hdrained with
    | inl hdone => exact hdone
    | inr hfailed =>
      obtain ⟨⟨f, hf⟩, _⟩ := hfailed
      rw [hst] at hf
      contradiction
  have hround : ∀ x t, (beginWrite m ans).run w.ssl = .ok x t → (writeRound m ans).run w.ssl =
      (writeTail m ans x).run t := by
    intro x t h
    rw [writeRound_eq, EStateM.run_bind, h]
  unfold Writer.begin
  cases hbegin : (beginWrite m ans).run w.ssl with
  | error e t =>
    have hfail : (writeRound m ans).run w.ssl = .error e t := by
      rw [writeRound_eq, EStateM.run_bind, hbegin]
    have hstep : atomicStep lib m (w.ssl, w.built) (.write ans) = some (t.fail e, w.built) := by
      simp [atomicStep, Tlcp.step, hst, logged, hbegin, hfail, settle]
    exact .of_idle hout (Run.run_concat_eq_some.mpr ⟨_, hrun, hstep⟩) (.inl hdone)
  | ok x t =>
    cases x with
    | none =>
      have hstep : atomicStep lib m (w.ssl, w.built) (.write ans) = some (t, w.built) := by
        simp [atomicStep, Tlcp.step, hst, logged, hbegin, hround _ _ hbegin, writeTail, settle,
          EStateM.run_pure]
      exact .of_idle hout (Run.run_concat_eq_some.mpr ⟨_, hrun, hstep⟩) (.inl hdone)
    | some x =>
      obtain ⟨mt, body⟩ := x
      exact .of_sending t rfl rfl hrun (.of_begin hm hst hdone hbegin)

/-- The work behind a message. -/
theorem Writer.sim_finish (hsim : w.Sim lib m s₀ es) (hout : w.out = some o)
    (hsent : o.sent = true) : (w.finish m o).Sim lib m s₀ es := by
  obtain ⟨es', s, b, s₁, hes, hrun, hs⟩ := hsim.sending hout
  have hrest := hs.rest
  rw [hsent, if_pos rfl] at hrest
  refine .of_idle rfl ?_ (.inl ⟨hs.reset hsent, ?_⟩)
  · rw [hes, hs.run_atomic hrun, hrest]
    rfl
  · have hfull : (wireOf o.mt o.body).take (o.position w.wnum) = wireOf o.mt o.body := by
      rw [List.take_of_length_le]
      simp [wireOf_eq, Outgoing.position, hsent]
    have hwire := hs.wire
    rw [hfull] at hwire
    simp only [Writer.finish]
    rw [hwire, hs.built, wireAll_concat]

/-- **One event** of a writer. -/
theorem Writer.sim_step (hm : m.TypesRecords) (hsim : w.Sim lib m s₀ es) {i : IoEvent Ans}
    (h : w.step lib m i = some w') : w'.Sim lib m s₀ (es ++ erase i) := by
  cases i with
  | event e =>
    cases hout : w.out with
    | some o => simp [Writer.step, hout] at h
    | none =>
      cases e with
      | write ans =>
        simp only [Writer.step, hout, Option.ite_none_right_eq_some, Option.some.injEq] at h
        obtain ⟨hst, h⟩ := h
        subst h
        exact Writer.sim_begin hm hsim hout hst
      | clear c =>
        simp only [Writer.step, hout, Option.map_eq_some_iff] at h
        obtain ⟨t, hstep, h⟩ := h
        subst h
        have hrun := (hsim.idle hout).1
        have hatomic : atomicStep lib m (w.ssl, w.built) (.clear c) = some (t, []) := by
          simp [atomicStep, hstep, logged]
        exact .of_idle rfl (Run.run_concat_eq_some.mpr ⟨_, hrun, hatomic⟩) (.inl ⟨rfl, rfl⟩)
      | _ =>
        simp only [Writer.step, hout, Option.map_eq_some_iff] at h
        obtain ⟨t, hstep, h⟩ := h
        subst h
        have hsim' := Writer.sim_other hsim hout (by simp) (by simp) hstep
        rw [hout] at hsim'
        exact hsim'
  | send a =>
    simp only [erase, List.append_nil]
    cases hout : w.out with
    | none => simp [Writer.step, hout] at h
    | some o =>
      simp only [Writer.step, hout, Option.ite_none_left_eq_some, Bool.not_eq_true] at h
      exact Writer.sim_doWrite hsim hout h.1 h.2
  | postWork flushed =>
    simp only [erase, List.append_nil]
    cases hout : w.out with
    | none => simp [Writer.step, hout] at h
    | some o =>
      simp only [Writer.step, hout, Option.ite_none_right_eq_some, Option.some.injEq] at h
      obtain ⟨hsent, h⟩ := h
      subst h
      cases flushed with
      | true => exact Writer.sim_finish hsim hout hsent
      | false => exact hsim

/-- **Whole runs** of a writer. -/
theorem Writer.sim_run (hm : m.TypesRecords) {is : List (IoEvent Ans)}
    (h : Run.run (Writer.step lib m) { ssl := s₀ } is = some w) :
    w.Sim lib m s₀ (is.flatMap erase) := by
  refine Run.history (R := fun is w => Writer.Sim lib m s₀ (is.flatMap erase) w) ?_ ?_ h
  · intro is v i v' hv hstep
    rw [List.flatMap_append, List.flatMap_singleton]
    exact Writer.sim_step hm hv hstep
  · exact .of_idle rfl rfl (.inl ⟨rfl, rfl⟩)

/-! ## a writer that never blocks -/

/-- A call takes everything, and a flush goes through. -/
def IoEvent.Unblocked : IoEvent Ans → Prop
  | .event _ => True
  | .send a => a.failed = false ∧ a.wnum = 0
  | .postWork flushed => flushed = true

/-- A message that is on its way is through with one call and one flush. -/
theorem Writer.finishes (hsim : w.Sim lib m s₀ es) (hout : w.out = some o)
    (hsent : o.sent = false) :
    ∃ is w', Run.run (Writer.step lib m) w is = some w' ∧ is.flatMap erase = [] ∧
      (∀ i ∈ is, i.Unblocked) ∧ w'.out = none := by
  obtain ⟨es', s, b, s₁, _, _, hs⟩ := hsim.sending hout
  obtain ⟨hrange, hwnum⟩ := hs.range hsent
  have hlen : (((messageData o.mt o.body).drop o.initOff).take o.initNum).length = o.initNum := by
    rw [List.length_take, List.length_drop]
    omega
  have hfits : WriteAnswer.Fits ⟨false, o.initNum, 0⟩ w.wnum
      (((messageData o.mt o.body).drop o.initOff).take o.initNum).length := by
    rw [hlen]
    exact ⟨fun h => by contradiction, hwnum, Nat.le_refl _⟩
  cases hwrite : w.doWrite ⟨false, o.initNum, 0⟩ o with
  | none =>
    simp only [Writer.doWrite, if_pos hfits] at hwrite
    split at hwrite
    · contradiction
    · split at hwrite
      · contradiction
      · split at hwrite <;> contradiction
  | some w₁ =>
    have hstep : w.step lib m (.send ⟨false, o.initNum, 0⟩) = some w₁ := by
      simp [Writer.step, hout, hsent, hwrite]
    have hcases : w₁.out = none ∨ w₁.out = some { o with sent := true } := by
      simp only [Writer.doWrite, if_pos hfits] at hwrite
      split at hwrite
      · contradiction
      · split at hwrite
        · injection hwrite with hwrite
          exact .inl (by rw [← hwrite])
        · rw [if_pos trivial] at hwrite
          injection hwrite with hwrite
          exact .inr (by rw [← hwrite])
    cases hcases with
    | inl hnone =>
      refine ⟨[.send ⟨false, o.initNum, 0⟩], w₁, ?_, rfl, ?_, hnone⟩
      · simp [Run.run, hstep]
      · intro i hi
        rw [List.mem_singleton.mp hi]
        exact ⟨rfl, rfl⟩
    | inr hsome =>
      have hpost : w₁.step lib m (.postWork true) = some (w₁.finish m { o with sent := true }) :=
        by simp [Writer.step, hsome]
      refine ⟨[.send ⟨false, o.initNum, 0⟩, .postWork true], w₁.finish m { o with sent := true },
        ?_, rfl, ?_, rfl⟩
      · simp [Run.run, hstep, hpost]
      · intro i hi
        simp only [List.mem_cons, List.not_mem_nil, or_false] at hi
        cases hi with
        | inl h =>
          rw [h]
          exact ⟨rfl, rfl⟩
        | inr h =>
          rw [h]
          rfl

/-- Every run of the driver is one of a writer that never blocks. -/
theorem Writer.unblocked_exists (hm : m.TypesRecords)
    (h : Run.run (atomicStep lib m) (s₀, []) es = some (t, b)) :
    ∃ is w, Run.run (Writer.step lib m) { ssl := s₀ } is = some w ∧ is.flatMap erase = es ∧
      (∀ i ∈ is, i.Unblocked) ∧ w.out = none ∧ w.ssl = t ∧ w.built = b := by
  induction es using List.reverseRecOn generalizing t b with
  | nil =>
    rw [Run.run_nil] at h
    injection h with h
    injection h with ht hb
    subst ht hb
    exact ⟨[], _, rfl, rfl, by simp, rfl, rfl, rfl⟩
  | append_singleton es e ih =>
    obtain ⟨⟨u, c⟩, hu, he⟩ := Run.run_concat_eq_some.mp h
    obtain ⟨is, w, hrun, heras, hun, hout, hssl, hbuilt⟩ := ih hu
    -- the event can happen to the writer, too
    have hstep : ∃ w₁, w.step lib m (.event e) = some w₁ ∧
        (w₁.out = none ∨ ∃ o, w₁.out = some o ∧ o.sent = false) := by
      simp only [atomicStep, Option.map_eq_some_iff] at he
      obtain ⟨t', ht', _⟩ := he
      rw [← hssl] at ht'
      cases e with
      | write ans =>
        simp only [Tlcp.step, Option.ite_none_right_eq_some] at ht'
        refine ⟨w.begin m ans, by simp [Writer.step, hout, ht'.1], ?_⟩
        unfold Writer.begin
        split
        · exact .inl hout
        · exact .inl hout
        · exact .inr ⟨_, rfl, rfl⟩
      | clear x => exact ⟨{ ssl := t' }, by simp [Writer.step, hout, ht'], .inl rfl⟩
      | _ => exact ⟨{ w with ssl := t' }, by simp [Writer.step, hout, ht'], .inl hout⟩
    obtain ⟨w₁, hw₁, hcases⟩ := hstep
    have hrun₁ := Run.run_concat_eq_some.mpr ⟨w, hrun, hw₁⟩
    have hsim₁ := Writer.sim_run hm hrun₁
    -- and what it writes goes through
    have hthrough : ∃ js w', Run.run (Writer.step lib m) w₁ js = some w' ∧
        js.flatMap erase = [] ∧ (∀ i ∈ js, i.Unblocked) ∧ w'.out = none := by
      cases hcases with
      | inl hnone => exact ⟨[], w₁, rfl, rfl, by simp, hnone⟩
      | inr hsome =>
        obtain ⟨o, ho, hsent⟩ := hsome
        exact Writer.finishes hsim₁ ho hsent
    obtain ⟨js, w', hjs, herasj, hunj, hout'⟩ := hthrough
    have hrun' := Run.run_append_eq_some.mpr ⟨w₁, hrun₁, hjs⟩
    have heras' : (is ++ [IoEvent.event e] ++ js).flatMap erase = es ++ [e] := by
      rw [List.flatMap_append, List.flatMap_append, heras, herasj]
      simp [erase]
    have hend := (Writer.sim_run hm hrun').idle hout'
    rw [heras', h] at hend
    injection hend.1 with hend
    injection hend with ht hb
    refine ⟨_, w', hrun', heras', ?_, hout', ht.symm, hb.symm⟩
    intro i hi
    simp only [List.mem_append, List.mem_singleton] at hi
    obtain (hi | hi) | hi := hi
    · exact hun i hi
    · rw [hi]
      trivial
    · exact hunj i hi

end sim

/-! ## the two endpoints -/

theorem server_typesRecords : (server lib).TypesRecords := by
  intro ans s mt body t h
  obtain ⟨hmt, hst, _⟩ := serverConstructMessage_ok h
  have hne : s.statem.handState ≠ .cwChange := by
    intro hcw
    rw [show (server lib).constructMessage ans = serverConstructMessage lib ans from rfl,
      serverConstructMessage, run_get_bind_ok, hcw] at h
    exact (run_throw_ok.mp h).elim
  rw [SSL.writeType, hst, hmt]
  by_cases hch : s.statem.handState = .swChange
  · simp [hch, serverMsgType]
  · have hmsg : serverMsgType s.statem.handState ≠ .changeCipherSpec := by
      unfold serverMsgType
      split <;> simp_all
    simp [hne, hch, hmsg]

theorem client_typesRecords : (client lib).TypesRecords := by
  intro ans s mt body t h
  obtain ⟨hmt, _, _, _, ⟨cl, hst⟩, _⟩ := clientConstructMessage_ok h
  have hne : s.statem.handState ≠ .swChange := by
    intro hsw
    rw [show (client lib).constructMessage ans = clientConstructMessage lib ans from rfl,
      clientConstructMessage, run_get_bind_ok, hsw] at h
    exact (run_throw_ok.mp h).elim
  rw [SSL.writeType, hst, hmt]
  by_cases hch : s.statem.handState = .cwChange
  · simp [hch, clientMsgType]
  · have hmsg : clientMsgType s.statem.handState ≠ .changeCipherSpec := by
      unfold clientMsgType
      split <;> simp_all
    simp [hne, hch, hmsg]

/-- What it is for a machine that the record layer's blocking cannot be seen:

* when no message is on its way, the object and the messages constructed are
  those of the driver after the same events, and the bytes of each message are
  out, once and in order; of an object that failed, maybe not all of the last;
* while one is, the driver is in the round that constructed it; of its bytes
  those up to a point are out, and those reported as written are hashed, once;
* every run of the driver is one of a writer that never blocks. -/
def BlockingInvisible : Prop :=
  (∀ s₀ is w, Run.run (Writer.step lib m) { ssl := s₀ } is = some w → (w.out = none →
      Run.run (atomicStep lib m) (s₀, []) (is.flatMap erase) = some (w.ssl, w.built) ∧
        w.wire <+: wireAll w.built ∧
        ((∀ e, w.ssl.statem.state ≠ .error e) → w.wire = wireAll w.built)) ∧
    (∀ o, w.out = some o → ∃ es s b s₁, is.flatMap erase = es ++ [.write o.ans] ∧
      Run.run (atomicStep lib m) (s₀, []) es = some (s, b) ∧
      (beginWrite m o.ans).run s = .ok (some (o.mt, o.body)) s₁ ∧
      w.built = b ++ [(o.mt, o.body)] ∧
      w.wire = wireAll b ++ (wireOf o.mt o.body).take (o.position w.wnum) ∧
      ∀ T, Hashes s₁.s3.handshakeDgst s₁.s3.handshakeBuffer T →
        Hashes w.ssl.s3.handshakeDgst w.ssl.s3.handshakeBuffer (T ++ o.hashed))) ∧
  (∀ s₀ es t b, Run.run (atomicStep lib m) (s₀, []) es = some (t, b) →
    ∃ is w, Run.run (Writer.step lib m) { ssl := s₀ } is = some w ∧ is.flatMap erase = es ∧
      (∀ i ∈ is, i.Unblocked) ∧ w.out = none ∧ w.ssl = t ∧ w.built = b)

variable {lib}

theorem Machine.TypesRecords.invisible {lib : Libcrypto X509 Pkey}
    {m : Machine X509 Pkey Ans} (hm : m.TypesRecords) : BlockingInvisible lib m := by
  constructor
  · intro s₀ is w hrun
    have hsim := Writer.sim_run hm hrun
    constructor
    · intro hout
      obtain ⟨hatomic, hdrained⟩ := hsim.idle hout
      refine ⟨hatomic, ?_, ?_⟩
      · cases hdrained with
        | inl hdone =>
          rw [hdone.2]
        | inr hfailed => exact hfailed.2
      · intro hok
        cases hdrained with
        | inl hdone => exact hdone.2
        | inr hfailed =>
          obtain ⟨⟨e, he⟩, _⟩ := hfailed
          exact absurd he (hok e)
    · intro o hout
      obtain ⟨es, s, b, s₁, hes, hatomic, hs⟩ := hsim.sending hout
      exact ⟨es, s, b, s₁, hes, hatomic, hs.begun, hs.built, hs.wire, hs.hashed⟩
  · intro s₀ es t b hrun
    exact Writer.unblocked_exists hm hrun

/-- **Blocking is invisible**, to the NTLS server and to the NTLS client. -/
theorem blocking_invisible (lib : Libcrypto X509 Pkey) :
    BlockingInvisible lib (server lib) ∧ BlockingInvisible lib (client lib) :=
  ⟨(server_typesRecords lib).invisible, (client_typesRecords lib).invisible⟩

end Tlcp
