import Tlcp.Lib.Duplex
import Tlcp.Ntls.ClientAuth
import Tlcp.Ntls.ServerAuth

/-!
# Tlcp.Ntls.Flow

The flow of messages in an NTLS handshake, as both ends see it.

A `Stage` is the last message that was exchanged, with what the handshake has
settled by then: what the hellos agreed on, whether the client was asked for a
certificate, and whether it gave one.  `flow` says whose turn it is at a stage
and which message may come next:

```text
   client                                        server
   ClientHello        ->
                      <-              ServerHello
                      <-              Certificate
                      <-      [CertificateStatus]
                      <-        ServerKeyExchange
                      <-     [CertificateRequest]
                      <-          ServerHelloDone
   [Certificate]      ->
   ClientKeyExchange  ->
   [CertificateVerify]->
   ChangeCipherSpec   ->
   [NextProto]        ->
   Finished           ->
                      <-       [NewSessionTicket]
                      <-         ChangeCipherSpec
                      <-                 Finished
```

In a resumption the server's last three messages come right behind its hello,
and the client's last three end the handshake.
-/

namespace Tlcp

open Octets Duplex

variable {X509 Pkey Ans : Type}

/-! ## stages -/

/-- What the two hellos agree on. -/
structure Agreed where
  hit : Bool
  ticket : Bool
  status : Bool
  npn : Bool
  deriving DecidableEq, Repr

/-- What an endpoint takes to be agreed. -/
def SSL.agreed (s : SSL X509 Pkey) : Agreed :=
  ⟨s.hit, s.ext.ticketExpected, s.ext.statusExpected, s.s3.npnSeen⟩

/-- The last message of a handshake. -/
inductive Stage where
  | start
  | clientHello
  | serverHello (f : Agreed)
  | certificate (f : Agreed)
  | certificateStatus (f : Agreed)
  | serverKeyExchange (f : Agreed)
  | certificateRequest (f : Agreed)
  | serverDone (f : Agreed) (asked : Bool)
  | clientCertificate (f : Agreed) (given : Bool)
  | clientKeyExchange (f : Agreed) (given : Bool)
  | certificateVerify (f : Agreed)
  | clientChange (f : Agreed)
  | nextProto (f : Agreed)
  | clientFinished (f : Agreed)
  | newSessionTicket (f : Agreed)
  | serverChange (f : Agreed)
  | serverFinished (f : Agreed)
  deriving DecidableEq, Repr

/-- Whose turn it is: the client's is on the left. -/
def Stage.turn : Stage → Option Side
  | .start | .serverDone _ _ | .clientCertificate _ _ | .clientKeyExchange _ _
  | .certificateVerify _ | .clientChange _ | .nextProto _ => some .left
  | .clientHello | .serverHello _ | .certificate _ | .certificateStatus _ | .serverKeyExchange _
  | .certificateRequest _ | .newSessionTicket _ | .serverChange _ => some .right
  | .clientFinished f => if f.hit then none else some .right
  | .serverFinished f => if f.hit then some .left else none

/-- What is settled at a stage. -/
def Stage.agreed : Stage → Option Agreed
  | .start | .clientHello => none
  | .serverHello f | .certificate f | .certificateStatus f | .serverKeyExchange f
  | .certificateRequest f | .serverDone f _ | .clientCertificate f _ | .clientKeyExchange f _
  | .certificateVerify f | .clientChange f | .nextProto f | .clientFinished f
  | .newSessionTicket f | .serverChange f | .serverFinished f => some f

/-- A message, by its type and its body. -/
abbrev Msg := MsgType × Bytes

/-- The empty list of certificates. -/
def noCertificates : Bytes := [0, 0, 0]

/-- Which message leads from a stage to which. -/
inductive Stage.Next : Stage → Msg → Stage → Prop where
  | clientHello (b : Bytes) : Next .start (.clientHello, b) .clientHello
  | serverHello (f : Agreed) (b : Bytes) : Next .clientHello (.serverHello, b) (.serverHello f)
  | certificate (f : Agreed) (b : Bytes) (h : f.hit = false) :
      Next (.serverHello f) (.certificate, b) (.certificate f)
  | status (f : Agreed) (b : Bytes) (h : f.status = true) :
      Next (.certificate f) (.certificateStatus, b) (.certificateStatus f)
  | keyExchange (f : Agreed) (b : Bytes) (h : f.status = false) :
      Next (.certificate f) (.serverKeyExchange, b) (.serverKeyExchange f)
  | keyExchangeAfter (f : Agreed) (b : Bytes) :
      Next (.certificateStatus f) (.serverKeyExchange, b) (.serverKeyExchange f)
  | request (f : Agreed) (b : Bytes) :
      Next (.serverKeyExchange f) (.certificateRequest, b) (.certificateRequest f)
  | done (f : Agreed) (b : Bytes) :
      Next (.serverKeyExchange f) (.serverDone, b) (.serverDone f false)
  | doneAfter (f : Agreed) (b : Bytes) :
      Next (.certificateRequest f) (.serverDone, b) (.serverDone f true)
  | clientCertificate (f : Agreed) (b : Bytes) :
      Next (.serverDone f true) (.certificate, b) (.clientCertificate f (decide (b ≠ noCertificates)))
  | clientKeyExchange (f : Agreed) (b : Bytes) :
      Next (.serverDone f false) (.clientKeyExchange, b) (.clientKeyExchange f false)
  | clientKeyExchangeAfter (f : Agreed) (given : Bool) (b : Bytes) :
      Next (.clientCertificate f given) (.clientKeyExchange, b) (.clientKeyExchange f given)
  | verify (f : Agreed) (b : Bytes) :
      Next (.clientKeyExchange f true) (.certificateVerify, b) (.certificateVerify f)
  | clientChange (f : Agreed) (b : Bytes) :
      Next (.clientKeyExchange f false) (.changeCipherSpec, b) (.clientChange f)
  | clientChangeAfter (f : Agreed) (b : Bytes) :
      Next (.certificateVerify f) (.changeCipherSpec, b) (.clientChange f)
  | clientChangeLast (f : Agreed) (b : Bytes) (h : f.hit = true) :
      Next (.serverFinished f) (.changeCipherSpec, b) (.clientChange f)
  | nextProto (f : Agreed) (b : Bytes) (h : f.npn = true) :
      Next (.clientChange f) (.nextProto, b) (.nextProto f)
  | clientFinished (f : Agreed) (b : Bytes) (h : f.npn = false) :
      Next (.clientChange f) (.finished, b) (.clientFinished f)
  | clientFinishedAfter (f : Agreed) (b : Bytes) :
      Next (.nextProto f) (.finished, b) (.clientFinished f)
  | ticket (f : Agreed) (b : Bytes) (h : f.hit = true) (ht : f.ticket = true) :
      Next (.serverHello f) (.newSessionTicket, b) (.newSessionTicket f)
  | ticketLast (f : Agreed) (b : Bytes) (h : f.hit = false) (ht : f.ticket = true) :
      Next (.clientFinished f) (.newSessionTicket, b) (.newSessionTicket f)
  | serverChange (f : Agreed) (b : Bytes) (h : f.hit = true) (ht : f.ticket = false) :
      Next (.serverHello f) (.changeCipherSpec, b) (.serverChange f)
  | serverChangeLast (f : Agreed) (b : Bytes) (h : f.hit = false) (ht : f.ticket = false) :
      Next (.clientFinished f) (.changeCipherSpec, b) (.serverChange f)
  | serverChangeAfter (f : Agreed) (b : Bytes) :
      Next (.newSessionTicket f) (.changeCipherSpec, b) (.serverChange f)
  | serverFinished (f : Agreed) (b : Bytes) :
      Next (.serverChange f) (.finished, b) (.serverFinished f)

/-- A bound on the messages still to come. -/
def Stage.togo : Stage → Nat
  | .start => 17
  | .clientHello => 16
  | .serverHello _ => 15
  | .certificate _ => 14
  | .certificateStatus _ => 13
  | .serverKeyExchange _ => 12
  | .certificateRequest _ => 11
  | .serverDone _ _ => 10
  | .clientCertificate _ _ => 9
  | .clientKeyExchange _ _ => 8
  | .certificateVerify _ => 7
  | .clientChange f => if f.hit then 2 else 6
  | .nextProto f => if f.hit then 1 else 5
  | .clientFinished f => if f.hit then 0 else 4
  | .newSessionTicket f => if f.hit then 5 else 3
  | .serverChange f => if f.hit then 4 else 2
  | .serverFinished f => if f.hit then 3 else 1

section

variable {g : Stage} {f : Agreed} {ms : List Msg} {s t : SSL X509 Pkey}
  {lib : Libcrypto X509 Pkey} {m : Machine X509 Pkey Ans} {e : Event Ans}

theorem Stage.togo_lt {g' : Stage} {m : Msg} (h : g.Next m g') : g'.togo < g.togo := by
  cases h <;> simp only [Stage.togo] <;> first | omega | (split <;> omega) | simp_all

/-- The flow of a handshake. -/
def flow : Protocol Stage Msg where
  turn := Stage.turn
  next := Stage.Next
  togo := Stage.togo
  togo_lt := Stage.togo_lt

/-- The stages that the server's first flight leads through. -/
def Stage.ofFlight (f : Agreed) : Stage → Prop
  | .serverHello f' | .certificate f' | .certificateStatus f' | .serverKeyExchange f'
  | .certificateRequest f' | .serverDone f' _ => f' = f
  | .newSessionTicket f' | .serverChange f' | .serverFinished f' => f' = f ∧ f.hit = true
  | _ => False

theorem Stage.ofFlight_sent {h : Stage} (hg : g.ofFlight f)
    (hs : flow.Sent .right g ms h) : h.ofFlight f := by
  refine hs.invariant (K := Stage.ofFlight f) ?_ hg
  intro g m g' hg hturn hnext
  have hright : g.turn = some .right := hturn
  cases hnext <;> simp_all [Stage.ofFlight, Stage.turn]

theorem Stage.ofFlight_turn (hg : g.ofFlight f) : g.turn ≠ none := by
  cases g <;> simp_all [Stage.ofFlight, Stage.turn]

theorem Stage.ofFlight_agreed (hg : g.ofFlight f) : g.agreed = some f := by
  cases g <;> simp_all [Stage.ofFlight, Stage.agreed]

/-! ## endpoints -/

/-- The message of an entry of the history. -/
def Obs.msg : Obs X509 → Option Msg
  | .accepted mt b | .sent mt b => some (mt, b)
  | .chain _ _ => none

/-- The messages that an endpoint has read and sent. -/
def SSL.messages (s : SSL X509 Pkey) : List Msg := s.trace.filterMap Obs.msg

/-- The message that an entry of the history added to the transcript. -/
def Obs.record : Obs X509 → Option Msg
  | .accepted mt b => if mt ≠ .changeCipherSpec ∧ ¬ isHrr mt b then some (mt, b) else none
  | .sent mt b => if mt ≠ .changeCipherSpec then some (mt, b) else none
  | .chain _ _ => none

/-- The messages in the transcript of an endpoint. -/
def SSL.recorded (s : SSL X509 Pkey) : List Msg := s.trace.filterMap Obs.record

theorem Obs.bytes_eq_record (o : Obs X509) :
    o.bytes = o.record.elim [] fun m => handshakeBytes m.1 m.2 := by
  cases o with
  | accepted mt b =>
    simp only [Obs.bytes, Obs.record]
    split <;> rfl
  | sent mt b =>
    simp only [Obs.bytes, Obs.record]
    split <;> rfl
  | chain _ _ => rfl

/-- The transcript is what the recorded messages are on the wire. -/
theorem transcriptOf_eq_recorded (s : SSL X509 Pkey) :
    transcriptOf s.trace = s.recorded.flatMap fun m => handshakeBytes m.1 m.2 := by
  unfold SSL.recorded
  induction s.trace with
  | nil => rfl
  | cons o tr ih =>
    rw [transcriptOf_cons, ih, Obs.bytes_eq_record]
    cases h : o.record <;> simp [h]

/-- A history without ServerHellos that are left out of the transcript. -/
def Whole (s : SSL X509 Pkey) : Prop :=
  ∀ b, .accepted .serverHello b ∈ s.trace → ¬ isHrr .serverHello b

/-- The transcript of a whole history has every message in it but the
ChangeCipherSpecs. -/
theorem recorded_eq_of_whole (h : Whole s) :
    s.recorded = s.messages.filter fun m => m.1 ≠ .changeCipherSpec := by
  rw [SSL.recorded, SSL.messages, List.filter_filterMap]
  refine List.filterMap_congr fun o ho => ?_
  cases o with
  | accepted mt b =>
    have hhrr : ¬ isHrr mt b := by
      intro hhrr
      have hmt := hhrr.1
      subst hmt
      exact h b ho hhrr
    by_cases hmt : mt = .changeCipherSpec <;> simp [Obs.record, Obs.msg, Option.filter, hmt, hhrr]
  | sent mt b => by_cases hmt : mt = .changeCipherSpec <;> simp [Obs.record, Obs.msg, Option.filter, hmt]
  | chain sk i => rfl

/-- The messages that are sent in a step. -/
def news (s t : SSL X509 Pkey) : List Msg := (t.trace.drop s.trace.length).filterMap fun
    | .sent mt b => some (mt, b)
    | _ => none

theorem messages_append {new : List (Obs X509)}
    (h : t.trace = s.trace ++ new) : t.messages = s.messages ++ new.filterMap Obs.msg := by
  rw [SSL.messages, h, List.filterMap_append, SSL.messages]

theorem news_append {new : List (Obs X509)}
    (h : t.trace = s.trace ++ new) : news s t = new.filterMap fun
      | .sent mt b => some (mt, b)
      | _ => none := by
  rw [news, h, List.drop_left]

/-- Answers of the verifier are no messages. -/
theorem filterMap_chains {μ : Type} {chains : List (Obs X509)} {f : Obs X509 → Option μ}
    (hf : ∀ sk i, f (.chain sk i) = none) (h : ∀ o ∈ chains, ∃ sk i, o = .chain sk i) :
    chains.filterMap f = [] := by
  rw [List.filterMap_eq_nil_iff]
  intro o ho
  obtain ⟨sk, i, hchain⟩ := h o ho
  rw [hchain]
  exact hf sk i

/-- A message that is not answered with `unexpected_message`: the machine has a
transition for it, a ChangeCipherSpec finds a cipher, and a Finished comes
behind a ChangeCipherSpec. -/
structure Expected (m : Machine X509 Pkey Ans) (s : SSL X509 Pkey) (mt : MsgType) : Prop where
  transition : ∃ t, (m.readTransition mt).run s = .ok () t
  cipher : mt = .changeCipherSpec → s.s3.tmp.newCipher.isSome
  change : mt = .finished → s.s3.changeCipherSpec = true

/-- The events that make up one handshake. -/
def Event.ofHandshake : Event Ans → Bool
  | .enter | .recv _ _ _ | .postProcess _ | .write _ => true
  | _ => false

/-- An endpoint in one handshake.  A step that fails ends the handshake, and so
it is not a step here. -/
def endpoint (lib : Libcrypto X509 Pkey) (m : Machine X509 Pkey Ans) :
    Party (SSL X509 Pkey) (Event Ans) Msg where
  takes
    | .recv mt body _ => some (mt, body)
    | _ => none
  step s e := if e.ofHandshake then
      (step lib m s e).bind fun t => if t.live then some (t, news s t) else none
    else none

theorem endpoint_step
    (h : (endpoint lib m).step s e = some (t, ms)) :
    e.ofHandshake = true ∧ step lib m s e = some t ∧ t.live ∧ ms = news s t := by
  simp only [endpoint, Option.ite_none_right_eq_some, Option.bind_eq_some_iff] at h
  obtain ⟨he, t', hstep, hlive, h⟩ := h
  injection h with h
  injection h with ht hms
  subst ht
  exact ⟨he, hstep, hlive, hms.symm⟩

/-- An event that reads no message: the endpoint is entered, works or writes. -/
theorem endpoint_act
    (htakes : (endpoint lib m).takes e = none)
    (h : (endpoint lib m).step s e = some (t, ms)) :
    (s.inBefore ∧ s.renegotiate = false ∧ (enterFresh m.isServer).run s = .ok () t) ∨
      (s.statem.state = .finished ∧ s.statem.inInit = true) ∨
      (∃ wst ans, e = .postProcess ans ∧ s.statem.state = .reading ∧
        s.statem.readState = .postProcess wst ∧ (postProcessRound m wst ans).run s = .ok () t) ∨
      ∃ ans, e = .write ans ∧ s.statem.state = .writing ∧ (writeRound m ans).run s = .ok () t := by
  obtain ⟨he, hstep, hlive, _⟩ := endpoint_step h
  cases step_some hstep with
  | fresh hbefore hren => exact .inl ⟨hbefore, hren, settle_live hlive⟩
  | again hfin hinit => exact .inr (.inl ⟨hfin, hinit⟩)
  | post wst ans hst hrs => exact .inr (.inr (.inl ⟨wst, ans, rfl, hst, hrs, settle_live hlive⟩))
  | write ans hst => exact .inr (.inr (.inr ⟨ans, rfl, hst, settle_live hlive⟩))
  | recv => simp [endpoint] at htakes
  | _ => simp [Event.ofHandshake] at he

/-- An event that reads a message. -/
theorem endpoint_read {mt : MsgType} {body : Bytes}
    (htakes : (endpoint lib m).takes e = some (mt, body))
    (h : (endpoint lib m).step s e = some (t, ms)) :
    ∃ ans, e = .recv mt body ans ∧ s.statem.state = .reading ∧ s.statem.readState = .header ∧
      (readMessage lib m mt body ans).run s = .ok () t := by
  obtain ⟨_, hstep, hlive, _⟩ := endpoint_step h
  cases e with
  | recv mt' body' ans =>
    injection htakes with hm
    injection hm with hmt hbody
    subst hmt hbody
    exact ⟨ans, rfl, step_recv hstep hlive⟩
  | _ => simp [endpoint] at htakes

/-- An endpoint before its first handshake. -/
structure Unused (s : SSL X509 Pkey) : Prop where
  before : s.inBefore
  trace : s.trace = []

/-- An endpoint after its handshake. -/
structure Established (s : SSL X509 Pkey) : Prop where
  state : s.statem.state = .finished
  ok : s.statem.handState = .ok
  idle : s.statem.inInit = false

/-- How an endpoint is seen, of which `At` is known while it is in a handshake,
and `Past` after it. -/
def endpointView (At : SSL X509 Pkey → Stage → Prop) (Past : SSL X509 Pkey → Prop) :
    View (SSL X509 Pkey) Stage Msg where
  At s g := (g = .start ∧ Unused s) ∨ At s g ∨ (g.turn = none ∧ Established s ∧ Past s)
  log := SSL.messages
  slack s := match s.statem.state, s.statem.readState with
    | .uninited, _ => 4
    | .reading, .postProcess _ => 3
    | .writing, _ => 2
    | .reading, .header => 1
    | _, _ => 0
  again s := s.statem.state = .reading ∧ s.statem.readState ≠ .header
  waits s := s.statem.state = .reading ∧ s.statem.readState = .header
  done s := s.statem.state = .finished

end

/-- What a machine has to keep to in a handshake, next to a party that is seen
as `W`. -/
structure Machine.Follows (lib : Libcrypto X509 Pkey) (m : Machine X509 Pkey Ans) (d : Side)
    (At : SSL X509 Pkey → Stage → Prop) (Past : SSL X509 Pkey → Prop)
    (W : View (SSL X509 Pkey) Stage Msg)
    (C : SSL X509 Pkey → SSL X509 Pkey → Event Ans → Prop) : Prop where
  live {s g} : At s g → s.statem.state = .writing ∨ s.statem.state = .reading
  waits {s g} : At s g → s.statem.state = .reading → s.statem.readState = .header →
    g.turn = some d.other
  enter {s t} : (enterFresh m.isServer).run s = .ok () t → s.renegotiate = false →
    At t .start ∧ t.trace = [] ∧ t.statem.state = .writing
  post {s t g wst ans} : At s g → s.statem.state = .reading →
    s.statem.readState = .postProcess wst → (postProcessRound m wst ans).run s = .ok () t →
    At t g ∧ ∃ chains, (∀ o ∈ chains, ∃ sk i, o = .chain sk i) ∧ t.trace = s.trace ++ chains
  write {s t u g ans} : At s g → C s u (.write ans) → s.statem.state = .writing →
    (writeRound m ans).run s = .ok () t →
    (t.trace = s.trace ∧ ((At t g ∧ t.statem.state = .reading ∧ t.statem.readState = .header) ∨
        (g.turn = none ∧ Established t ∧ Past t))) ∨
      ∃ mt body g', t.trace = s.trace ++ [.sent mt body] ∧ g.turn = some d ∧
        g.Next (mt, body) g' ∧ At t g'
  read {s t u g g' h mt body ans queue} : At s g → g.turn = some d.other → g.Next (mt, body) g' →
    flow.Sent d.other g' queue h → W.At u h → C s u (.recv mt body ans) →
    s.statem.state = .reading → s.statem.readState = .header →
    (readMessage lib m mt body ans).run s = .ok () t →
    At t g' ∧ ∃ chains, (∀ o ∈ chains, ∃ sk i, o = .chain sk i) ∧
      t.trace = s.trace ++ (chains ++ [.accepted mt body])

section follows

variable {lib : Libcrypto X509 Pkey} {m : Machine X509 Pkey Ans} {d : Side}
  {At : SSL X509 Pkey → Stage → Prop} {Past : SSL X509 Pkey → Prop}
  {W : View (SSL X509 Pkey) Stage Msg}
  {C : SSL X509 Pkey → SSL X509 Pkey → Event Ans → Prop} {s t u : SSL X509 Pkey}
  {g : Stage} {e : Event Ans} {ms : List Msg}

/-- A step after which the history is the same up to answers of the verifier
is one without a message. -/
theorem silent (chains : List (Obs X509)) (hchains : ∀ o ∈ chains, ∃ sk i, o = .chain sk i)
    (htrace : t.trace = s.trace ++ chains) : news s t = [] ∧ t.messages = s.messages := by
  constructor
  · rw [news_append htrace]
    exact filterMap_chains (fun _ _ => rfl) hchains
  · rw [messages_append htrace, filterMap_chains (fun _ _ => rfl) hchains, List.append_nil]

/-- Before the handshake an endpoint can only be entered. -/
theorem Machine.Follows.act_unused (hm : m.Follows lib d At Past W C) (hs : Unused s)
    (htakes : (endpoint lib m).takes e = none) (hstep : (endpoint lib m).step s e = some (t, ms)) :
    At t .start ∧ t.trace = [] ∧ t.statem.state = .writing := by
  have hstate := hs.before.2
  rcases endpoint_act htakes hstep with ⟨_, hquiet, henter⟩ | ⟨hfin, _⟩ |
    ⟨_, _, _, hread, _⟩ | ⟨_, _, hwrite, _⟩
  · exact hm.enter henter hquiet
  · simp [hstate] at hfin
  · simp [hstate] at hread
  · simp [hstate] at hwrite

/-- After the handshake there is nothing to do. -/
theorem Established.no_act (hs : Established s) (htakes : (endpoint lib m).takes e = none)
    (hstep : (endpoint lib m).step s e = some (t, ms)) : False := by
  rcases endpoint_act htakes hstep with ⟨hbefore, _⟩ | ⟨_, hinit⟩ |
    ⟨_, _, _, hread, _⟩ | ⟨_, _, hwrite, _⟩
  · exact absurd (hs.ok.symm.trans hbefore.1) (by simp)
  · simp [hs.idle] at hinit
  · simp [hs.state] at hread
  · simp [hs.state] at hwrite

/-- In the handshake an endpoint works or writes. -/
theorem Machine.Follows.act_at (hm : m.Follows lib d At Past W C) (hs : At s g) (hc : C s u e)
    (htakes : (endpoint lib m).takes e = none) (hstep : (endpoint lib m).step s e = some (t, ms)) :
    (ms = [] ∧ (endpointView At Past).At t g ∧ t.messages = s.messages ∧
        ((endpointView At Past).slack t < (endpointView At Past).slack s ∨
          ((endpointView At Past).again t ∧ (endpointView At Past).slack t ≤ (endpointView At Past).slack s))) ∨
      ∃ msg g', ms = [msg] ∧ g.turn = some d ∧ g.Next msg g' ∧ At t g' ∧
        t.messages = s.messages ++ [msg] := by
  obtain ⟨_, _, _, hnews⟩ := endpoint_step hstep
  have hlive := hm.live hs
  rcases endpoint_act htakes hstep with ⟨hbefore, _⟩ | ⟨hfin, _⟩ |
    ⟨wst, ans, _, hread, hpost, hround⟩ | ⟨ans, he, hwrite, hround⟩
  · simp [hbefore.2] at hlive
  · simp [hfin] at hlive
  · obtain ⟨hat, chains, hchains, htrace⟩ := hm.post hs hread hpost hround
    obtain ⟨hnone, hmsgs⟩ := silent chains hchains htrace
    refine .inl ⟨hnews.trans hnone, .inr (.inl hat), hmsgs, ?_⟩
    rcases hm.live hat with hw | hr
    · exact .inl (by simp [endpointView, hread, hpost, hw])
    · cases hrs : t.statem.readState with
      | header => exact .inl (by simp [endpointView, hread, hpost, hr, hrs])
      | postProcess w => exact .inr (by simp [endpointView, hread, hpost, hr, hrs])
  · subst he
    rcases hm.write hs hc hwrite hround with ⟨htrace, hmore⟩ |
      ⟨mt, body, g', htrace, hturn, hnext, hat⟩
    · obtain ⟨hnone, hmsgs⟩ := silent [] (by simp) (htrace.trans (List.append_nil _).symm)
      refine .inl ⟨hnews.trans hnone, .inr (hmore.imp_left And.left), hmsgs, .inl ?_⟩
      rcases hmore with ⟨_, hr, hh⟩ | ⟨_, hend, _⟩
      · simp [endpointView, hwrite, hr, hh]
      · simp [endpointView, hwrite, hend.state]
    · exact .inr ⟨(mt, body), g', hnews.trans (news_append htrace), hturn, hnext, hat,
        messages_append htrace⟩

/-- **An endpoint keeps to the flow** if its machine does. -/
theorem Machine.Follows.endpoint (hm : m.Follows lib d At Past W C) :
    Duplex.Follows flow d (endpoint lib m) (endpointView At Past) W C where
  act {s t u g e ms} htakes hs hc hstep := by
    rcases hs with ⟨hg, hunused⟩ | hat | ⟨_, hend, _⟩
    · obtain ⟨_, _, _, hnews⟩ := endpoint_step hstep
      obtain ⟨hat, htrace, hwriting⟩ := hm.act_unused hunused htakes hstep
      have hnew : t.trace = s.trace ++ [] := by rw [htrace, hunused.trace, List.append_nil]
      obtain ⟨hnone, hmsgs⟩ := silent [] (by simp) hnew
      subst hg
      exact .inl ⟨hnews.trans hnone, .inr (.inl hat), hmsgs,
        .inl (by simp [endpointView, hunused.before.2, hwriting])⟩
    · rcases hm.act_at hat hc htakes hstep with hquiet | ⟨msg, g', hms, hturn, hnext, hat', hlog⟩
      · exact .inl hquiet
      · exact .inr ⟨msg, g', hms, hturn, hnext, .inr (.inl hat'), hlog⟩
    · exact (hend.no_act htakes hstep).elim
  read {s t u g g' h e msg ms queue} htakes hs hturn hnext hsent hu hc hstep := by
    obtain ⟨mt, body⟩ := msg
    obtain ⟨_, _, _, hnews⟩ := endpoint_step hstep
    obtain ⟨ans, he, hread, hheader, hround⟩ := endpoint_read htakes hstep
    subst he
    rcases hs with ⟨_, hunused⟩ | hat | ⟨_, hend, _⟩
    · simp [hunused.before.2] at hread
    · obtain ⟨hat', chains, hchains, htrace⟩ :=
        hm.read hat hturn hnext hsent hu hc hread hheader hround
      refine ⟨?_, .inr (.inl hat'), ?_⟩
      · rw [hnews, news_append htrace, List.filterMap_append,
          filterMap_chains (fun _ _ => rfl) hchains]
        rfl
      · refine (messages_append htrace).trans ?_
        rw [List.filterMap_append, filterMap_chains (fun _ _ => rfl) hchains]
        rfl
    · simp [hend.state] at hread
  slack_le s := by
    simp only [endpointView]
    split <;> omega
  waits {s g} hs hw := by
    obtain ⟨hread, hheader⟩ := hw
    rcases hs with ⟨_, hunused⟩ | hat | ⟨_, hend, _⟩
    · simp [hunused.before.2] at hread
    · exact hm.waits hat hread hheader
    · simp [hend.state] at hread
  done {s g} hs hd := by
    rcases hs with ⟨_, hunused⟩ | hat | ⟨hg, _⟩
    · exact absurd (hunused.before.2.symm.trans hd) (by simp)
    · rcases hm.live hat with hw | hr
      · exact absurd (hw.symm.trans hd) (by simp)
      · exact absurd (hr.symm.trans hd) (by simp)
    · exact hg

end follows

end Tlcp
