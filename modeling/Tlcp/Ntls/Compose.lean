import Tlcp.Ntls.ClientFlow
import Tlcp.Ntls.ServerFlow

/-!
# Tlcp.Ntls.Compose

An NTLS client and an NTLS server, joined by two queues of messages.

Both keep to the same `flow`, so the pair does what `Tlcp.Lib.Duplex` says of
two parties of one protocol: no message is unexpected, the two never wait for
each other, and they end with the same transcript.

Two conditions are on the run.  `Agreeing` is what the hellos are for: that
the client takes from the ServerHello what the server settled on.  `Sound`
leaves out the two inputs at which the machines go apart:

* a client that was asked for a certificate and has one to sign with, but not
  the one for encryption: it sends an empty list and then a CertificateVerify,
  which the server does not expect;
* a server that drew the random by which TLS 1.3 marks a HelloRetryRequest:
  the client leaves that ServerHello out of its transcript.
-/

namespace Tlcp

open Octets Duplex

variable {X509 Pkey : Type} {lib : Libcrypto X509 Pkey}

/-- The client and the server with what is under way between them. -/
abbrev Pair (X509 Pkey : Type) := Link (SSL X509 Pkey) (SSL X509 Pkey) Msg

/-- A step of one of the two. -/
abbrev PairMove (X509 Pkey : Type) :=
  Move (Event (ClientAnswers X509 Pkey)) (Event (ServerAnswers X509))

variable (lib)

/-- One move of the pair. -/
def pairStep : Pair X509 Pkey → PairMove X509 Pkey → Option (Pair X509 Pkey) :=
  Duplex.step (endpoint lib (client lib)) (endpoint lib (server lib))

/-- How the client is seen. -/
def clientView : View (SSL X509 Pkey) Stage Msg := endpointView ClientAt Synced

/-- How the server is seen. -/
def serverView : View (SSL X509 Pkey) Stage Msg :=
  endpointView ServerAt fun s => Synced s ∧ HellosKept s.trace

variable {Ans : Type} {s : SSL X509 Pkey}

def Event.isWrite : Event Ans → Bool
  | .write _ => true
  | _ => false

/-- The ServerHello that an event reads. -/
def Event.helloRead : Event Ans → Option (Bytes × Ans)
  | .recv .serverHello body ans => some (body, ans)
  | _ => none

/-- The client takes from a ServerHello what the server has settled on. -/
def Agreeing (p : Pair X509 Pkey) : PairMove X509 Pkey → Prop
  | .left a => ∀ body ans, a.helloRead = some (body, ans) →
      ∀ t, (readMessage lib (client lib) .serverHello body ans).run p.left = .ok () t →
        t.agreed = p.right.agreed
  | .right _ => True

/-- Where the client writes it has both its certificates, if it was asked for
them; where the server writes its hello, its random is no mark. -/
def Sound (p : Pair X509 Pkey) : PairMove X509 Pkey → Prop
  | .left a => a.isWrite → Equipped p.left
  | .right b => b.isWrite → ¬ Marked p.right

/-- A move after which its party need not be called again to end its work. -/
def prompt : Pair X509 Pkey → PairMove X509 Pkey → Prop :=
  Prompt (endpoint lib (client lib)) (endpoint lib (server lib)) clientView serverView

/-- One side has nothing to do: it waits for a message and there is none, or it
has finished. -/
def Idle (s : SSL X509 Pkey) (queue : List Msg) : Prop :=
  (s.statem.state = .reading ∧ s.statem.readState = .header ∧ queue = []) ∨
    s.statem.state = .finished

/-- The event is up next for an endpoint with that queue. -/
def Event.due (s : SSL X509 Pkey) (queue : List Msg) : Event Ans → Prop
  | .enter => s.inBefore
  | .recv mt body _ =>
    s.statem.state = .reading ∧ s.statem.readState = .header ∧ queue.head? = some (mt, body)
  | .postProcess _ => s.statem.state = .reading ∧ s.statem.readState ≠ .header
  | .write _ => s.statem.state = .writing
  | _ => False

/-- The event comes to nothing: it ends in an error, or the endpoint asks to be
called again. -/
def Event.fails (m : Machine X509 Pkey Ans) (s : SSL X509 Pkey) (e : Event Ans) : Prop :=
  ∀ t, step lib m s e = some t → ¬ t.live ∨ ((endpoint lib m).takes e = none ∧
    t.statem.state = .reading ∧ t.statem.readState ≠ .header)

/-- The move is up next in the pair. -/
def dueMove (p : Pair X509 Pkey) : PairMove X509 Pkey → Prop
  | .left a => a.due p.left p.toLeft
  | .right b => b.due p.right p.toRight

/-- It comes to nothing. -/
def failsMove (p : Pair X509 Pkey) : PairMove X509 Pkey → Prop
  | .left a => a.fails lib (client lib) p.left
  | .right b => b.fails lib (server lib) p.right

/-- Both ends are at `TLS_ST_OK`, they recorded the same messages, and hash the
same bytes. -/
structure Completed (p : Pair X509 Pkey) : Prop where
  left : Established p.left
  right : Established p.right
  recorded : p.left.recorded = p.right.recorded
  synced : Synced p.left ∧ Synced p.right
  transcript : p.left.transcript = p.right.transcript

/-- The handshake is over: it is completed; or something is to be done, and
whatever it is comes to nothing with every answer of its party's surroundings
that the hellos and the two conditions admit. -/
def Over (p : Pair X509 Pkey) : Prop :=
  Completed p ∨ ((∃ e, dueMove p e) ∧
    ∀ e, dueMove p e → Agreeing lib p e → Sound p e → failsMove lib p e)

/-- The surroundings of the two have an answer, wherever something is to be done,
with which it does not come to nothing. -/
def Willing (p : Pair X509 Pkey) : Prop :=
  ∀ es q, Run.Meets (pairStep lib) (fun p e => Agreeing lib p e ∧ Sound p e) p es →
    Run.run (pairStep lib) p es = some q → (∃ e, dueMove q e) →
    ∃ e, dueMove q e ∧ Agreeing lib q e ∧ Sound q e ∧ ¬ failsMove lib q e

/-! ## the two views -/

/-- While its first flight is under way, the server's flags are those of the
flow. -/
theorem serverView_agreed {u : SSL X509 Pkey} {h : Stage} {f : Agreed}
    (hu : serverView.At u h) (hf : h.ofFlight f) : u.agreed = f := by
  rcases hu with ⟨hstart, _⟩ | hat | ⟨hturn, _⟩
  · rw [hstart] at hf
    simp [Stage.ofFlight] at hf
  · exact (hat.agreed f (Stage.ofFlight_agreed hf)).1
  · exact absurd hturn (Stage.ofFlight_turn hf)

theorem client_endpoint_follows :
    Duplex.Follows flow .left (endpoint lib (client lib)) clientView serverView (clientMay lib) :=
  (client_follows lib serverView_agreed).endpoint

theorem server_endpoint_follows :
    Duplex.Follows flow .right (endpoint lib (server lib)) serverView clientView serverMay :=
  (server_follows lib clientView).endpoint

variable {lib}

theorem allowed_of_sound {p : Pair X509 Pkey} {e : PairMove X509 Pkey}
    (ha : Agreeing lib p e) (hs : Sound p e) : Allowed (clientMay lib) serverMay p e := by
  cases e with
  | left a =>
    cases a with
    | write ans => exact hs rfl
    | recv mt body ans =>
      cases mt with
      | serverHello => exact ha body ans rfl
      | _ => trivial
    | _ => trivial
  | right b =>
    cases b with
    | write ans => exact hs rfl
    | _ => trivial

theorem allowed_run {p : Pair X509 Pkey} {es : List (PairMove X509 Pkey)}
    (ha : Run.Meets (pairStep lib) (Agreeing lib) p es) (hs : Run.Meets (pairStep lib) Sound p es) :
    Run.Meets (pairStep lib) (Allowed (clientMay lib) serverMay) p es :=
  Run.Meets.and_imp (fun _ _ => allowed_of_sound) ha hs

/-! ## what a pair keeps -/

/-- Two endpoints before their handshake are joined. -/
theorem joined_start {c : SSL X509 Pkey} (hc : Unused c) (hs : Unused s) :
    Link.Joined flow clientView serverView ⟨c, s, [], []⟩ 178 := by
  refine .inl ⟨.start, .start, .inl ⟨rfl, hc⟩, .inl ⟨rfl, hs⟩, .nil _, rfl, ?_, ?_⟩
  · change s.messages = c.messages ++ []
    rw [SSL.messages, SSL.messages, hc.trace, hs.trace]
    rfl
  · have hslackc : clientView.slack c = 4 := by
      simp [clientView, endpointView, hc.before.2]
    have hslacks : serverView.slack s = 4 := by
      simp [serverView, endpointView, hs.before.2]
    rw [hslackc, hslacks]
    decide

variable {p : Pair X509 Pkey} {n : Nat}

/-- The client can do with what is in its queue. -/
theorem client_expects {mt : MsgType} {body : Bytes} {rest : List Msg}
    (hj : p.Joined flow clientView serverView n) (hqueue : p.toLeft = (mt, body) :: rest) :
    Expected (client lib) p.left mt := by
  rw [Link.Joined, hqueue] at hj
  obtain ⟨g, g', hat, hturn, hnext⟩ := Duplex.Joined.expected hj
  have hright : g.turn = some .right := hturn
  rcases hat with ⟨hstart, _⟩ | hat | ⟨hnone, _⟩
  · simp [hstart, Stage.turn] at hright
  · exact hat.expected hright hnext
  · simp [hnone] at hright

/-- The server can do with what is in its queue. -/
theorem server_expects {mt : MsgType} {body : Bytes} {rest : List Msg}
    (hj : p.Joined flow clientView serverView n) (hqueue : p.toRight = (mt, body) :: rest) :
    Expected (server lib) p.right mt := by
  have hsym := Duplex.Joined.symm hj
  rw [hqueue] at hsym
  obtain ⟨g, g', hat, hturn, hnext⟩ := Duplex.Joined.expected hsym
  have hleft : g.turn = some .left := hturn
  rcases hat with ⟨hstart, hunused⟩ | hat | ⟨hnone, _⟩
  · subst hstart
    exact hunused.expected hnext
  · exact hat.expected hleft hnext
  · simp [hnone] at hleft

/-- An endpoint that has finished is established. -/
theorem established_of_done {At : SSL X509 Pkey → Stage → Prop} {Past : SSL X509 Pkey → Prop} {g : Stage}
    (hlive : ∀ {s g}, At s g → s.statem.state = .writing ∨ s.statem.state = .reading)
    (hat : (endpointView At Past).At s g) (hdone : s.statem.state = .finished) :
    Established s ∧ Past s := by
  rcases hat with ⟨_, hunused⟩ | hat | ⟨_, hend⟩
  · exact absurd (hunused.before.2.symm.trans hdone) (by simp)
  · have h := hlive hat
    simp [hdone] at h
  · exact hend

/-- Each of the two is at some stage. -/
theorem joined_at (hj : p.Joined flow clientView serverView n) :
    (∃ g, clientView.At p.left g) ∧ ∃ g, serverView.At p.right g := by
  cases hj with
  | inl hb =>
    obtain ⟨g, h, hc, hs, _⟩ := hb
    exact ⟨⟨g, hc⟩, ⟨h, hs⟩⟩
  | inr hb =>
    obtain ⟨g, h, hs, hc, _⟩ := hb
    exact ⟨⟨h, hc⟩, ⟨g, hs⟩⟩

/-- Two sides with nothing to do are both established. -/
theorem established_of_idle (lib : Libcrypto X509 Pkey) (hj : p.Joined flow clientView serverView n)
    (hc : Idle p.left p.toLeft) (hs : Idle p.right p.toRight) :
    (Established p.left ∧ Synced p.left) ∧
      Established p.right ∧ Synced p.right ∧ HellosKept p.right.trace := by
  have hc' : (clientView.waits p.left ∧ p.toLeft = []) ∨ clientView.done p.left :=
    hc.imp_left fun h => ⟨⟨h.1, h.2.1⟩, h.2.2⟩
  have hs' : (serverView.waits p.right ∧ p.toRight = []) ∨ serverView.done p.right :=
    hs.imp_left fun h => ⟨⟨h.1, h.2.1⟩, h.2.2⟩
  obtain ⟨hcd, hsd⟩ :=
    hj.progress (client_endpoint_follows lib) (server_endpoint_follows lib) hc' hs'
  obtain ⟨⟨g, hcg⟩, ⟨h, hsh⟩⟩ := joined_at hj
  exact ⟨established_of_done (fun hat => hat.turn.imp_right And.left) hcg hcd,
    established_of_done (fun hat => hat.turn.imp_right And.left) hsh hsd⟩

/-- Two sides that have finished have the same transcript. -/
theorem recorded_eq (lib : Libcrypto X509 Pkey) (hj : p.Joined flow clientView serverView n)
    (hc : p.left.statem.state = .finished) (hs : p.right.statem.state = .finished)
    (hkept : HellosKept p.right.trace) : p.left.recorded = p.right.recorded := by
  have hmsgs : p.left.messages = p.right.messages :=
    hj.agree (client_endpoint_follows lib) (server_endpoint_follows lib) hc hs
  have hwhole : Whole p.left := by
    intro b hb
    have hmem : (.serverHello, b) ∈ p.right.messages := by
      rw [← hmsgs, SSL.messages, List.mem_filterMap]
      exact ⟨_, hb, rfl⟩
    rw [SSL.messages, List.mem_filterMap] at hmem
    obtain ⟨o, ho, hmsg⟩ := hmem
    cases o with
    | accepted mt b' =>
      injection hmsg with hmsg
      injection hmsg with hmt
      subst hmt
      exact (hkept.read b' ho).elim
    | sent mt b' =>
      injection hmsg with hmsg
      injection hmsg with hmt hb'
      subst hmt hb'
      exact hkept.sent b' ho
    | chain sk i => simp [Obs.msg] at hmsg
  have hwhole' : Whole p.right := fun b hb => (hkept.read b hb).elim
  rw [recorded_eq_of_whole hwhole, recorded_eq_of_whole hwhole', hmsgs]

/-- Two sides with nothing to do have completed the handshake. -/
theorem completed_of_idle (lib : Libcrypto X509 Pkey) (hj : p.Joined flow clientView serverView n)
    (hc : Idle p.left p.toLeft) (hs : Idle p.right p.toRight) : Completed p := by
  obtain ⟨⟨hce, hcs⟩, hse, hss, hkept⟩ := established_of_idle lib hj hc hs
  have hrec := recorded_eq lib hj hce.state hse.state hkept
  refine ⟨hce, hse, hrec, ⟨hcs, hss⟩, ?_⟩
  calc p.left.transcript
      = transcriptOf p.left.trace := hcs.transcript
    _ = p.left.recorded.flatMap fun m => handshakeBytes m.1 m.2 := transcriptOf_eq_recorded _
    _ = transcriptOf p.right.trace := by rw [hrec, transcriptOf_eq_recorded]
    _ = p.right.transcript := hss.transcript.symm

/-! ## the end of a run -/

/-- An endpoint with nothing up next is idle. -/
theorem idle_of_not_due (ans : Ans) {At : SSL X509 Pkey → Stage → Prop}
    {Past : SSL X509 Pkey → Prop} {g : Stage} {queue : List Msg}
    (hlive : ∀ {s g}, At s g → s.statem.state = .writing ∨ s.statem.state = .reading)
    (hat : (endpointView At Past).At s g) (h : ∀ e : Event Ans, ¬ e.due s queue) :
    Idle s queue := by
  rcases hat with ⟨_, hunused⟩ | hat | ⟨_, hend, _⟩
  · exact absurd hunused.before (h .enter)
  · cases hlive hat with
    | inl hwriting => exact absurd hwriting (h (.write ans))
    | inr hreading =>
      by_cases hrs : s.statem.readState = .header
      · cases queue with
        | nil => exact .inl ⟨hreading, hrs, rfl⟩
        | cons m rest => exact absurd ⟨hreading, hrs, rfl⟩ (h (.recv m.1 m.2 ans))
      · exact absurd ⟨hreading, hrs⟩ (h (.postProcess ans))
  · exact .inr hend.state

/-- An event that is up next and does not come to nothing is a step. -/
theorem endpoint_of_due {m : Machine X509 Pkey Ans}
    {queue : List Msg} {e : Event Ans} (hdue : e.due s queue) (h : ¬ e.fails lib m s) :
    ∃ t rest, take ((endpoint lib m).takes e) queue = some rest ∧
      (endpoint lib m).step s e = some (t, news s t) ∧
      ((endpoint lib m).takes e = none →
        ¬ (t.statem.state = .reading ∧ t.statem.readState ≠ .header)) := by
  simp only [Event.fails, not_forall, not_or, not_not] at h
  obtain ⟨t, hstep, hlive, hagain⟩ := h
  have hof : e.ofHandshake = true := by
    cases e <;> first | rfl | exact hdue.elim
  have hq : ∃ rest, take ((endpoint lib m).takes e) queue = some rest := by
    cases e with
    | recv mt body ans =>
      obtain ⟨_, _, hhead⟩ := hdue
      obtain ⟨rest, hqueue⟩ := List.head?_eq_some_iff.mp hhead
      subst hqueue
      exact ⟨rest, by simp [endpoint, take]⟩
    | _ => exact ⟨queue, rfl⟩
  obtain ⟨rest, hrest⟩ := hq
  refine ⟨t, rest, hrest, ?_, fun htakes hag => hagain ⟨htakes, hag⟩⟩
  simp [endpoint, hof, hstep, hlive]

variable (lib)

/-- A pair with no move left, but those that come to nothing, is at its end. -/
theorem over_of_no_move (hj : p.Joined flow clientView serverView n)
    (h : ∀ e q, (Agreeing lib p e ∧ Sound p e) → prompt lib p e → pairStep lib p e ≠ some q) :
    Over lib p := by
  by_cases hdue : ∃ e, dueMove p e
  · refine .inr ⟨hdue, fun e he ha hs => ?_⟩
    cases e with
    | left a =>
      by_contra hfails
      obtain ⟨t, rest, htake, hstep, hagain⟩ := endpoint_of_due he hfails
      have hmove : pairStep lib p (.left a) =
          some { p with left := t, toLeft := rest, toRight := p.toRight ++ news p.left t } := by
        simp [pairStep, Duplex.step, htake, hstep]
      refine h (.left a) _ ⟨ha, hs⟩ ?_ hmove
      intro q hq htakes
      have hq : pairStep lib p (.left a) = some q := hq
      rw [hmove] at hq
      injection hq with hq
      subst hq
      exact hagain htakes
    | right b =>
      by_contra hfails
      obtain ⟨t, rest, htake, hstep, hagain⟩ := endpoint_of_due he hfails
      have hmove : pairStep lib p (.right b) =
          some { p with right := t, toRight := rest, toLeft := p.toLeft ++ news p.right t } := by
        simp [pairStep, Duplex.step, htake, hstep]
      refine h (.right b) _ ⟨ha, hs⟩ ?_ hmove
      intro q hq htakes
      have hq : pairStep lib p (.right b) = some q := hq
      rw [hmove] at hq
      injection hq with hq
      subst hq
      exact hagain htakes
  · obtain ⟨⟨g, hcg⟩, ⟨g', hsg⟩⟩ := joined_at hj
    have hc : Idle p.left p.toLeft :=
      idle_of_not_due ({} : ClientAnswers X509 Pkey) (fun hat => hat.turn.imp_right And.left)
        hcg fun a ha => hdue ⟨.left a, ha⟩
    have hs : Idle p.right p.toRight :=
      idle_of_not_due ({} : ServerAnswers X509) (fun hat => hat.turn.imp_right And.left)
        hsg fun b hb => hdue ⟨.right b, hb⟩
    exact .inl (completed_of_idle lib hj hc hs)

/-! ## the pair -/

instance (p : Pair X509 Pkey) (e : PairMove X509 Pkey) : Decidable (Agreeing lib p e) :=
  match e with
  | .right _ => isTrue trivial
  | .left a =>
    match ha : a.helloRead with
    | none => isTrue (by simp [Agreeing, ha])
    | some (body, ans) =>
      match hr : (readMessage lib (client lib) .serverHello body ans).run p.left with
      | .ok _ t => decidable_of_iff (t.agreed = p.right.agreed) (by simp [Agreeing, ha, hr])
      | .error _ _ => isTrue (by simp [Agreeing, ha, hr])

variable {lib}

instance (c : SSL X509 Pkey) : Decidable (Equipped c) :=
  decidable_of_iff (c.statem.handState = .crSrvrDone → c.s3.tmp.certReq = 1 →
    c.s3.tmp.sigalg.any fun sa =>
      (sa.slots c.cert).1.x509.isSome && (sa.slots c.cert).2.x509.isSome) (by
    simp [Equipped, Option.any_eq_true, Option.isSome_iff_exists])

instance (s : SSL X509 Pkey) : Decidable (Marked s) := inferInstanceAs (Decidable (_ ∧ _))

instance (p : Pair X509 Pkey) (e : PairMove X509 Pkey) : Decidable (Sound p e) := match e with
  | .left a => inferInstanceAs (Decidable (a.isWrite → Equipped p.left))
  | .right b => inferInstanceAs (Decidable (b.isWrite → ¬ Marked p.right))

instance (s : SSL X509 Pkey) (queue : List Msg) : Decidable (Idle s queue) :=
  inferInstanceAs (Decidable (_ ∨ _))

/-- A client with a certificate to sign with, and the given one for
encryption. -/
def pairClient (enc : Option Bytes) : SSL Bytes (String × Bytes) :=
  { plainClient with cert := { sm2Sign := ⟨some [0, 5], some ("SM2", [5])⟩, sm2Enc := ⟨enc, none⟩ } }

/-- The server chooses `ECC-SM2-SM4-CBC-SM3` and draws the given random. -/
def pairChoice (random : Buf 32) : ServerAnswers Bytes :=
  { cipher := some sm2Suite
    serverRandom := some random }

/-- The two are entered and say hello. -/
def pairHellos (random : Buf 32) : List (PairMove Bytes (String × Bytes)) :=
  [ .left .enter, .right .enter, .left (.write {}), .left (.write {}), .right (.write {}),
    .right (.recv .clientHello plainClientHello {}), .right (.postProcess (pairChoice random)),
    .right (.write {}),
    .left (.recv .serverHello ([1, 1] ++ random.1 ++ [0, 0xE0, 0x13, 0]) {}) ]

/-- The server's first flight, with or without a CertificateRequest. -/
def pairFlight (asks : Bool) : List (PairMove Bytes (String × Bytes)) :=
  [ .right (.write {}), .left (.recv .certificate plainCertificate {}), .left (.postProcess {}),
    .right (.write {}), .left (.recv .serverKeyExchange [0, 1, 1] {}) ] ++
  (if asks then
    [ .right (.write {}), .left (.recv .certificateRequest [0, 0, 0] {}),
      .left (.postProcess { hasCert := true }) ]
  else []) ++
  [ .right (.write {}), .left (.recv .serverDone [] {}) ]

/-- The ClientKeyExchange of the pair. -/
def pairCke : Bytes := [0, 48, 1, 1] ++ List.replicate 46 0

/-- A handshake with a client certificate. -/
def pairRun : List (PairMove Bytes (String × Bytes)) :=
  pairHellos (Buf.fill 32 1) ++ pairFlight true ++
  [ .left (.write {}), .left (.write {}), .left (.write {}), .left (.write {}), .left (.write {}),
    .left (.write {}), .right (.write {}),
    .right (.recv .certificate [0, 0, 10, 0, 0, 2, 0, 5, 0, 0, 2, 0, 6] {}),
    .right (.recv .clientKeyExchange pairCke {}), .right (.postProcess {}),
    .right (.recv .certificateVerify [0, 1, 5] {}), .right (.recv .changeCipherSpec [] {}),
    .right (.recv .finished ([32, 96, 1, 1] ++ List.replicate 8 0) {}), .right (.write {}),
    .left (.recv .changeCipherSpec [] {}), .right (.write {}),
    .left (.recv .finished ([194, 96, 1, 1] ++ List.replicate 8 0) {}), .left (.write {}),
    .right (.write {}) ]

/-- A client without an encryption certificate sends an empty list, and signs
nevertheless. -/
def halfRun : List (PairMove Bytes (String × Bytes)) :=
  pairHellos (Buf.fill 32 1) ++ pairFlight true ++
  [ .left (.write {}), .left (.write {}), .left (.write {}), .right (.write {}),
    .right (.recv .certificate [0, 0, 0] {}), .right (.recv .clientKeyExchange pairCke {}),
    .right (.postProcess {}) ]

/-- A handshake without a client certificate, up to the client's Finished. -/
def markedRun : List (PairMove Bytes (String × Bytes)) :=
  pairHellos ⟨hrrrandom, by decide⟩ ++ pairFlight false ++
  [ .left (.write {}), .left (.write {}), .left (.write {}), .left (.write {}), .right (.write {}),
    .right (.recv .clientKeyExchange pairCke {}), .right (.postProcess {}),
    .right (.recv .changeCipherSpec [] {}) ]

end Tlcp
