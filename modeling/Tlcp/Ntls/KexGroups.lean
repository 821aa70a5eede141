import Tlcp.Ntls.Suites
import Tlcp.Ntls.Within

/-!
# Tlcp.Ntls.KexGroups

The groups of the key exchange: the one that a ServerKeyExchange names, the
one that each end stores in its session, and the one in which the secret is
computed.

Between the ServerKeyExchange and the ClientKeyExchange both ends keep what
the first left behind (`client_carries`, `server_carries`).  The secret of
`kSM2DHE` and of `kECDHEKyber` is computed in the SM2 group, whatever the
message names: neither end looks at the type of the curve, and only
`kECDHEKyber` looks at the name.
-/

namespace Tlcp

open Octets Fallible

variable {X509 Pkey : Type} {lib : Libcrypto X509 Pkey} {s t : SSL X509 Pkey}

/-! ## the group of the secret -/

/-- The elliptic-curve keys of libcrypto: each is over a group, which the TLS
group identifiers name, and keeps it. -/
structure EcGroups (lib : Libcrypto X509 Pkey) where
  group : Pkey → Nat
  generatePkeyGroup : ∀ g rnd k, lib.generatePkeyGroup g rnd = some k → group k = g
  generateParamGroup : ∀ g k, lib.generateParamGroup g = some k → group k = g
  generatePkey : ∀ p rnd k, lib.generatePkey p rnd = some k → group k = group p
  setEncodedPublicKey : ∀ p pt k, lib.setEncodedPublicKey p pt = some k → group k = group p

variable (G : EcGroups lib)

/-- The secret is the result of a derivation with two keys of the group. -/
def EcGroups.Secret (g : Nat) (pms : Bytes) : Prop :=
  ∃ own peer secret rest, G.group own = g ∧ G.group peer = g ∧
    (lib.derive own peer = some secret ∨ lib.deriveSm2 own peer = some secret) ∧
    pms = secret ++ rest

/-- Whatever the client draws, its secret is one of the group. -/
def EcGroups.ClientSecret (g : Nat) (s : SSL X509 Pkey) : Prop :=
  ∀ rnd body kex, tlsConstructClientKeyExchange lib rnd s = .ok (body, kex) →
    ∃ pms, kex.pms = some pms ∧ G.Secret g pms

/-- Whatever the client answers, the secret of the server is one of the group. -/
def EcGroups.ServerSecret (g : Nat) (s : SSL X509 Pkey) : Prop :=
  ∀ heap pkt pms kex, tlsProcessClientKeyExchange lib heap s pkt = .ok (pms, kex) → G.Secret g pms

variable {k : KexSuite} {pkt : Bytes}

/-- The client's secret of `kSM2DHE` is in the group of the server's point. -/
theorem clientSecret_sm2dhe {peerTmp : Pkey}
    (hk : s.mkey = KexSuite.sm2dhe.mkey) (hpeer : s.s3.tmp.kex.peerTmp = some peerTmp) :
    G.ClientSecret (G.group peerTmp) s := by
  intro rnd body kex h
  rw [tlsConstructClientKeyExchange_suite hk] at h
  simp only [tlsConstructCkeSm2dhe, except_bind_ok, orFatal_eq_ok, require_eq_ok] at h
  obtain ⟨skey, hskey, ckey, hckey, secret, hsecret, _, _, _, _, hp⟩ := h
  rw [hpeer] at hskey
  injection hskey with hskey
  injection hp with hp
  injection hp with _ hkex
  subst hskey hkex
  exact ⟨secret, rfl, ckey, peerTmp, secret, [], G.generatePkey _ _ _ hckey, rfl, .inr hsecret,
    (List.append_nil _).symm⟩

/-- That of `kECDHEKyber` is in the SM2 group. -/
theorem clientSecret_ecdhekyber (hk : s.mkey = KexSuite.ecdhekyber.mkey) :
    G.ClientSecret curveSM2 s := by
  intro rnd body kex h
  rw [tlsConstructClientKeyExchange_suite hk] at h
  simp only [tlsConstructCkeEcdhekyber, except_bind_ok, orFatal_eq_ok, require_eq_ok,
    Prod.exists] at h
  obtain ⟨_, _, _, _, _, _, ckey, hckey, _, _, skeyEc, hskey, secret, hsecret, _, _, _, _, _, _,
    _, _, _, _, _, _, _, kyberSs, _, hp⟩ := h
  have hown : G.group ckey = curveSM2 := G.generatePkeyGroup _ _ _ hckey
  injection hp with hp
  injection hp with _ hkex
  subst hkex
  exact ⟨secret ++ kyberSs.1, rfl, ckey, skeyEc, secret, kyberSs.1, hown,
    (G.setEncodedPublicKey _ _ _ hskey).trans hown, .inl hsecret, rfl⟩

/-- The server's secret of either is in the group of its own key. -/
theorem serverSecret {pkey : Pkey}
    (hk : s.mkey = KexSuite.sm2dhe.mkey ∨ s.mkey = KexSuite.ecdhekyber.mkey)
    (hpkey : s.s3.tmp.kex.pkey = some pkey) : G.ServerSecret (G.group pkey) s := by
  intro heap pkt pms kex h
  cases hk with
  | inl hk =>
    rw [tlsProcessClientKeyExchange_suite hk] at h
    simp only [tlsProcessCkeSm2dhe, except_bind_ok, orFatal_eq_ok, require_eq_ok, Prod.exists] at h
    obtain ⟨_, _, _, _, _, _, _, _, _, _, skey, hskey, ckey, hckey, secret, hsecret, hp⟩ := h
    rw [hpkey] at hskey
    injection hskey with hskey
    injection hp with hp
    injection hp with hpms _
    subst hskey hpms
    exact ⟨pkey, ckey, secret, [], rfl, G.setEncodedPublicKey _ _ _ hckey, .inr hsecret,
      (List.append_nil _).symm⟩
  | inr hk =>
    rw [tlsProcessClientKeyExchange_suite hk] at h
    simp only [tlsProcessCkeEcdhekyber, except_bind_ok, orFatal_eq_ok, require_eq_ok,
      Prod.exists] at h
    obtain ⟨_, _, _, _, _, _, _, _, _, _, _, _, skey, hskey, ckey, hckey, secret, hsecret, _, _,
      _, _, _, _, _, _, _, _, _, _, kyberSs, _, hp⟩ := h
    rw [hpkey] at hskey
    injection hskey with hskey
    injection hp with hp
    injection hp with hpms _
    subst hskey hpms
    exact ⟨pkey, ckey, secret, kyberSs.1, rfl, G.setEncodedPublicKey _ _ _ hckey, .inl hsecret,
      rfl⟩

/-! ## two curves -/

/-- The names of the groups that `Libcrypto.curves` has. -/
def curveName (g : Nat) : Option String :=
  if g = curveSM2 then some "SM2" else if g = 23 then some "EC" else none

/-- `Libcrypto.plain` with two groups. -/
def Libcrypto.curves : Libcrypto Bytes (String × Bytes) := { Libcrypto.plain with
    generatePkeyGroup := fun g rnd => (curveName g).map fun name => (name, rnd)
    generateParamGroup := fun g => (curveName g).map fun name => (name, [])
    generatePkey := fun p rnd => some (p.1, rnd)
    setEncodedPublicKey := fun p pt => some (p.1, pt) }

/-- The groups of its keys. -/
def curvesGroups : EcGroups Libcrypto.curves where
  group key := if key.1 = "SM2" then curveSM2 else 23
  generatePkeyGroup g rnd key h := by
    simp only [Libcrypto.curves, curveName, Option.map_eq_some_iff] at h
    grind
  generateParamGroup g key h := by
    simp only [Libcrypto.curves, curveName, Option.map_eq_some_iff] at h
    grind
  generatePkey p rnd key h := by
    simp only [Libcrypto.curves, Option.some.injEq] at h
    rw [← h]
  setEncodedPublicKey p pt key h := by
    simp only [Libcrypto.curves, Option.some.injEq] at h
    rw [← h]

/-! ## the two messages in a handshake -/

variable {body : Bytes}

theorem client_readsKeyExchange {ans : ClientAnswers X509 Pkey} {u : Unit}
    (h : (readMessage lib (client lib) .serverKeyExchange body ans).run s = .ok u t) :
    t.statem.handState = .crKeyExch ∧ ∃ r, processSkeParams lib s body = .ok r ∧
      t.kexState = (r.kex, s.s3.tmp.newCipher) ∧ t.session.kexGroup = r.kexGroup := by
  obtain ⟨s₁, s₂, ret, s₃, htran, hbody, hproc, ht⟩ := readMessage_ok h
  obtain ⟨hs, hnext, hs₁⟩ := clientReadTransition_ok htran
  have hhs : hs = .crKeyExch := by
    have := clientReadNext_some hnext
    grind
  subst hs₁ hhs
  have hne : MsgType.serverKeyExchange ≠ .changeCipherSpec := by simp
  obtain ⟨dg, bf, _, hs₂⟩ := fed_of_read (s := { s with
    hit := s.hit || decide (secretResumption s .serverKeyExchange) }) (by simp) hbody
  subst hs₂
  have hproc' : (processServerKeyExchange lib body).run _ = .ok ret s₃ := hproc
  rw [processServerKeyExchange, run_get_bind_ok, run_lift_bind_ok] at hproc'
  obtain ⟨s', hkex, hproc'⟩ := hproc'
  rw [run_modify_bind_ok, run_pure_ok] at hproc'
  obtain ⟨hret, hs₃⟩ := hproc'
  simp only [tlsProcessKeyExchange, except_bind_ok] at hkex
  obtain ⟨r, hparams, lu, _, hs'⟩ := hkex
  injection hs' with hs'
  subst hret hs₃ hs' ht
  exact ⟨rfl, r, hparams, rfl, rfl⟩

theorem server_sendsKeyExchange {ans : ServerAnswers X509} {u : Unit}
    (hst : s.statem.handState = .swKeyExch)
    (h : (sendMessage (server lib) ans).run s = .ok u t) :
    ∃ p sig, constructSkeParams lib ans.ske s = .ok p ∧
      skeSignature lib ans.ske s p.params = .ok sig ∧
      t.trace = s.trace ++ [.sent .serverKeyExchange (p.params ++ sig)] ∧
      t.kexState = (p.kex, s.s3.tmp.newCipher) ∧ t.session.kexGroup = p.kexGroup := by
  obtain ⟨mt, body, s₁, dg, bf, s₃, hcon, _, _, hpost, ht⟩ := sendMessage_ok h
  have hcon' : (serverConstructMessage lib ans).run s = .ok (mt, body) s₁ := hcon
  rw [serverConstructMessage, run_get_bind_ok, hst] at hcon'
  obtain ⟨body', s', hske, hcon'⟩ := run_bind_ok.mp hcon'
  obtain ⟨hmt, hbody, hs₁⟩ := constructed_of_pure hcon'
  rw [constructServerKeyExchange, run_get_bind_ok, run_lift_bind_ok] at hske
  obtain ⟨⟨body'', s''⟩, hkex, hske⟩ := hske
  rw [run_modify_bind_ok, run_pure_ok] at hske
  obtain ⟨hbody', hs'⟩ := hske
  simp only [tlsConstructServerKeyExchange, except_bind_ok] at hkex
  obtain ⟨p, hp, sig, hsig, hkex⟩ := hkex
  injection hkex with hkex
  injection hkex with hbody'' hs''
  subst hmt hbody hs₁ hbody' hs' hbody'' hs''
  refine ⟨p, sig, hp, hsig, ?_⟩
  cases serverPostWork_ok hpost with
  | inl hreq => exact absurd hreq.1 (by simp [hst])
  | inr hother =>
    obtain ⟨_, hs₃⟩ := hother
    subst hs₃ ht
    exact ⟨rfl, rfl, rfl⟩

/-- A client in a handshake of the suite accepted the ServerKeyExchange `body`,
which took it to `t`. -/
def clientAccepts (lib : Libcrypto X509 Pkey) (k : KexSuite) (body : Bytes)
    (t : SSL X509 Pkey) : Prop :=
  ∃ s₀ es₀ s ans, s₀.inBefore ∧ Run.run (step lib (client lib)) s₀ es₀ = some s ∧
    s.mkey = k.mkey ∧ step lib (client lib) s (.recv .serverKeyExchange body ans) = some t ∧ t.live

/-- A server in a handshake of the suite sent the ServerKeyExchange `body`, which
took it to `t`. -/
def serverSends (lib : Libcrypto X509 Pkey) (k : KexSuite) (body : Bytes)
    (t : SSL X509 Pkey) : Prop :=
  ∃ s₀ es₀ s ans, s₀.inBefore ∧ Run.run (step lib (server lib)) s₀ es₀ = some s ∧
    s.mkey = k.mkey ∧ step lib (server lib) s (.write ans) = some t ∧ t.live ∧
    t.trace = s.trace ++ [.sent .serverKeyExchange body]

theorem clientAccepts.inv (h : clientAccepts lib k body t) : ClientInv t := by
  obtain ⟨s₀, es₀, s, ans, hs₀, hrun, _, hstep, hlive⟩ := h
  exact (client_keeps lib).run hs₀ meets_anyEvent (Run.run_concat_eq_some.mpr ⟨s, hrun, hstep⟩) hlive

theorem serverSends.inv (h : serverSends lib k body t) : ServerInv t := by
  obtain ⟨s₀, es₀, s, ans, hs₀, hrun, _, hstep, hlive, _⟩ := h
  exact (server_keeps lib).run hs₀ meets_anyEvent (Run.run_concat_eq_some.mpr ⟨s, hrun, hstep⟩) hlive

/-- What the client took from the message. -/
theorem clientAccepts.read (h : clientAccepts lib k body t) :
    t.statem.handState = .crKeyExch ∧ t.live ∧ t.mkey = k.mkey ∧ ∃ s r, s.mkey = k.mkey ∧
      processSkeParams lib s body = .ok r ∧ t.s3.tmp.kex = r.kex ∧
      t.session.kexGroup = r.kexGroup := by
  obtain ⟨s₀, es₀, s, ans, _, _, hk, hstep, hlive⟩ := h
  obtain ⟨_, _, hread⟩ := step_recv hstep hlive
  obtain ⟨hhand, r, hr, hkex, hgroup⟩ := client_readsKeyExchange hread
  injection hkex with hkex hcipher
  exact ⟨hhand, hlive, by simpa [SSL.mkey, hcipher] using hk, s, r, hk, hr, hkex, hgroup⟩

/-- What the server kept of the message. -/
theorem serverSends.wrote (h : serverSends lib k body t) :
    t.statem.handState = .swKeyExch ∧ t.live ∧ t.mkey = k.mkey ∧ ∃ s rnd p sig, s.mkey = k.mkey ∧
      constructSkeParams lib rnd s = .ok p ∧ body = p.params ++ sig ∧ t.s3.tmp.kex = p.kex ∧
      t.session.kexGroup = p.kexGroup := by
  have hinv := h.inv
  obtain ⟨s₀, es₀, s, ans, hs₀, hrun, hk, hstep, hlive, htrace⟩ := h
  obtain ⟨hst, hround⟩ := step_write hstep hlive
  have hinv : ServerInv s := (server_keeps lib).run hs₀ meets_anyEvent hrun (.inr (.inl hst))
  have hne : s.statem.handState ≠ .ok := by
    intro hok
    cases server_writeRound_ok hinv.server hinv.writeState hround with
    | setup _ ht => simp [ht] at htrace
    | request _ ht => simp [ht] at htrace
    | turn _ ht => simp [ht] at htrace
    | done _ ht =>
      obtain ⟨ren, cl, te, ht⟩ := ht
      simp [ht] at htrace
    | sent hs hnext =>
      have := serverWriteNext_some hnext
      grind
  rcases server_writeRound_cases hinv.writeState hne hround with ht | ht | hsent
  · simp [ht.2] at htrace
  · obtain ⟨_, ren, cl, te, ht⟩ := ht
    simp [ht] at htrace
  · obtain ⟨hs, c, hnext, hok, hsend⟩ := hsent
    have hnext := serverWriteNext_some hnext
    have hreq : hs ≠ .swHelloReq := by grind
    obtain ⟨body', htrace', _⟩ := (server_sendMessage_ok
      (s := { s with statem.handState := hs, session.cipher := c }) hinv.server hreq hsend).trace
    have hstatem := (server_sendMessage_ok
      (s := { s with statem.handState := hs, session.cipher := c }) hinv.server hreq hsend).statem
    have hmt : serverMsgType hs = .serverKeyExchange := by
      have htrace' : t.trace = s.trace ++ [.sent (serverMsgType hs) body'] := htrace'
      rw [htrace'] at htrace
      have hlast := List.append_cancel_left htrace
      simp only [List.cons.injEq, Obs.sent.injEq] at hlast
      exact hlast.1.1
    have hhs : hs = .swKeyExch := by
      cases hs <;> first | rfl | simp [serverMsgType] at hmt
    subst hhs
    obtain ⟨p, sig, hp, _, htrace', hkex, hgroup⟩ := server_sendsKeyExchange
      (s := { s with statem.handState := .swKeyExch, session.cipher := c }) rfl hsend
    have hbody : body = p.params ++ sig := by
      have htrace' : t.trace = s.trace ++ [.sent .serverKeyExchange (p.params ++ sig)] := htrace'
      rw [htrace'] at htrace
      simpa using (List.append_cancel_left htrace).symm
    injection hkex with hkex hcipher
    have hcipher : t.s3.tmp.newCipher = s.s3.tmp.newCipher := hcipher
    exact ⟨by rw [hstatem], hlive, by simpa [SSL.mkey, hcipher] using hk, _, ans.ske, p, sig, hk,
      hp, hbody, hkex, hgroup⟩

/-! ## the group that the client accepts -/

/-- The type of the curve in a ServerKeyExchange. -/
def curveType (body : Bytes) : Nat := ofUint (body.take 1)

/-- The name of the curve in a ServerKeyExchange. -/
def curveId (body : Bytes) : Nat := ofUint ((body.drop 1).take 2)

theorem curveType_append {n : Nat} {rest : Bytes} (hn : n < 256) :
    curveType (putUint 1 n ++ rest) = n := by
  rw [curveType, List.take_left' (length_putUint 1 n), ofUint_putUint (by simpa using hn)]

theorem curveId_append {n id : Nat} {rest : Bytes} (hid : id < 256 ^ 2) :
    curveId (putUint 1 n ++ (putUint 2 id ++ rest)) = id := by
  rw [curveId, List.drop_left' (length_putUint 1 n), List.take_left' (length_putUint 2 id),
    ofUint_putUint hid]

/-- Until the client sends its ClientKeyExchange, its secret is one of the
group. -/
def EcGroups.ClientComputes (g : Nat) (t : SSL X509 Pkey) : Prop :=
  ∀ es v, Run.Meets (step lib (client lib)) sameHandshake t es →
    Run.run (step lib (client lib)) t es = some v → v.live →
    beforeCke v.statem.handState = true → G.ClientSecret g v

/-- Until the server reads the ClientKeyExchange, its secret is one of the group. -/
def EcGroups.ServerComputes (g : Nat) (t : SSL X509 Pkey) : Prop :=
  ∀ es v, Run.Meets (step lib (server lib)) sameHandshake t es →
    Run.run (step lib (server lib)) t es = some v → v.live →
    awaitsCke v.statem.handState = true → G.ServerSecret g v

/-- The client has noted what the message left. -/
theorem clientAccepts.notes (h : clientAccepts lib k body t) :
    ClientNotes t.session.verifyResult (some (t.session.kexGroup, t.kexState)) t := by
  obtain ⟨hhand, hlive, _⟩ := h.read
  refine ⟨hlive, by simp [hhand, pastServerCerts], by simp [hhand], by simp [hhand], rfl, fun x hx => ?_⟩
  injection hx with hx
  subst hx
  exact ⟨by simp [hhand, pastServerKex, pastServerCerts], rfl, fun _ => rfl⟩

/-- The server has noted what its message left. -/
theorem serverSends.notes (h : serverSends lib k body t) :
    ServerNotes none t.session.kexGroup t.kexState t := by
  obtain ⟨hhand, hlive, _⟩ := h.wrote
  exact ⟨hlive, by simp [hhand, pastOwnKex], by simp [hhand], rfl, fun _ => rfl, by simp⟩

theorem clientAccepts.kexState (h : clientAccepts lib k body t)
    {es : List (Event (ClientAnswers X509 Pkey))} {v : SSL X509 Pkey}
    (hsame : Run.Meets (step lib (client lib)) sameHandshake t es)
    (hrun : Run.run (step lib (client lib)) t es = some v) (hlive : v.live)
    (hwin : beforeCke v.statem.handState = true) : v.kexState = t.kexState :=
  (((client_carries lib).run (client_keeps lib) h.inv h.notes hsame hrun hlive).kex _ rfl).2.2 hwin

theorem serverSends.kexState (h : serverSends lib k body t)
    {es : List (Event (ServerAnswers X509))} {v : SSL X509 Pkey}
    (hsame : Run.Meets (step lib (server lib)) sameHandshake t es)
    (hrun : Run.run (step lib (server lib)) t es = some v) (hlive : v.live)
    (hwin : awaitsCke v.statem.handState = true) : v.kexState = t.kexState :=
  ((server_carries lib).run (server_keeps lib) h.inv h.notes hsame hrun hlive).waits hwin

/-- **The client computes in the SM2 group**, whatever the message names. -/
theorem clientAccepts.computes (hk : k = .sm2dhe ∨ k = .ecdhekyber)
    (h : clientAccepts lib k body t) : G.ClientComputes curveSM2 t := by
  intro es v hsame hrun hlive hwin
  have hkept := h.kexState hsame hrun hlive hwin
  injection hkept with hkex hcipher
  obtain ⟨_, _, hmkey, s, r, hs, hr, hrkex, _⟩ := h.read
  have hmkey : v.mkey = k.mkey := by simpa [SSL.mkey, hcipher] using hmkey
  cases hk with
  | inl hk =>
    subst hk
    rw [processSkeParams_suite hs] at hr
    obtain ⟨_, param, pt, peerTmp, _, _, _, _, hparam, hpeer, hread⟩ := tlsProcessSkeSm2dhe_ok hr
    have hgroup : G.group peerTmp = curveSM2 :=
      (G.setEncodedPublicKey _ _ _ hpeer).trans (G.generateParamGroup _ _ hparam)
    rw [← hgroup]
    exact clientSecret_sm2dhe G hmkey (by rw [hkex, hrkex, hread])
  | inr hk =>
    subst hk
    exact clientSecret_ecdhekyber G hmkey

/-- What a ServerKeyExchange of the two suites starts with. -/
theorem clientAccepts.front (hk : k = .sm2dhe ∨ k = .ecdhekyber) (h : clientAccepts lib k body t) :
    ∃ typ id rest, body = putUint 1 typ ++ (putUint 2 id ++ rest) ∧ typ < 256 ∧ id < 256 ^ 2 ∧
      t.session.kexGroup = id := by
  obtain ⟨_, _, _, s, r, hs, hr, _, hgroup⟩ := h.read
  cases hk with
  | inl hk =>
    subst hk
    rw [processSkeParams_suite hs] at hr
    obtain ⟨typ, _, _, _, hbody, htyp, hid, _⟩ := tlsProcessSkeSm2dhe_ok hr
    exact ⟨typ, _, _, hbody, htyp, hid, hgroup⟩
  | inr hk =>
    subst hk
    rw [processSkeParams_suite hs] at hr
    obtain ⟨typ, _, _, _, _, hbody, htyp, hid, _⟩ := tlsProcessSkeEcdhekyber_ok hr
    exact ⟨typ, _, _, hbody, htyp, hid, hgroup⟩

/-- **The group of an accepted ServerKeyExchange.**  Of the messages that the
client accepts for `kSM2DHE` and `kECDHEKyber`, those for a named curve, the
SM2 group, with a secret in this group are those that start with `03 00 29`:
there is no other check. -/
theorem accepted_group_iff (hk : k = .sm2dhe ∨ k = .ecdhekyber)
    (h : clientAccepts lib k body t) :
    (curveType body = namedCurveType ∧ curveId body = curveSM2 ∧
        G.ClientComputes (curveId body) t) ↔ body.take 3 = [3, 0, 41] := by
  obtain ⟨typ, id, rest, hbody, htyp, hid, _⟩ := h.front hk
  have hfront : body.take 3 = putUint 1 typ ++ putUint 2 id := by
    rw [hbody, ← List.append_assoc]
    exact List.take_left' (by simp)
  have htype : curveType body = typ := by rw [hbody, curveType_append htyp]
  have hcurve : curveId body = id := by rw [hbody, curveId_append hid]
  rw [hfront, htype, hcurve]
  constructor
  · intro ⟨htyp, hid, _⟩
    rw [htyp, hid]
    rfl
  · intro hbytes
    have hbytes : putUint 1 typ ++ putUint 2 id = [3] ++ [0, 41] := hbytes
    obtain ⟨h₁, h₂⟩ := List.append_inj hbytes (by simp)
    have htyp' : typ = namedCurveType := by
      have hread : ofUint (putUint 1 typ) = typ := ofUint_putUint (by simpa using htyp)
      rw [← hread, h₁]
      rfl
    have hid' : id = curveSM2 := by
      have hread : ofUint (putUint 2 id) = id := ofUint_putUint hid
      rw [← hread, h₂]
      rfl
    subst hid'
    exact ⟨htyp', rfl, h.computes G hk⟩

/-- An encryption certificate with a key as long as an encoded point. -/
def curvesEncCert : Bytes := 0 :: List.replicate 65 2

/-- A client of the suite with the code `0xE0, code`, behind the ServerKeyExchange. -/
def curvesAccepts (k : KexSuite) (code : UInt8) (body : Bytes) :
    Option (SSL Bytes (String × Bytes)) := do
  let s ← Run.run (step .curves (client .curves)) plainClient
    [ .enter, .write {}, .write {},
      .recv .serverHello ([1, 1] ++ List.replicate 32 7 ++ [0, 0xE0, code, 0]) {},
      .recv .certificate ([0, 0, 74, 0, 0, 2, 0, 1, 0, 0, 66] ++ curvesEncCert) {},
      .postProcess {} ]
  let t ← step .curves (client .curves) s (.recv .serverKeyExchange body {})
  if s.mkey = k.mkey ∧ t.statem.state = .reading then some t else none

theorem curvesAccepts_accepts {code : UInt8} {t : SSL Bytes (String × Bytes)}
    (h : curvesAccepts k code body = some t) : clientAccepts .curves k body t := by
  simp only [curvesAccepts, Option.bind_eq_bind, Option.bind_eq_some_iff,
    Option.ite_none_right_eq_some] at h
  obtain ⟨s, hrun, t', hstep, ⟨hk, hlive⟩, ht⟩ := h
  injection ht with ht
  subst ht
  exact ⟨_, _, s, _, ⟨rfl, rfl⟩, hrun, hk, hstep, .inl hlive⟩

/-- The ServerKeyExchange of a `kECDHEKyber` handshake. -/
def ecdhekyberBody : Bytes := [3, 0, 41, 1, 4, 4, 160] ++ List.replicate 1184 0 ++ [0, 1, 1]

/-- A ServerKeyExchange that the client should accept. -/
theorem accepted_group_ecdhekyber : ∃ t, clientAccepts .curves .ecdhekyber ecdhekyberBody t ∧
      curveType ecdhekyberBody = namedCurveType ∧ curveId ecdhekyberBody = curveSM2 ∧
      curvesGroups.ClientComputes (curveId ecdhekyberBody) t := by
  obtain ⟨t, ht⟩ := Option.isSome_iff_exists.mp (by decide +kernel :
    (curvesAccepts .ecdhekyber 0x1B ecdhekyberBody).isSome = true)
  have hacc := curvesAccepts_accepts ht
  exact ⟨t, hacc, (accepted_group_iff curvesGroups (.inr rfl) hacc).mpr (by decide +kernel)⟩

/-- A key exchange in P-256 for `kECDHEKyber`, signed with the key 1. -/
def otherCurve : Bytes := [3, 0, 23, 2, 5, 6, 4, 160] ++ List.replicate 1184 0 ++ [0, 1, 1]

/-- The client accepts a type that is none, and a name that is none or the one
of another group. -/
theorem accepts_other_groups :
    (∃ t, clientAccepts .curves .sm2dhe [9, 18, 52, 2, 5, 6, 0, 1, 1] t) ∧
      (∃ t, clientAccepts .curves .ecdhekyber otherCurve t) ∧
      curveType [9, 18, 52, 2, 5, 6, 0, 1, 1] ≠ namedCurveType ∧
      curveId [9, 18, 52, 2, 5, 6, 0, 1, 1] ≠ curveSM2 ∧ curveId otherCurve ≠ curveSM2 := by
  obtain ⟨t, ht⟩ := Option.isSome_iff_exists.mp (by decide +kernel :
    (curvesAccepts .sm2dhe 0x11 [9, 18, 52, 2, 5, 6, 0, 1, 1]).isSome = true)
  obtain ⟨t', ht'⟩ := Option.isSome_iff_exists.mp (by decide +kernel :
    (curvesAccepts .ecdhekyber 0x1B otherCurve).isSome = true)
  exact ⟨⟨t, curvesAccepts_accepts ht⟩, ⟨t', curvesAccepts_accepts ht'⟩, by decide +kernel⟩

/-! ## the group of the two sessions -/

/-- The server computes in the SM2 group. -/
theorem serverSends.computes (hk : k = .sm2dhe ∨ k = .ecdhekyber)
    (h : serverSends lib k body t) : G.ServerComputes curveSM2 t := by
  intro es v hsame hrun hlive hwin
  have hkept := h.kexState hsame hrun hlive hwin
  injection hkept with hkex hcipher
  obtain ⟨_, _, hmkey, s, rnd, p, sig, hs, hp, _, hpkex, _⟩ := h.wrote
  have hmkey : v.mkey = k.mkey := by simpa [SSL.mkey, hcipher] using hmkey
  have hpkey : ∃ pkey, p.kex.pkey = some pkey ∧ G.group pkey = curveSM2 := by
    cases hk with
    | inl hk =>
      subst hk
      rw [constructSkeParams_suite hs] at hp
      obtain ⟨pkey, hpkey, _, hp⟩ := constructSkeSm2dhe_ok hp
      exact ⟨pkey, by rw [hp], G.generatePkeyGroup _ _ _ hpkey⟩
    | inr hk =>
      subst hk
      rw [constructSkeParams_suite hs] at hp
      obtain ⟨pkey, _, _, _, hpkey, _, _, hp⟩ := constructSkeEcdhekyber_ok hp
      exact ⟨pkey, by rw [hp], G.generatePkeyGroup _ _ _ hpkey⟩
  obtain ⟨pkey, hpkey, hgroup⟩ := hpkey
  rw [← hgroup]
  refine serverSecret G ?_ (by rw [hkex, hpkex, hpkey])
  exact hk.imp (fun hk => hmkey.trans (by rw [hk])) (fun hk => hmkey.trans (by rw [hk]))

/-- The groups that the two ends store. -/
theorem serverSends.kexGroup (hk : k = .sm2dhe ∨ k = .ecckyber ∨ k = .ecdhekyber)
    (h : serverSends lib k body t) : t.session.kexGroup = curveSM2 := by
  obtain ⟨_, _, _, s, rnd, p, sig, hs, hp, _, _, hgroup⟩ := h.wrote
  rw [constructSkeParams_suite hs] at hp
  rw [hgroup]
  rcases hk with hk | hk | hk
  · subst hk
    obtain ⟨pkey, _, _, hp⟩ := constructSkeSm2dhe_ok hp
    rw [hp]
  · subst hk
    obtain ⟨_, _, _, _, _, _, _, hp⟩ := constructSkeEcckyber_ok hp
    rw [hp]
  · subst hk
    obtain ⟨pkey, _, _, _, _, _, _, hp⟩ := constructSkeEcdhekyber_ok hp
    rw [hp]

/-- What a ServerKeyExchange of the server starts with. -/
theorem serverSends.front (hk : k = .sm2dhe ∨ k = .ecdhekyber) (h : serverSends lib k body t) :
    ∃ rest, body = putUint 1 namedCurveType ++ (putUint 2 curveSM2 ++ rest) := by
  obtain ⟨_, _, _, s, rnd, p, sig, hs, hp, hbody, _, _⟩ := h.wrote
  cases hk with
  | inl hk =>
    subst hk
    rw [constructSkeParams_suite hs] at hp
    obtain ⟨pkey, _, _, hp⟩ := constructSkeSm2dhe_ok hp
    exact ⟨_, by rw [hbody, hp]; simp only [List.append_assoc]; rfl⟩
  | inr hk =>
    subst hk
    rw [constructSkeParams_suite hs] at hp
    obtain ⟨pkey, _, _, _, _, _, _, hp⟩ := constructSkeEcdhekyber_ok hp
    exact ⟨_, by rw [hbody, hp]; simp only [List.append_assoc]; rfl⟩

/-- The group is that of the client's elliptic-curve operation: the encryption
of the premaster secret in `kECCKyber`, the derivation of the secret in the
other suites. -/
def EcGroups.ClientIn (k : KexSuite) (g : Nat) (t : SSL X509 Pkey) : Prop :=
  match k with
  | .ecckyber => ∀ x pkey, t.peerEncCert = some x → lib.x509GetPubkey x = some pkey →
      G.group pkey = g
  | _ => G.ClientComputes g t

/-- The group is that of the server's elliptic-curve operation. -/
def EcGroups.ServerIn (k : KexSuite) (g : Nat) (t : SSL X509 Pkey) : Prop :=
  match k with
  | .ecckyber => ∀ pkey, t.cert.sm2Enc.privatekey = some pkey → G.group pkey = g
  | _ => G.ServerComputes g t

/-- The handshake that `t` is in ends in `u`. -/
def endsIn {Ans : Type} (lib : Libcrypto X509 Pkey) (m : Machine X509 Pkey Ans)
    (t u : SSL X509 Pkey) : Prop :=
  ∃ es, Run.Meets (step lib m) sameHandshake t es ∧ Run.run (step lib m) t es = some u ∧
    u.statem.state = .finished

variable {u : SSL X509 Pkey}

theorem clientAccepts.kept (h : clientAccepts lib k body t) (hend : endsIn lib (client lib) t u) :
    u.session.kexGroup = t.session.kexGroup := by
  obtain ⟨es, hsame, hrun, hfin⟩ := hend
  exact (((client_carries lib).run (client_keeps lib) h.inv h.notes hsame hrun
    (.inr (.inr hfin))).kex _ rfl).2.1

theorem serverSends.kept (h : serverSends lib k body t) (hend : endsIn lib (server lib) t u) :
    u.session.kexGroup = t.session.kexGroup := by
  obtain ⟨es, hsame, hrun, hfin⟩ := hend
  exact ((server_carries lib).run (server_keeps lib) h.inv h.notes hsame hrun
    (.inr (.inr hfin))).kexGroup

/-- **One group on both ends.**  When a client and a server complete a handshake
over one ServerKeyExchange, their sessions store the same group, and it is the
one that both compute in, exactly if the suite is not `kECCKyber`. -/
theorem kexGroup_agrees_iff {t' u' : SSL X509 Pkey}
    (hk : k = .sm2dhe ∨ k = .ecckyber ∨ k = .ecdhekyber)
    (hserver : serverSends lib k body t) (hu : endsIn lib (server lib) t u)
    (hclient : clientAccepts lib k body t') (hu' : endsIn lib (client lib) t' u') :
    (u'.session.kexGroup = u.session.kexGroup ∧ G.ClientIn k u'.session.kexGroup t' ∧
        G.ServerIn k u.session.kexGroup t) ↔ k ≠ .ecckyber := by
  rw [hserver.kept hu, hserver.kexGroup hk, hclient.kept hu']
  constructor
  · intro ⟨hgroup, _⟩ hecc
    subst hecc
    obtain ⟨_, _, _, s, r, hs, hr, _, hgroup'⟩ := hclient.read
    rw [processSkeParams_suite hs] at hr
    obtain ⟨_, _, _, _, _, _, _, _, _, hr⟩ := tlsProcessSkeEcckyber_ok hr
    rw [hgroup', hr] at hgroup
    exact absurd hgroup (by decide)
  · intro hecc
    have hdh : k = .sm2dhe ∨ k = .ecdhekyber := by
      rcases hk with hk | hk | hk
      · exact .inl hk
      · exact absurd hk hecc
      · exact .inr hk
    obtain ⟨typ, id, rest, hbody, _, hid, hgroup⟩ := hclient.front hdh
    obtain ⟨rest', hbody'⟩ := hserver.front hdh
    have hname : id = curveSM2 := by
      rw [← curveId_append hid, ← hbody, hbody', curveId_append (by decide)]
    rw [hgroup, hname]
    have hcin := hclient.computes G hdh
    have hsin := hserver.computes G hdh
    cases hdh with
    | inl hk =>
      subst hk
      exact ⟨rfl, hcin, hsin⟩
    | inr hk =>
      subst hk
      exact ⟨rfl, hcin, hsin⟩

/-- A handshake of a suite with the code `0xE0, code` over the ServerKeyExchange
`body`, on the server: it receives the ClientKeyExchange `cke` and the Finished
`fin`. -/
def curvesServer (k : KexSuite) (c : NtlsCipher) (code : UInt8) (body cke fin : Bytes) :
    Option (SSL Bytes (String × Bytes) × SSL Bytes (String × Bytes)) := do
  let rest := [ .write {}, .write {}, .recv .clientKeyExchange cke {}, .postProcess {},
    .recv .changeCipherSpec [] {}, .recv .finished fin {}, .write {}, .write {}, .write {} ]
  let s ← Run.run (step .curves (server .curves))
    { plainServer 0 with cert.sm2Enc := ⟨some curvesEncCert, some ("SM2", List.replicate 65 2)⟩ }
    [ .enter, .write {}, .recv .clientHello (plainHello [0xE0, code]) {},
      .postProcess { cipher := some c }, .write {}, .write {} ]
  let t ← step .curves (server .curves) s (.write { ske := { ephemeral := [4] } })
  let u ← Run.run (step .curves (server .curves)) t rest
  if s.mkey = k.mkey ∧ t.statem.state = .writing ∧
    t.trace = s.trace ++ [.sent .serverKeyExchange body] ∧
    Run.Meets (step .curves (server .curves)) sameHandshake t rest ∧
    u.statem.state = .finished then some (t, u) else none

/-- The same on the client, which receives the Finished `fin`. -/
def curvesClient (t : SSL Bytes (String × Bytes)) (fin : Bytes) :
    Option (SSL Bytes (String × Bytes)) := do
  let rest := [ .recv .serverDone [] {},
    .write { cke := { pms := Buf.zero 46, ephemeral := [5] } }, .write {}, .write {}, .write {},
    .recv .changeCipherSpec [] {}, .recv .finished fin {}, .write {} ]
  let u ← Run.run (step .curves (client .curves)) t rest
  if Run.Meets (step .curves (client .curves)) sameHandshake t rest ∧
    u.statem.state = .finished then some u else none

theorem curvesServer_sends {c : NtlsCipher} {code : UInt8} {cke fin : Bytes}
    {t u : SSL Bytes (String × Bytes)} (h : curvesServer k c code body cke fin = some (t, u)) :
    serverSends .curves k body t ∧ endsIn .curves (server .curves) t u := by
  simp only [curvesServer, Option.bind_eq_bind, Option.bind_eq_some_iff,
    Option.ite_none_right_eq_some] at h
  obtain ⟨s, hrun, t', hstep, u', hrest, ⟨hk, hlive, htrace, hsame, hfin⟩, ht⟩ := h
  injection ht with ht
  injection ht with ht hu
  subst ht hu
  exact ⟨⟨_, _, s, _, ⟨rfl, rfl⟩, hrun, hk, hstep, .inr (.inl hlive), htrace⟩, _, hsame, hrest, hfin⟩

theorem curvesClient_ends {fin : Bytes} {t u : SSL Bytes (String × Bytes)}
    (h : curvesClient t fin = some u) : endsIn .curves (client .curves) t u := by
  simp only [curvesClient, Option.bind_eq_bind, Option.bind_eq_some_iff,
    Option.ite_none_right_eq_some] at h
  obtain ⟨u', hrest, ⟨hsame, hfin⟩, hu⟩ := h
  injection hu with hu
  subst hu
  exact ⟨_, hsame, hrest, hfin⟩

/-- The two Finished of a `kECDHEKyber` handshake. -/
def ecdhekyberFinished (byServer : Bool) : Bytes :=
  (if byServer then [161, 32, 9] else [40, 0, 9]) ++ List.replicate 9 0

theorem kexGroup_agrees_ecdhekyber : ∃ t u t' u', serverSends .curves .ecdhekyber ecdhekyberBody t ∧
      endsIn .curves (server .curves) t u ∧ clientAccepts .curves .ecdhekyber ecdhekyberBody t' ∧
      endsIn .curves (client .curves) t' u' ∧ u'.session.kexGroup = u.session.kexGroup := by
  have hserver : (curvesServer .ecdhekyber ⟨ntlsCipher 0x0300E01B Mkey.kECDHEKyber Auth.aSM2 .sm3,
      by decide⟩ 0x1B ecdhekyberBody ([3, 0, 41, 1, 5, 4, 64] ++ List.replicate 1088 0)
      (ecdhekyberFinished false)).isSome := by decide +kernel
  obtain ⟨⟨t, u⟩, ht⟩ := Option.isSome_iff_exists.mp hserver
  obtain ⟨t', hacc, hend⟩ : ∃ t', curvesAccepts .ecdhekyber 0x1B ecdhekyberBody = some t' ∧
    (curvesClient t' (ecdhekyberFinished true)).isSome := by decide +kernel
  obtain ⟨u', hend⟩ := Option.isSome_iff_exists.mp hend
  have hs := curvesServer_sends ht
  have hc := curvesAccepts_accepts hacc
  have hu := curvesClient_ends hend
  exact ⟨_, _, _, _, hs.1, hs.2, hc, hu, ((kexGroup_agrees_iff curvesGroups (.inr (.inr rfl))
    hs.1 hs.2 hc hu).mpr (by decide)).1⟩

/-- The two messages of a `kECCKyber` handshake, and the two Finished. -/
def ecckyberBody : Bytes := [4, 160] ++ List.replicate 1184 0 ++ [0, 1, 1]

def ecckyberCke : Bytes := [0, 48, 1, 1] ++ List.replicate 46 0 ++ [4, 64] ++ List.replicate 1088 0

def ecckyberFinished (byServer : Bool) : Bytes :=
  (if byServer then [140, 32, 1, 1] else [35, 0, 1, 1]) ++ List.replicate 8 0

/-- After a `kECCKyber` handshake the client stores secp256r1 and the server SM2. -/
theorem kexGroup_differs_ecckyber : ∃ t u t' u', serverSends .curves .ecckyber ecckyberBody t ∧
      endsIn .curves (server .curves) t u ∧ clientAccepts .curves .ecckyber ecckyberBody t' ∧
      endsIn .curves (client .curves) t' u' ∧ u'.session.kexGroup = 23 ∧
      u.session.kexGroup = curveSM2 := by
  obtain ⟨⟨t, u⟩, ht, hgroup⟩ : ∃ p, curvesServer .ecckyber
      ⟨ntlsCipher 0x0300E01D Mkey.kECCKyber Auth.aSM2 .sm3, by decide⟩ 0x1D ecckyberBody
        ecckyberCke (ecckyberFinished false) = some p ∧ p.2.session.kexGroup = curveSM2 := by
    decide +kernel
  obtain ⟨t', hacc, u', hend, hgroup'⟩ : ∃ t', curvesAccepts .ecckyber 0x1D ecckyberBody = some t' ∧
      ∃ u', curvesClient t' (ecckyberFinished true) = some u' ∧ u'.session.kexGroup = 23 := by
    decide +kernel
  have hs := curvesServer_sends ht
  exact ⟨_, _, _, _, hs.1, hs.2, curvesAccepts_accepts hacc, curvesClient_ends hend, hgroup',
    hgroup⟩

end Tlcp
