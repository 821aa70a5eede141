import Tlcp.Lib.Run
import Tlcp.Tls13.KeyShare

/-!
# Tlcp.Tls13.Hybrid

No downgrade of the SM2+Kyber768 hybrid.

A run is any sequence of messages, in any order, with the `SSL_CTX` changing
in between; it ends at the first `SSLfatal`.  `Sound` says that handshake
secrets come from both secrets, `Ready` that no share is waiting which one
secret could be derived from alone.  `Sound` also holds where a function fails.

The server parses a ClientHello by the switch of its `SSL_CTX` and answers by
its own.  With the first off and the second on it takes an ECDH share without a
Kyber768 key, and `ssl_derive` installs the handshake secret at once.
-/

namespace Tlcp.Tls13

open Octets Fallible

variable {X509 Pkey : Type} {lib : Libcrypto X509 Pkey} {env : GroupTable Pkey}
  {s t : ShareConn Pkey}
variable {rnd encodedPt pkt : Bytes} {sent hit : Bool} {α : Type} {x : ShareStep Pkey α}
  {hello : ClientHello}

/-! ## runs -/

/-- What can happen to a connection. -/
inductive ShareEvent where
  /-- the parent `SSL_CTX` is toggled, or another one is attached -/
  | attachCtx (hybrid : Bool)
  /-- the server processes a ClientHello -/
  | clientHello (hello : ClientHello)
  /-- the server constructs a ServerHello or HelloRetryRequest -/
  | serverHello (rnd : ServerRandom)
  /-- the client constructs its key_share -/
  | sendClientHello (rnd : ShareRandom)
  /-- the client processes a ServerHello -/
  | receiveServerHello (hit : Bool) (hello : ServerHello)
  /-- the client processes a HelloRetryRequest -/
  | receiveHelloRetryRequest (keyShare : Option Bytes)

/-- A connection, and whether `SSLfatal` ended it. -/
structure ShareState (Pkey : Type) where
  conn : ShareConn Pkey
  failed : Bool := false

/-- How a function left the connection. -/
def outcome {α : Type} : EStateM.Result Fatal (ShareConn Pkey) α → ShareState Pkey
  | .ok _ s => ⟨s, false⟩
  | .error _ s => ⟨s, true⟩

/-- One event. -/
def shareStep (lib : Libcrypto X509 Pkey) (env : GroupTable Pkey) (s : ShareState Pkey)
    (e : ShareEvent) : Option (ShareState Pkey) :=
  if s.failed then none
  else
    match e, s.conn.server with
    | .attachCtx hybrid, _ => some ⟨{ s.conn with ctxHybrid := hybrid }, false⟩
    | .clientHello hello, true => some (outcome ((processClientHello lib env hello).run s.conn))
    | .serverHello rnd, true => some (outcome ((constructServerHello lib env rnd).run s.conn))
    | .sendClientHello rnd, false =>
      some (outcome ((tlsConstructCtosKeyShare lib env rnd).run s.conn))
    | .receiveServerHello hit hello, false =>
      some (outcome ((processServerHello lib env hit hello).run s.conn))
    | .receiveHelloRetryRequest keyShare, false =>
      some (outcome ((processHelloRetryRequest env keyShare).run s.conn))
    | _, _ => none

/-! ## no downgrade -/

/-- The bytes are an ECDH secret followed by a Kyber768 secret. -/
def Combined (s : ShareConn Pkey) (b : Bytes) : Prop :=
  ∃ z ∈ s.ecdhSecrets, ∃ k ∈ s.kyberSecrets, b = z ++ k

/-- Every handshake secret from a key share has both secrets in it, and what is
parked is an ECDH secret. -/
structure Sound (s : ShareConn Pkey) : Prop where
  inputs : ∀ b, some b ∈ s.inputs → Combined s b
  parked : ∀ z, s.pms = some z → z ∈ s.ecdhSecrets

/-- The server has taken a classical share only together with a Kyber768 key,
and the client has sent its shares for SM2 only. -/
structure Ready (s : ShareConn Pkey) : Prop where
  hybrid : s.hybrid = true
  server : s.server = true → s.peerTmp.isSome = true →
    s.peerKyber768Pk.isSome = true ∧ s.groupId = curveSM2
  client : s.server = false → s.pkey.isSome = true → s.groupId = curveSM2

/-! ## what the functions leave alone -/

section keeps

variable {P : ShareConn Pkey → Prop}

/-- A classical share changes the peer's key and the group only. -/
theorem keeps_parseShare {groupId : Nat} {rest : Bool}
    (hP : ∀ s peer group kex, P s →
      P { s with peerTmp := peer, groupId := group, kexGroup := kex }) :
    Keeps P (parseShare lib env groupId encodedPt rest) := by
  refine keeps_get.bind fun s => keeps_check.bind fun _ => keeps_check.bind fun _ => ?_
  refine Keeps.ite ?_ keeps_pure
  refine keeps_orThrow.bind fun _ => (keeps_modify fun s h => hP s _ _ _ h).bind fun _ => ?_
  refine keeps_orThrow.bind fun _ => ?_
  exact (keeps_modify fun s h => hP s _ s.groupId s.kexGroup h).bind fun _ => keeps_pure

theorem keeps_parseKyberShare
    (hP : ∀ s pk, P s → P { s with peerKyber768Pk := pk }) :
    Keeps P (parseKyberShare env encodedPt : ShareStep Pkey Unit) := by
  refine keeps_get.bind fun s => keeps_check.bind fun _ => keeps_check.bind fun _ => ?_
  exact keeps_orThrow.bind fun _ => keeps_modify fun s h => hP s _ h

theorem keeps_parseShares {fuel : Nat} {list : Bytes} {found foundKyber : Bool}
    (hP : ∀ s peer group kex, P s → P { s with peerTmp := peer, groupId := group, kexGroup := kex })
    (hkyber : ∀ s pk, P s → P { s with peerKyber768Pk := pk }) :
    Keeps P (parseShares lib env fuel list found foundKyber) := by
  induction fuel generalizing list found foundKyber with
  | zero =>
    cases list with
    | nil => exact keeps_pure
    | cons b bs => exact keeps_throw
  | succ fuel ih =>
    cases list with
    | nil => exact keeps_pure
    | cons b bs =>
      refine keeps_orThrow.bind fun _ => keeps_orThrow.bind fun _ => ?_
      refine keeps_check.bind fun _ => keeps_get.bind fun s => ?_
      refine Keeps.ite ((keeps_parseKyberShare hkyber).bind fun _ => ih) (Keeps.ite ih ?_)
      exact (keeps_parseShare hP).bind fun _ => ih

/-- The parser of the ClientHello's shares changes what it has from them
only. -/
theorem keeps_tlsParseCtosKeyShare
    (hP : ∀ s peer group kex, P s → P { s with peerTmp := peer, groupId := group, kexGroup := kex })
    (hkyber : ∀ s pk, P s → P { s with peerKyber768Pk := pk }) :
    Keeps P (tlsParseCtosKeyShare lib env pkt) := by
  refine keeps_get.bind fun s => Keeps.onlyIf ?_
  refine keeps_check.bind fun _ => keeps_orThrow.bind fun _ => ?_
  refine keeps_check.bind fun _ => keeps_check.bind fun _ => keeps_check.bind fun _ => ?_
  exact (keeps_parseShares hP hkyber).bind fun _ => keeps_get.bind fun _ => keeps_check

/-- The finaliser changes the group and whether to ask again, or derives a
secret without a key share. -/
theorem keeps_finalKeyShare
    (hP : ∀ s hrr group, P s → P { s with helloRetryRequest := hrr, groupId := group })
    (hinputs : ∀ s, P s → P { s with inputs := s.inputs ++ [none] }) :
    Keeps P (finalKeyShare env sent) := by
  have hretry : Keeps P (retryStateless : ShareStep Pkey Unit) :=
    keeps_get.bind fun _ => keeps_check.bind fun _ => keeps_modify fun s h => hP s _ s.groupId h
  have hcomplete : Keeps P (modify fun s => { s with
      helloRetryRequest := if s.helloRetryRequest = .pending then .complete
        else s.helloRetryRequest } : ShareStep Pkey Unit) :=
    keeps_modify fun s h => hP s _ s.groupId h
  have hserver : Keeps P (finalKeyShareServer env sent) := by
    refine keeps_get.bind fun s => Keeps.ite (Keeps.ite hretry hcomplete) ?_
    dsimp only
    split
    · exact keeps_modify fun s h => hP s _ _ h
    · exact keeps_check.bind fun _ => Keeps.ite hretry hcomplete
  refine keeps_get.bind fun s => Keeps.ite ?_ ?_
  · exact hserver.bind fun _ => keeps_get.bind fun _ => keeps_check
  · exact keeps_check.bind fun _ => Keeps.onlyIf (keeps_modify hinputs)

end keeps

/-- A property that says nothing of the secrets. -/
def Bookkeeping (P : ShareConn Pkey → Prop) : Prop :=
  ∀ s pms didKex ecdhSecrets kyberSecrets inputs, P s → P { s with
    pms := pms
    didKex := didKex
    ecdhSecrets := ecdhSecrets
    kyberSecrets := kyberSecrets
    inputs := inputs }

namespace Bookkeeping

variable {P : ShareConn Pkey → Prop} (hP : Bookkeeping P)

include hP

theorem handshakeSecret {b : Option Bytes} :
    Keeps P (tls13GenerateHandshakeSecret b : ShareStep Pkey Unit) :=
  keeps_modify fun s h => hP s _ _ _ _ _ h

theorem sslGensecret {b : Bytes} : Keeps P (Tls13.sslGensecret b : ShareStep Pkey Unit) :=
  hP.handshakeSecret

theorem didKex {f : ShareConn Pkey → Bool} :
    Keeps P (modify fun s => { s with didKex := f s } : ShareStep Pkey Unit) :=
  keeps_modify fun s h => hP s _ _ _ _ _ h

theorem sslDerive {a b : Pkey} {gensecret : Bool} :
    Keeps P (Tls13.sslDerive lib a b gensecret) := by
  refine keeps_orThrow.bind fun z => Keeps.ite (Keeps.bind ?_ fun _ => hP.sslGensecret) ?_
  · exact keeps_modify fun s h => hP s _ _ _ _ _ h
  · exact keeps_modify fun s h => hP s _ _ _ _ _ h

theorem sslEncapsulate {key : Pkey} : Keeps P (Tls13.sslEncapsulate lib key rnd) := by
  refine keeps_orThrow.bind fun _ => keeps_check.bind fun _ => Keeps.bind ?_ fun _ => keeps_pure
  exact keeps_modify fun s h => hP s _ _ _ _ _ h

theorem kyber {ss : Buf 32} (hx : Keeps P x) : Keeps P (do
      modify fun s => { s with kyberSecrets := s.kyberSecrets ++ [ss.1] }
      sslSm2Kyber768Tls13CombineAndGensecret ss
      x) := by
  refine Keeps.bind (keeps_modify fun s h => hP s _ _ _ _ _ h) fun _ => Keeps.bind ?_ fun _ => hx
  refine keeps_get.bind fun _ => keeps_orThrow.bind fun _ => keeps_check.bind fun _ => ?_
  exact Keeps.bind (keeps_modify fun s h => hP s _ _ _ _ _ h) fun _ => hP.sslGensecret

end Bookkeeping

/-- A derivation without a key share. -/
theorem Sound.without (h : Sound s) : Sound { s with inputs := s.inputs ++ [none] } := by
  refine { h with inputs := ?_ }
  intro b hb
  rcases List.mem_append.mp hb with hold | hnew
  · exact h.inputs b hold
  · simp at hnew

/-- The role and the two switches. -/
def Switches (server hybrid ctx : Bool) (s : ShareConn Pkey) : Prop :=
  s.server = server ∧ s.hybrid = hybrid ∧ s.ctxHybrid = ctx

/-! ## the server -/

theorem parseKyberShare_ok
    (h : (parseKyberShare env encodedPt).run s = .ok () t) :
    ∃ pk, t = { s with peerKyber768Pk := some pk } := by
  rw [parseKyberShare, run_get_bind_ok, run_check_bind_ok, run_check_bind_ok,
    run_orThrow_bind_ok] at h
  obtain ⟨_, _, pk, _, h⟩ := h
  rw [run_modify_ok] at h
  exact ⟨pk, h.symm⟩

/-- A Kyber768 share that was found is kept. -/
theorem parseShares_kyber {fuel : Nat} {list : Bytes} {found foundKyber : Bool} {r : Bool × Bool}
    (h : (parseShares lib env fuel list found foundKyber).run s = .ok r t)
    (hk : foundKyber = true → s.peerKyber768Pk.isSome = true) (hr : r.2 = true) :
    t.peerKyber768Pk.isSome = true := by
  induction fuel generalizing s list found foundKyber with
  | zero =>
    cases list with
    | nil =>
      obtain ⟨hr', ht⟩ := run_pure_ok.mp h
      subst hr' ht
      exact hk hr
    | cons b bs => exact (run_throw_ok.mp h).elim
  | succ fuel ih =>
    cases list with
    | nil =>
      obtain ⟨hr', ht⟩ := run_pure_ok.mp h
      subst hr' ht
      exact hk hr
    | cons b bs =>
      rw [parseShares, run_orThrow_bind_ok] at h
      obtain ⟨⟨groupId, pkt⟩, _, h⟩ := h
      rw [run_orThrow_bind_ok] at h
      obtain ⟨⟨encodedPt, rest⟩, _, h⟩ := h
      rw [run_check_bind_ok, run_get_bind_ok] at h
      obtain ⟨_, h⟩ := h
      split at h
      · obtain ⟨_, u, hkyber, h⟩ := run_bind_ok.mp h
        obtain ⟨pk, hu⟩ := parseKyberShare_ok hkyber
        subst hu
        exact ih h fun _ => rfl
      · split at h
        · exact ih h hk
        · obtain ⟨found', u, hshare, h⟩ := run_bind_ok.mp h
          have hsame : foundKyber = true → u.peerKyber768Pk.isSome = true := by
            have hkeeps : Keeps (fun s : ShareConn Pkey => foundKyber = true →
                s.peerKyber768Pk.isSome = true)
                (parseShare lib env groupId encodedPt (!rest.isEmpty)) :=
              keeps_parseShare fun _ _ _ _ h => h
            exact hkeeps.ok hk hshare
          exact ih h hsame

/-- With the switch of the `SSL_CTX` on, the server takes both shares or
none. -/
theorem tlsParseCtosKeyShare_ready (hs : Ready s) (hserver : s.server = true)
    (hctx : s.ctxHybrid = true) (h : (tlsParseCtosKeyShare lib env pkt).run s = .ok () t) :
    Ready t ∧ t.server = true := by
  have hkeeps : Keeps (Switches true true true) (tlsParseCtosKeyShare lib env pkt) :=
    keeps_tlsParseCtosKeyShare (fun _ _ _ _ h => h) fun _ _ h => h
  obtain ⟨htserver, hthybrid, htctx⟩ := hkeeps.ok ⟨hserver, hs.hybrid, hctx⟩ h
  rw [tlsParseCtosKeyShare, run_get_bind_ok] at h
  rcases run_onlyIf_ok.mp h with ⟨_, h⟩ | ⟨_, hsame⟩
  · rw [run_check_bind_ok, run_orThrow_bind_ok] at h
    obtain ⟨_, ⟨list, rest⟩, _, h⟩ := h
    rw [run_check_bind_ok, run_check_bind_ok, run_check_bind_ok] at h
    obtain ⟨_, _, _, h⟩ := h
    obtain ⟨⟨found, foundKyber⟩, u, hshares, h⟩ := run_bind_ok.mp h
    rw [run_get_bind_ok, run_check_ok] at h
    obtain ⟨hboth, hu⟩ := h
    subst hu
    rw [htctx] at hboth
    obtain ⟨_, hkyber, hgroup⟩ := hboth.resolve_left (by decide)
    have hpk := parseShares_kyber hshares (by simp) hkyber
    refine ⟨⟨hthybrid, fun _ _ => ⟨hpk, hgroup⟩, ?_⟩, htserver⟩
    intro hclient
    rw [htserver] at hclient
    contradiction
  · subst hsame
    exact ⟨hs, hserver⟩

theorem retryStateless_ok (h : (retryStateless : ShareStep Pkey Unit).run s = .ok () t) :
    t = { s with helloRetryRequest := .pending } := by
  rw [retryStateless, run_get_bind_ok, run_check_bind_ok, run_modify_ok] at h
  exact h.2.symm

/-- The finaliser names a group only if there is no share. -/
theorem finalKeyShareServer_ok
    (h : (finalKeyShareServer env sent).run s = .ok () t) :
    ∃ hrr, t = { s with helloRetryRequest := hrr } ∨
      (s.peerTmp = none ∧ ∃ group, t = { s with groupId := group, helloRetryRequest := hrr }) := by
  rw [finalKeyShareServer, run_get_bind_ok] at h
  dsimp only at h
  split at h
  · split at h
    · exact ⟨_, .inl (retryStateless_ok h)⟩
    · exact ⟨_, .inl (run_modify_ok.mp h).symm⟩
  · next hnone =>
    split at h
    · next group _ =>
      exact ⟨_, .inr ⟨by simpa using hnone, group, (run_modify_ok.mp h).symm⟩⟩
    · rw [run_check_bind_ok] at h
      obtain ⟨_, h⟩ := h
      split at h
      · exact ⟨_, .inl (retryStateless_ok h)⟩
      · exact ⟨_, .inl (run_modify_ok.mp h).symm⟩

theorem finalKeyShare_ready (hs : Ready s) (hserver : s.server = true)
    (h : (finalKeyShare env sent).run s = .ok () t) : Ready t := by
  rw [finalKeyShare, run_get_bind_ok, if_pos hserver] at h
  obtain ⟨_, u, hfinal, h⟩ := run_bind_ok.mp h
  rw [run_get_bind_ok, run_check_ok] at h
  obtain ⟨_, hu⟩ := h
  subst hu
  obtain ⟨hrr, hu | ⟨hnone, group, hu⟩⟩ := finalKeyShareServer_ok hfinal
  · subst hu
    exact ⟨hs.hybrid, hs.server, hs.client⟩
  · subst hu
    refine ⟨hs.hybrid, ?_, ?_⟩
    · intro _ hsome
      simp [hnone] at hsome
    · intro hclient
      rw [hserver] at hclient
      contradiction

/-- A ClientHello, processed with the switch of the `SSL_CTX` on. -/
theorem processClientHello_ready (hs : Ready s) (hserver : s.server = true)
    (hctx : s.ctxHybrid = true) (h : (processClientHello lib env hello).run s = .ok () t) :
    Ready t := by
  rw [processClientHello, run_modify_bind_ok] at h
  obtain ⟨_, u, hparse, h⟩ := run_bind_ok.mp h
  rw [run_modify_bind_ok] at h
  have hadopt : Ready (hello.adopt s) := ⟨hs.hybrid, hs.server, hs.client⟩
  have hu : Ready u ∧ u.server = true := by
    cases hshare : hello.keyShare with
    | none =>
      rw [hshare] at hparse
      obtain ⟨_, hsame⟩ := run_pure_ok.mp hparse
      subst hsame
      exact ⟨hadopt, hserver⟩
    | some pkt =>
      rw [hshare] at hparse
      exact tlsParseCtosKeyShare_ready hadopt hserver hctx hparse
  obtain ⟨hready, huserver⟩ := hu
  exact finalKeyShare_ready (s := { u with ctxHybrid := hello.ctx.getD u.ctxHybrid })
    ⟨hready.hybrid, hready.server, hready.client⟩ huserver h

variable {P : ShareConn Pkey → Prop}

theorem keeps_parseExtension {ext : Option Bytes}
    {parser : Bytes → ShareStep Pkey Unit} (h : ∀ pkt, Keeps P (parser pkt)) :
    Keeps P (parseExtension ext parser) := by
  cases ext with
  | none => exact keeps_pure
  | some pkt => exact h pkt

theorem keeps_processClientHello : Keeps Sound (processClientHello lib env hello) := by
  refine (keeps_modify fun _ h => ⟨h.inputs, h.parked⟩).bind fun _ => ?_
  refine (keeps_parseExtension fun _ => keeps_tlsParseCtosKeyShare
    (fun _ _ _ _ h => ⟨h.inputs, h.parked⟩) fun _ _ h => ⟨h.inputs, h.parked⟩).bind fun _ => ?_
  refine (keeps_modify fun _ h => ⟨h.inputs, h.parked⟩).bind fun _ => ?_
  exact keeps_finalKeyShare (fun _ _ _ h => ⟨h.inputs, h.parked⟩) fun _ h => h.without

/-- The curve of the hybrid is no KEM. -/
def CurveNoKem (env : GroupTable Pkey) : Prop := env.isKem curveSM2 ≠ some true

/-- An ECDH secret is parked. -/
theorem Sound.parks (h : Sound s) (z : Bytes) :
    Sound { s with ecdhSecrets := s.ecdhSecrets ++ [z], pms := some z } := by
  refine ⟨?_, ?_⟩
  · intro b hb
    obtain ⟨z', hz', k, hk, hb⟩ := h.inputs b hb
    exact ⟨z', List.mem_append_left _ hz', k, hk, hb⟩
  · intro z' hz'
    injection hz' with hz'
    rw [← hz']
    exact List.mem_append_right _ (List.mem_singleton_self z)

theorem keeps_sslDerive {privkey pubkey : Pkey} :
    Keeps Sound (sslDerive lib privkey pubkey false) :=
  keeps_orThrow.bind fun _ => keeps_modify fun _ h => h.parks _

/-- Both secrets together. -/
theorem ends_combine {k : Buf 32} (h : Sound s) (hk : k.1 ∈ s.kyberSecrets) :
    Ends Sound (sslSm2Kyber768Tls13CombineAndGensecret k) s := by
  refine ends_get_bind (ends_orThrow_bind h fun z hz => ends_check_bind h fun _ => ?_)
  refine ⟨?_, ?_⟩
  · intro b hb
    rcases List.mem_append.mp hb with hold | hnew
    · exact h.inputs b hold
    · injection List.mem_singleton.mp hnew with hb
      exact ⟨z, h.parked z hz, k.1, hk, hb⟩
  · intro z' hz'
    contradiction

theorem Sound.kyber (h : Sound s) (k : Bytes) :
    Sound { s with kyberSecrets := s.kyberSecrets ++ [k] } := by
  refine ⟨?_, h.parked⟩
  intro b hb
  obtain ⟨z, hz, k', hk', hb⟩ := h.inputs b hb
  exact ⟨z, hz, k', List.mem_append_left _ hk', hb⟩

theorem keeps_didKex {f : ShareConn Pkey → Bool} :
    Keeps Sound (modify fun s => { s with didKex := f s } : ShareStep Pkey Unit) :=
  keeps_modify fun _ h => ⟨h.inputs, h.parked⟩

/-- A Kyber768 secret, and the derivation with it. -/
theorem ends_kyber_bind {ss : Buf 32} (h : Sound s)
    (hx : Keeps Sound x) :
    Ends Sound (do
      modify fun s => { s with kyberSecrets := s.kyberSecrets ++ [ss.1] }
      sslSm2Kyber768Tls13CombineAndGensecret ss
      x) s := by
  refine ends_modify_bind ?_
  have hcombine := ends_combine (s := { s with kyberSecrets := s.kyberSecrets ++ [ss.1] })
    (h.kyber ss.1) (List.mem_append_right _ (List.mem_singleton_self ss.1))
  exact hcombine.bind_keeps fun _ => hx

theorem keeps_tlsConstructStocKyber768Ciphertext :
    Keeps Sound (tlsConstructStocKyber768Ciphertext lib rnd) := by
  constructor
  intro s h
  refine ends_get_bind ?_
  split
  · exact h
  · split
    · refine ends_orThrow_bind h fun _ _ => ?_
      exact ends_kyber_bind h (keeps_didKex.bind fun _ => keeps_pure)
    · exact h

/-- The server's share in hybrid mode: the ECDH secret is parked. -/
theorem ends_serverShare {ckey : Pkey} (hpending : s.kyberPending = true)
    (h : Sound s) : Ends Sound (serverShare lib rnd false ckey) s := by
  refine ends_get_bind (ends_orThrow_bind h fun skey _ => ends_check_bind h fun _ => ?_)
  refine ends_orThrow_bind h fun share _ => ends_modify_bind ?_
  rw [hpending]
  exact (keeps_sslDerive.bind fun _ => keeps_pure).ends ⟨h.inputs, h.parked⟩

/-- The server's key_share: nothing is derived from the ECDH secret alone. -/
theorem ends_tlsConstructStocKeyShare (henv : CurveNoKem env) (hready : Ready s)
    (hserver : s.server = true) (h : Sound s) :
    Ends Sound (tlsConstructStocKeyShare lib env rnd) s := by
  refine ends_get_bind ?_
  split
  · exact h
  · split
    · exact ends_check_bind h fun _ => h.without
    · next ckey hpeer =>
      split
      · exact h
      · obtain ⟨hkyber, hgroup⟩ := hready.server hserver (by rw [hpeer]; rfl)
        refine ends_orThrow_bind h fun isKem hkem => ?_
        have hnot : isKem = false := by
          rw [hgroup] at hkem
          cases isKem with
          | false => rfl
          | true => exact absurd hkem henv
        have hpending : s.kyberPending = true := by
          simp [ShareConn.kyberPending, hready.hybrid, hkyber]
        subst hnot
        refine (ends_serverShare hpending h).bind_keeps fun _ => ?_
        exact keeps_didKex.bind fun _ => keeps_pure

/-- The server's shares, while nothing touches them. -/
def ServerShares (s : ShareConn Pkey) : Prop := s.hybrid = true ∧ s.server = true ∧
    (s.peerTmp.isSome = true → s.peerKyber768Pk.isSome = true ∧ s.groupId = curveSM2)

theorem Ready.serverShares (h : Ready s) (hserver : s.server = true) : ServerShares s :=
  ⟨h.hybrid, hserver, h.server hserver⟩

theorem ServerShares.ready (h : ServerShares s) : Ready s :=
  ⟨h.1, fun _ => h.2.2, fun hclient => absurd (h.2.1.symm.trans hclient) (by decide)⟩

/-- Constructing the ServerHello leaves the peer's shares alone. -/
theorem ServerShares.keeps_constructServerHello {rnd : ServerRandom} :
    Keeps ServerShares (constructServerHello lib env rnd) := by
  have hsecrets : Bookkeeping (fun s : ShareConn Pkey => ServerShares s) := fun _ _ _ _ _ _ h => h
  have hpkey : ∀ key, Keeps ServerShares
      (modify fun s => { s with pkey := some key } : ShareStep Pkey Unit) :=
    fun key => keeps_modify fun _ h => h
  have hshare : ∀ r isKem ckey, Keeps ServerShares (serverShare lib r isKem ckey) := by
    intro r isKem ckey
    refine keeps_get.bind fun _ => Keeps.ite ?_ ?_
    · refine hsecrets.sslEncapsulate.bind fun _ => keeps_orThrow.bind fun _ => ?_
      refine keeps_get.bind fun _ => keeps_orThrow.bind fun _ => ?_
      exact hsecrets.sslGensecret.bind fun _ => keeps_pure
    · refine keeps_orThrow.bind fun _ => keeps_check.bind fun _ => keeps_orThrow.bind fun _ => ?_
      exact (hpkey _).bind fun _ => hsecrets.sslDerive.bind fun _ => keeps_pure
  have hkeyShare : ∀ r, Keeps ServerShares (tlsConstructStocKeyShare lib env r) := by
    intro r
    refine keeps_get.bind fun s => Keeps.ite keeps_pure ?_
    split
    · exact keeps_check.bind fun _ => hsecrets.handshakeSecret.bind fun _ => keeps_pure
    · refine Keeps.ite keeps_pure (keeps_orThrow.bind fun _ => (hshare _ _ _).bind fun _ => ?_)
      exact hsecrets.didKex.bind fun _ => keeps_pure
  have hkyber : ∀ r, Keeps ServerShares (tlsConstructStocKyber768Ciphertext lib r) := by
    intro r
    refine keeps_get.bind fun s => Keeps.ite keeps_pure ?_
    split
    · refine keeps_orThrow.bind fun _ => ?_
      exact (hsecrets.kyber (hsecrets.didKex.bind fun _ => keeps_pure))
    · exact keeps_pure
  exact (hkeyShare _).bind fun _ => (hkyber _).bind fun _ => keeps_pure

/-- **The server derives from both secrets.** -/
theorem ends_constructServerHello {rnd : ServerRandom} (henv : CurveNoKem env) (hready : Ready s)
    (hserver : s.server = true) (h : Sound s) :
    Ends Sound (constructServerHello lib env rnd) s := by
  refine (ends_tlsConstructStocKeyShare henv hready hserver h).bind_keeps fun _ => ?_
  exact keeps_tlsConstructStocKyber768Ciphertext.bind fun _ => keeps_pure

/-! ## the client -/

/-- The client's shares, while nothing touches them. -/
def ClientShares (s : ShareConn Pkey) : Prop :=
  s.hybrid = true ∧ s.server = false ∧ (s.pkey.isSome = true → s.groupId = curveSM2)

theorem Ready.clientShares (h : Ready s) (hclient : s.server = false) : ClientShares s :=
  ⟨h.hybrid, hclient, h.client hclient⟩

theorem ClientShares.ready (h : ClientShares s) : Ready s :=
  ⟨h.1, fun hserver => absurd (h.2.1.symm.trans hserver) (by decide), fun _ => h.2.2⟩

theorem keeps_keyShareKey {curveId : Nat} :
    Keeps P (keyShareKey lib rnd curveId) := by
  refine keeps_get.bind fun s => ?_
  split
  · exact keeps_check.bind fun _ => keeps_pure
  · exact keeps_orThrow

/-- The client's key is for the group that its share names. -/
theorem keeps_addKeyShare {curveId : Nat}
    (hP : ∀ s key, P s → P { s with pkey := some key, groupId := curveId }) :
    Keeps P (addKeyShare lib rnd curveId) := by
  refine keeps_keyShareKey.bind fun key => keeps_check.bind fun _ => keeps_orThrow.bind fun _ => ?_
  exact (keeps_modify fun s h => hP s key h).bind fun _ => keeps_pure

theorem keeps_addKeyShareKyber768
    (hP : ∀ s sk, P s → P { s with kyber768CliSk := sk }) :
    Keeps P (addKeyShareKyber768 lib rnd) := by
  refine keeps_get.bind fun _ => keeps_check.bind fun _ => keeps_orThrow.bind fun _ => ?_
  exact (keeps_modify fun s h => hP s _ h).bind fun _ => keeps_pure

theorem keeps_tlsConstructCtosKeyShare {rnd : ShareRandom} :
    Keeps Sound (tlsConstructCtosKeyShare lib env rnd) := by
  have hshare : ∀ r group, Keeps Sound (addKeyShare lib r group) :=
    fun _ _ => keeps_addKeyShare fun _ _ h => ⟨h.inputs, h.parked⟩
  have hkyber : ∀ r, Keeps Sound (addKeyShareKyber768 lib r) :=
    fun _ => keeps_addKeyShareKyber768 fun _ _ h => ⟨h.inputs, h.parked⟩
  refine keeps_get.bind fun _ => Keeps.ite ?_ ?_
  · refine keeps_check.bind fun _ => keeps_check.bind fun _ => (hshare _ _).bind fun _ => ?_
    exact (hkyber _).bind fun _ => keeps_orThrow
  · exact keeps_orThrow.bind fun _ => (hshare _ _).bind fun _ => keeps_orThrow

/-- A hybrid client sends its share for SM2. -/
theorem ClientShares.ends_tlsConstructCtosKeyShare {rnd : ShareRandom} (h : ClientShares s) :
    Ends ClientShares (tlsConstructCtosKeyShare lib env rnd) s := by
  refine ends_get_bind ?_
  rw [if_pos h.1]
  refine ends_check_bind h fun _ => ends_check_bind h fun _ => ?_
  have hshare : ∀ r, Keeps ClientShares (addKeyShare lib r curveSM2) :=
    fun _ => keeps_addKeyShare fun _ _ h => ⟨h.1, h.2.1, fun _ => rfl⟩
  have hkyber : ∀ r, Keeps ClientShares (addKeyShareKyber768 lib r) :=
    fun _ => keeps_addKeyShareKyber768 fun _ _ h => h
  exact ((hshare _).bind fun _ => (hkyber _).bind fun _ => keeps_orThrow).ends h

theorem keeps_processHelloRetryRequest {keyShare : Option Bytes}
    (hpending : ∀ s, P s → P { s with helloRetryRequest := .pending })
    (hP : ∀ s group, P s → P { s with groupId := group, pkey := none }) :
    Keeps P (processHelloRetryRequest env keyShare) := by
  refine (keeps_modify hpending).bind fun _ => keeps_parseExtension fun _ => ?_
  refine keeps_get.bind fun _ => keeps_check.bind fun _ => keeps_orThrow.bind fun _ => ?_
  refine keeps_check.bind fun _ => keeps_check.bind fun _ => keeps_check.bind fun _ => ?_
  exact keeps_modify fun s h => hP s _ h

/-- The server's share at a hybrid client: the ECDH secret is parked. -/
theorem ends_clientShare {ckey : Pkey} (hhybrid : s.hybrid = true)
    (h : Sound s) : Ends Sound (clientShare lib env false ckey encodedPt) s := by
  refine ends_get_bind (ends_orThrow_bind h fun skey _ => ?_)
  rw [hhybrid]
  refine (keeps_sslDerive.ends h).bind_keeps fun _ => ?_
  exact keeps_modify fun _ h => ⟨h.inputs, h.parked⟩

theorem ends_tlsParseStocKeyShare (henv : CurveNoKem env) (hs : ClientShares s)
    (h : Sound s) : Ends Sound (tlsParseStocKeyShare lib env pkt) s := by
  refine ends_get_bind (ends_orThrow_bind h fun ckey hckey => ends_check_bind h fun _ => ?_)
  refine ends_orThrow_bind h fun ⟨groupId, pkt⟩ _ => ends_check_bind h fun hgroup => ?_
  have hcurve : groupId = curveSM2 := hgroup.trans (hs.2.2 (by rw [hckey]; rfl))
  have hkex : Sound { s with kexGroup := groupId } := ⟨h.inputs, h.parked⟩
  refine ends_modify_bind (ends_orThrow_bind hkex fun isKem hkem => ?_)
  have hnot : isKem = false := by
    rw [hcurve] at hkem
    cases isKem with
    | false => rfl
    | true => exact absurd hkem henv
  subst hnot
  refine ends_orThrow_bind hkex fun _ _ => ends_check_bind hkex fun _ => ?_
  exact (ends_clientShare (s := { s with kexGroup := groupId }) hs.1 hkex).bind_keeps fun _ => keeps_didKex

theorem keeps_tlsParseStocKyber768Ciphertext :
    Keeps Sound (tlsParseStocKyber768Ciphertext lib pkt) := by
  refine keeps_get.bind fun _ => Keeps.onlyIf (keeps_orThrow.bind fun _ => ?_)
  refine keeps_orThrow.bind fun _ => keeps_check.bind fun _ => keeps_orThrow.bind fun _ => ?_
  exact ⟨fun s h => ends_kyber_bind h keeps_didKex⟩

theorem keeps_finalTls13Kyber768Ciphertext :
    Keeps P (finalTls13Kyber768Ciphertext sent) := keeps_get.bind fun _ => keeps_check

/-- **The client derives from both secrets.** -/
theorem ends_processServerHello {hello : ServerHello} (henv : CurveNoKem env)
    (hs : ClientShares s) (h : Sound s) : Ends Sound (processServerHello lib env hit hello) s := by
  refine ends_modify_bind ?_
  have hhit : Sound { s with hit := hit } := ⟨h.inputs, h.parked⟩
  have hparse : Ends Sound (parseExtension hello.keyShare (tlsParseStocKeyShare lib env))
      { s with hit := hit } := by
    cases hello.keyShare with
    | none => exact hhit
    | some pkt => exact ends_tlsParseStocKeyShare henv hs hhit
  refine hparse.bind_keeps fun _ => ?_
  refine (keeps_parseExtension fun _ => keeps_tlsParseStocKyber768Ciphertext).bind fun _ => ?_
  refine (keeps_finalKeyShare (fun _ _ _ h => ⟨h.inputs, h.parked⟩) fun _ h => h.without).bind ?_
  exact fun _ => keeps_finalTls13Kyber768Ciphertext

/-- Processing the ServerHello leaves the client's own shares alone. -/
theorem ClientShares.keeps_processServerHello {hello : ServerHello} :
    Keeps ClientShares (processServerHello lib env hit hello) := by
  have hsecrets : Bookkeeping (fun s : ShareConn Pkey => ClientShares s) :=
    fun _ _ _ _ _ _ h => h
  have hshare : ∀ isKem ckey pt, Keeps ClientShares (clientShare lib env isKem ckey pt) := by
    intro isKem ckey pt
    refine keeps_get.bind fun _ => Keeps.ite ?_ ?_
    · exact keeps_orThrow.bind fun _ => hsecrets.sslGensecret
    · refine keeps_orThrow.bind fun _ => hsecrets.sslDerive.bind fun _ => ?_
      exact keeps_modify fun _ h => h
  have hkeyShare : ∀ pkt, Keeps ClientShares (tlsParseStocKeyShare lib env pkt) := by
    intro pkt
    refine keeps_get.bind fun _ => keeps_orThrow.bind fun _ => keeps_check.bind fun _ => ?_
    refine keeps_orThrow.bind fun _ => keeps_check.bind fun _ => Keeps.bind ?_ fun _ => ?_
    · exact keeps_modify fun _ h => h
    · refine keeps_orThrow.bind fun _ => keeps_orThrow.bind fun _ => keeps_check.bind fun _ => ?_
      exact (hshare _ _ _).bind fun _ => hsecrets.didKex
  have hkyber : ∀ pkt, Keeps ClientShares (tlsParseStocKyber768Ciphertext lib pkt) := by
    intro pkt
    refine keeps_get.bind fun _ => Keeps.onlyIf (keeps_orThrow.bind fun _ => ?_)
    refine keeps_orThrow.bind fun _ => keeps_check.bind fun _ => keeps_orThrow.bind fun _ => ?_
    exact hsecrets.kyber hsecrets.didKex
  have hfinal : ∀ sent, Keeps ClientShares (finalKeyShare env sent) := by
    intro sent
    have hends : ∀ s, ClientShares s → Ends ClientShares (finalKeyShare env sent) s := by
      intro s h
      refine ends_get_bind ?_
      rw [h.2.1]
      exact (keeps_check.bind fun _ => Keeps.onlyIf hsecrets.handshakeSecret).ends h
    exact ⟨hends⟩
  refine Keeps.bind (keeps_modify fun _ h => h) fun _ => ?_
  refine (keeps_parseExtension hkeyShare).bind fun _ => (keeps_parseExtension hkyber).bind fun _ => ?_
  exact (hfinal _).bind fun _ => keeps_finalTls13Kyber768Ciphertext

/-! ## every run -/

/-- What holds of a connection at any time. -/
structure NoDowngrade (s : ShareState Pkey) : Prop where
  sound : Sound s.conn
  ready : s.failed = false → Ready s.conn

/-- A server's `SSL_CTX` has the hybrid on when a ClientHello's key_share is
parsed. -/
def CtxOn (s : ShareState Pkey) : ShareEvent → Prop
  | .clientHello _ => s.conn.ctxHybrid = true
  | _ => True

instance (s : ShareState Pkey) (e : ShareEvent) : Decidable (CtxOn s e) := by
  unfold CtxOn
  split <;> infer_instance

/-- What a function leaves behind. -/
theorem noDowngrade_outcome (hsound : Ends Sound x s)
    (hready : ∀ a t, x.run s = .ok a t → Ready t) : NoDowngrade (outcome (x.run s)) := by
  unfold Ends at hsound
  cases hx : x.run s with
  | ok a t =>
    rw [hx] at hsound
    exact ⟨hsound, fun _ => hready a t hx⟩
  | error e t =>
    rw [hx] at hsound
    exact ⟨hsound, fun h => nomatch h⟩

/-- The two messages that the server takes part in. -/
theorem noDowngrade_processClientHello (hready : Ready s)
    (hserver : s.server = true) (hctx : s.ctxHybrid = true) (h : Sound s) :
    NoDowngrade (outcome ((processClientHello lib env hello).run s)) :=
  noDowngrade_outcome (keeps_processClientHello.ends h) fun _ _ ht =>
    processClientHello_ready hready hserver hctx ht

theorem noDowngrade_constructServerHello {rnd : ServerRandom} (henv : CurveNoKem env)
    (hready : Ready s) (hserver : s.server = true) (h : Sound s) :
    NoDowngrade (outcome ((constructServerHello lib env rnd).run s)) :=
  noDowngrade_outcome (ends_constructServerHello henv hready hserver h) fun _ _ ht =>
    (ServerShares.keeps_constructServerHello.ok (hready.serverShares hserver) ht).ready

/-- The three messages that the client takes part in. -/
theorem noDowngrade_tlsConstructCtosKeyShare {rnd : ShareRandom} (hs : ClientShares s)
    (h : Sound s) : NoDowngrade (outcome ((tlsConstructCtosKeyShare lib env rnd).run s)) :=
  noDowngrade_outcome (keeps_tlsConstructCtosKeyShare.ends h) fun _ _ ht =>
    (hs.ends_tlsConstructCtosKeyShare.ok ht).ready

theorem noDowngrade_processServerHello {hello : ServerHello} (henv : CurveNoKem env)
    (hs : ClientShares s) (h : Sound s) :
    NoDowngrade (outcome ((processServerHello lib env hit hello).run s)) :=
  noDowngrade_outcome (ends_processServerHello henv hs h) fun _ _ ht =>
    (ClientShares.keeps_processServerHello.ok hs ht).ready

theorem noDowngrade_processHelloRetryRequest {keyShare : Option Bytes} (hs : ClientShares s)
    (h : Sound s) : NoDowngrade (outcome ((processHelloRetryRequest env keyShare).run s)) := by
  have hsound : Keeps Sound (processHelloRetryRequest env keyShare : ShareStep Pkey Unit) :=
    keeps_processHelloRetryRequest (fun _ h => ⟨h.inputs, h.parked⟩)
      fun _ _ h => ⟨h.inputs, h.parked⟩
  have hshares :
      Keeps ClientShares (processHelloRetryRequest env keyShare : ShareStep Pkey Unit) :=
    keeps_processHelloRetryRequest (fun _ h => h)
      fun _ _ h => ⟨h.1, h.2.1, fun hsome => nomatch hsome⟩
  exact noDowngrade_outcome (hsound.ends h) fun _ _ ht => (hshares.ok hs ht).ready

theorem NoDowngrade.step {s t : ShareState Pkey} {e : ShareEvent} (henv : CurveNoKem env)
    (h : NoDowngrade s) (hctx : CtxOn s e) (hstep : shareStep lib env s e = some t) :
    NoDowngrade t := by
  have hsound := h.sound
  unfold shareStep at hstep
  split at hstep
  · contradiction
  · next hlive =>
    have hready := h.ready (by simpa using hlive)
    split at hstep
    · injection hstep with ht
      subst ht
      exact ⟨⟨hsound.inputs, hsound.parked⟩,
        fun _ => ⟨hready.hybrid, hready.server, hready.client⟩⟩
    · next hserver =>
      injection hstep with ht
      subst ht
      exact noDowngrade_processClientHello hready hserver hctx hsound
    · next hserver =>
      injection hstep with ht
      subst ht
      exact noDowngrade_constructServerHello henv hready hserver hsound
    · next hclient =>
      injection hstep with ht
      subst ht
      exact noDowngrade_tlsConstructCtosKeyShare (hready.clientShares hclient) hsound
    · next hclient =>
      injection hstep with ht
      subst ht
      exact noDowngrade_processServerHello henv (hready.clientShares hclient) hsound
    · next hclient =>
      injection hstep with ht
      subst ht
      exact noDowngrade_processHelloRetryRequest (hready.clientShares hclient) hsound
    · contradiction

/-- A connection that the handshake has not started on. -/
structure Fresh (s : ShareConn Pkey) : Prop where
  hybrid : s.hybrid = true
  pkey : s.pkey = none
  peerTmp : s.peerTmp = none
  pms : s.pms = none
  inputs : s.inputs = []

theorem Fresh.noDowngrade (h : Fresh s) : NoDowngrade ⟨s, false⟩ := by
  have hsound : Sound s := by
    refine ⟨?_, ?_⟩
    · intro b hb
      rw [h.inputs] at hb
      contradiction
    · intro z hz
      rw [h.pms] at hz
      contradiction
  refine ⟨hsound, fun _ => ⟨h.hybrid, ?_, ?_⟩⟩
  · intro _ hpeer
    simp [h.peerTmp] at hpeer
  · intro _ hpkey
    simp [h.pkey] at hpkey

/-- **No downgrade of the hybrid.** If the `SSL_CTX` that is attached when a
ClientHello is processed has the hybrid on, every handshake secret that a
connection with the hybrid on derives from a key share, up to any point of any
run, is derived from an ECDH secret followed by a Kyber768 secret. -/
theorem no_downgrade {t : ShareState Pkey} {es : List ShareEvent} (henv : CurveNoKem env)
    (hs : Fresh s) (hmeets : Run.Meets (shareStep lib env) CtxOn ⟨s, false⟩ es)
    (hrun : Run.run (shareStep lib env) ⟨s, false⟩ es = some t) :
    ∀ b, some b ∈ t.conn.inputs → Combined t.conn b := by
  have hinv : NoDowngrade t :=
    Run.invariant (fun _ _ _ h hctx hstep => h.step henv hctx hstep) hs.noDowngrade hmeets hrun
  exact hinv.sound.inputs

/-- A server with the hybrid on. -/
def plainServer (ctxHybrid : Bool) : ShareConn (String × Bytes) where
  server := true
  hybrid := true
  ctxHybrid := ctxHybrid
  groups := [curveSM2, kyber768Group]

/-- The SM2 share of a ClientHello. -/
def plainShare : Bytes := [0, 41, 0, 3, 4, 5, 6]

/-- A ClientHello with the given shares. -/
def plainHello (shares : Bytes) : ClientHello where
  groups := [curveSM2, kyber768Group]
  peerGroups := [curveSM2, kyber768Group]
  keyShare := putPrefixed 2 shares

theorem plainServer_fresh (ctxHybrid : Bool) : Fresh (plainServer ctxHybrid) :=
  ⟨rfl, rfl, rfl, rfl, rfl⟩

theorem GroupTable.plain_curveNoKem : CurveNoKem GroupTable.plain := by
  unfold CurveNoKem
  decide

/-- A ClientHello with both shares, and the ServerHello. -/
def plainEvents : List ShareEvent :=
  [.clientHello (plainHello (plainShare ++ (putUint 2 kyber768Group ++
      (putUint 2 1184 ++ (Buf.zero 1184).1)))),
    .serverHello { share := [4, 1, 2] }]

theorem no_downgrade_plain :
    ∃ t, Run.run (shareStep Libcrypto.plain .plain) ⟨plainServer true, false⟩ plainEvents = some t ∧
      t.conn.inputs = [some ([8, 6, 8] ++ (Buf.zero 32).1)] ∧
      ∀ b, some b ∈ t.conn.inputs → Combined t.conn b := by
  have hinputs : (Run.run (shareStep Libcrypto.plain .plain) ⟨plainServer true, false⟩
      plainEvents).map (fun t => t.conn.inputs) = some [some ([8, 6, 8] ++ (Buf.zero 32).1)] := by
    decide +kernel
  obtain ⟨t, hrun, hinputs⟩ := Option.map_eq_some_iff.mp hinputs
  have hmeets : Run.Meets (shareStep Libcrypto.plain .plain) CtxOn ⟨plainServer true, false⟩
      plainEvents := by
    decide +kernel
  exact ⟨t, hrun, hinputs,
    no_downgrade GroupTable.plain_curveNoKem (plainServer_fresh true) hmeets hrun⟩

/-- The `SSL_CTX` has the hybrid off when the ClientHello comes, and the
connection has it on: the handshake secret is from the ECDH secret alone. -/
theorem downgrade : Fresh (plainServer false) ∧
    ∃ t, Run.run (shareStep Libcrypto.plain .plain) ⟨plainServer false, false⟩
        [.clientHello (plainHello plainShare), .serverHello { share := [4, 1, 2] }] = some t ∧
      t.failed = false ∧ t.conn.ecdhSecrets = [[8, 6, 8]] ∧ t.conn.kyberSecrets = [] ∧
      t.conn.inputs = [some [8, 6, 8]] ∧ ¬ Combined t.conn [8, 6, 8] := by
  refine ⟨plainServer_fresh false, _, rfl, rfl, rfl, rfl, rfl, ?_⟩
  intro ⟨_, _, _, hk, _⟩
  contradiction

end Tlcp.Tls13
