import Tlcp.Ntls.ServerAuth

/-!
# Tlcp.Ntls.Sm2dhe

The ephemeral SM2 suites on one server object, over any number of handshakes.

For `kSM2DHE` both ends derive the premaster between keys of type SM2.
`ssl_derive_ntls` sets the derivation up without parameters, and the exchange
that the SM2 key type has, `sm2dh_exch.c`, refuses to start without the keys of
the encryption certificates: `Sm2dhRefused`.  With such a libcrypto the server
accepts no ClientKeyExchange of a `kSM2DHE` suite, so no full handshake with
one comes to `TLS_ST_OK`, the first on an object or a later one
(`sm2dhe_ok_authenticated`).
-/

namespace Tlcp

open Octets Fallible

variable {X509 Pkey : Type} {lib : Libcrypto X509 Pkey} {s t : SSL X509 Pkey}
  {mt : MsgType} {body heap : Bytes}
variable {tr : List (Obs X509)} {b : Bytes}

/-- Between two SM2 keys nothing is derived: `EVP_PKEY_derive_init` gets no
parameters, and `sm2dh_init` fails without them. -/
def Sm2dhRefused (lib : Libcrypto X509 Pkey) : Prop :=
  ∀ key peer, lib.deriveSm2 key peer = none

/-- The suite under negotiation is an ephemeral SM2 one. -/
def SSL.sm2dhe (s : SSL X509 Pkey) : Prop := s.mkey = Mkey.kSM2DHE

instance (s : SSL X509 Pkey) : Decidable s.sm2dhe := inferInstanceAs (Decidable (_ = _))

/-- A ClientKeyExchange or a Finished of the client was accepted. -/
def keyed (tr : List (Obs X509)) : Prop :=
  ∃ mt b, (mt = .clientKeyExchange ∨ mt = .finished) ∧ Obs.accepted mt b ∈ tr

/-- The states of a full handshake behind the ClientKeyExchange. -/
def pastKex : HandState → Prop
  | .srKeyExch | .srCertVrfy | .srChange | .srNextProto | .srFinished | .swSessionTicket
  | .swChange | .swFinished => True
  | _ => False

/-- The ClientKeyExchange of this suite is refused. -/
theorem tlsProcessClientKeyExchange_refused {r : Bytes × Kex Pkey} (hlib : Sm2dhRefused lib)
    (h : tlsProcessClientKeyExchange lib heap s body = .ok r) : ¬ s.sm2dhe := by
  intro hs
  have hsuite : tlsProcessClientKeyExchange lib heap s body = tlsProcessCkeSm2dhe lib s body := by
    rw [tlsProcessClientKeyExchange, hs]
    rfl
  rw [hsuite] at h
  simp only [tlsProcessCkeSm2dhe, except_bind_ok, orFatal_eq_ok, require_eq_ok, Prod.exists] at h
  -- whatever was parsed before, the last step needs the derived secret
  obtain ⟨_, _, _, _, _, _, _, _, _, _, skey, _, ckey, _, secret, hsecret, _⟩ := h
  simp [hlib skey ckey] at hsecret

/-! ## histories that grow -/

theorem keyed_sent : keyed (tr ++ [.sent mt b]) ↔ keyed tr := by
  simp [keyed]

theorem SSL.sm2dhe_congr (h : t.s3.tmp.newCipher = s.s3.tmp.newCipher) : t.sm2dhe ↔ s.sm2dhe := by
  unfold SSL.sm2dhe SSL.mkey
  rw [h]

/-! ## the invariant -/

/-- While the ClientHello is worked on nothing else was accepted, and behind the
ClientKeyExchange of a full handshake the suite is none of these. -/
structure KexInv (s : SSL X509 Pkey) : Prop where
  hello : s.statem.handState = .srClntHello → ¬ keyed s.trace
  past : pastKex s.statem.handState ∨ keyed s.trace → s.hit = false → ¬ s.sm2dhe

/-- A step that comes from behind the ClientKeyExchange if it leads there. -/
theorem KexInv.behind (hk : KexInv s) (hne : t.statem.handState ≠ .srClntHello)
    (hback : pastKex t.statem.handState ∨ keyed t.trace →
      pastKex s.statem.handState ∨ keyed s.trace)
    (hcipher : t.s3.tmp.newCipher = s.s3.tmp.newCipher) (hhit : t.hit = s.hit) : KexInv t := by
  refine ⟨fun h => absurd h hne, fun hpast hfull => ?_⟩
  rw [SSL.sm2dhe_congr hcipher]
  rw [hhit] at hfull
  exact hk.past (hback hpast) hfull

theorem KexInv.read (hlib : Sm2dhRefused lib) (hs : ServerInv s) (hk : KexInv s)
    (hst : s.statem.state = .reading) (h : ServerRead lib s t mt body) : KexInv t := by
  cases h with
  | hello body dg bf ch ret hfrom hret hfed ht =>
    have hopen : s.trace = [] := by
      cases hfrom with
      | inl hbefore => exact (hs.before hbefore).1
      | inr hok => exact (hs.opening hst hok).1
    have hnew : ¬ keyed t.trace ∧ t.statem.handState = .srClntHello := by
      subst ht
      cases ret <;> simp [SSL.afterProcess, hopen, keyed]
    refine ⟨fun _ => hnew.1, fun hpast => ?_⟩
    simp [hnew.1, hnew.2, pastKex] at hpast
  | noCertificate _ _ _ _ _ _ _ _ ht | certificate _ _ _ _ _ _ _ _ _ _ _ _ ht =>
    obtain ⟨vr, ht⟩ := ht
    subst ht
    exact hk.behind (by simp) (fun h => .inr (by simpa [pastKex, keyed] using h)) rfl rfl
  | keyExchange body dg dg' bf hfrom hfed hhash ht hcke =>
    obtain ⟨kex, mk, ht⟩ := ht
    obtain ⟨heap, s', res, hmkey, hcke⟩ := hcke
    have hnot : ¬ s.sm2dhe := by
      have hnot' := tlsProcessClientKeyExchange_refused hlib hcke
      rwa [SSL.sm2dhe, hmkey] at hnot'
    subst ht
    exact ⟨by simp, fun _ _ => hnot⟩
  | certVerify body peer dg bf hfrom hpeer hsigned hfed ht =>
    obtain ⟨lu, ht⟩ := ht
    subst ht
    exact hk.behind (by simp) (fun _ => .inl (by simp [hfrom, pastKex])) rfl rfl
  | change hfrom ht =>
    have hpast : pastKex s.statem.handState := by
      rcases hfrom with hkex | hcv | hfin
      · simp [hkex.1, pastKex]
      · simp [hcv, pastKex]
      · simp [hfin, pastKex]
    subst ht
    exact hk.behind (by simp) (fun _ => .inl hpast) rfl rfl
  | nextProto body dg bf hfrom hfed ht =>
    subst ht
    exact hk.behind (by simp) (fun _ => .inl (by simp [hfrom, pastKex])) rfl rfl
  | finished body c hfrom hc hmac ht =>
    obtain ⟨cl, ht⟩ := ht
    have hpast : pastKex s.statem.handState := by
      cases hfrom with
      | inl hch => simp [hch, pastKex]
      | inr hnp => simp [hnp, pastKex]
    subst ht
    exact hk.behind (by simp) (fun _ => .inl hpast) rfl rfl

theorem KexInv.posted (hk : KexInv s) (h : ServerPosted s t) : KexInv t := by
  cases h with
  | hello r s₁ hfrom hframe hchoice ht =>
    have hsame : t.trace = s.trace ∧ t.statem.handState = .srClntHello := by
      rw [← hfrom, ← hframe.trace, ← hframe.statem, ht]
      cases r <;> exact ⟨rfl, rfl⟩
    have hnot : ¬ keyed t.trace := by
      rw [hsame.1]
      exact hk.hello hfrom
    refine ⟨fun _ => hnot, fun hpast => ?_⟩
    simp [hnot, hsame.2, pastKex] at hpast
  | keyExchange hfrom ht =>
    subst ht
    exact hk.behind (by simp [hfrom]) id rfl rfl

theorem KexInv.sent {h : HandState} (hk : KexInv s) (hnext : serverWriteNext s = .ok (some h))
    (hne : h ≠ .ok) (hsent : ServerSent s t h) : KexInv t := by
  obtain ⟨body, htrace, _⟩ := hsent.trace
  have hhand : t.statem.handState = h := by rw [hsent.statem]
  have hto := serverWriteNext_some hnext
  refine ⟨fun hhello => ?_, fun hpast hfull => ?_⟩
  · rw [hhand] at hhello
    grind
  · rw [hhand, htrace, keyed_sent] at hpast
    rw [hsent.hit] at hfull
    rw [SSL.sm2dhe_congr hsent.newCipher]
    refine hk.past ?_ hfull
    cases hpast with
    | inr hold => exact .inr hold
    | inl hp =>
      -- only the last flight lies behind the key exchange, and in a full
      -- handshake it follows the Finished of the client
      left
      rcases hto with hto | hto | hto | hto | hto | hto | hto | hto | hto | hto
      · exact absurd hto.1 hne
      · simp [hto.1, pastKex] at hp
      · simp [hto.1, pastKex] at hp
      · simp [hto.1, pastKex] at hp
      · simp [hto.1, pastKex] at hp
      · simp [hto.1, pastKex] at hp
      · simp [hto.1, pastKex] at hp
      · rcases hto.2 with hf | hf
        · simp [hfull] at hf
        · simp [hf.1, pastKex]
      · rcases hto.2 with hf | hf | hf
        · simp [hfull] at hf
        · simp [hf.1, pastKex]
        · simp [hf, pastKex]
      · simp [hto.2, pastKex]

theorem KexInv.wrote (hk : KexInv s) (h : ServerWrote s t) : KexInv t := by
  cases h with
  | setup hfrom ht =>
    subst ht
    exact ⟨by simp [hfrom], by simp [hfrom, pastKex, keyed]⟩
  | request hfrom ht =>
    subst ht
    exact ⟨by simp, by simp [pastKex, keyed]⟩
  | turn hnext ht =>
    subst ht
    exact ⟨hk.hello, hk.past⟩
  | done hnext ht =>
    obtain ⟨ren, cl, te, ht⟩ := ht
    subst ht
    exact hk.behind (by simp) (fun h => .inr (h.resolve_left (by simp [pastKex]))) rfl rfl
  | sent h hnext hne hsent => exact hk.sent hnext hne hsent

theorem server_refuses_sm2dhe (hlib : Sm2dhRefused lib) :
    (server lib).Leads lib anyEvent (fun s => ServerInv s ∧ KexInv s) fun _ => KexInv where
  fresh s t h := by
    rw [enterFresh_server h]
    exact ⟨by simp [sslClear], by simp [sslClear, pastKex, keyed]⟩
  again s t hs hfin h := by
    have hok := hs.1.finished hfin
    cases enterAgain_server h with
    | inl hsame =>
      subst hsame
      exact ⟨hs.2.hello, hs.2.past⟩
    | inr hsetup =>
      subst hsetup
      exact ⟨by simp [hok], by simp [hok, pastKex, keyed]⟩
  quiet s r p i q hs _ _ := ⟨hs.2.hello, hs.2.past⟩
  recv s mt body ans t hs _ hst _ h := hs.2.read hlib hs.1 hst (server_readMessage_ok h)
  post s wst ans t hs _ hst hrs h := hs.2.posted (server_postProcessRound_ok (hs.1.post hst wst hrs) h)
  write s ans t hs hst h := hs.2.wrote (server_writeRound_ok hs.1.server hs.1.writeState h)

/-- The suite `ECDHE-SM2-SM4-CBC-SM3`. -/
def sm2dheSuite : NtlsCipher := ⟨ntlsCipher 0x0300E011 Mkey.kSM2DHE Auth.aSM2 .sm3, by decide⟩

/-- Up to the end of the server's first flight, which has `n` messages. -/
def sm2dheFlight (n : Nat) : List (Event (ServerAnswers Bytes)) :=
  [ .enter, .write {}, .recv .clientHello (plainHello [0xE0, 0x11]) {},
    .postProcess { cipher := some sm2dheSuite } ] ++
  List.replicate (n + 1) (.write { ske := { ephemeral := [4] } })

/-- A handshake in which the server asks for a certificate and gets one, and a
second on the cleared object, in which it does not ask: `certreqs_sent` counts
over both. -/
def sm2dheTwice : List (Event (ServerAnswers Bytes)) :=
  sm2dheFlight 5 ++ [.recv .certificate [0, 0, 10, 0, 0, 2, 0, 5, 0, 0, 2, 0, 6] {}] ++
    [.clear true] ++ sm2dheFlight 4

end Tlcp
