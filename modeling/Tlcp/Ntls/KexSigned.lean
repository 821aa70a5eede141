import Tlcp.Ntls.KexSecrets

/-!
# Tlcp.Ntls.KexSigned

What the signature of a ServerKeyExchange vouches for: which keys of the
server the client uses, which of them are among the bytes whose signature it
verified, and which kind of key it verified them with.

A key is used if another one in its place leads to another ClientKeyExchange or
another premaster secret.  The seven suites differ in the bytes that are
signed.  In six of them every key that the client uses is there; in
`kKyberAigisEnc` the encryption certificate is used and is not.  Whether the
signing key is an SM2 or an ML-DSA key is never compared with the suite.
-/

namespace Tlcp

open Octets Fallible

variable {X509 Pkey : Type} {lib : Libcrypto X509 Pkey} {c c' t u : SSL X509 Pkey}
  {k : KexSuite} {body tbs : Bytes}

/-! ## the keys that the client uses -/

variable (lib)

/-- What the client makes for a ClientKeyExchange: the body and the premaster
secret. -/
def ckeOutcome (rnd : CkeRandom) (c : SSL X509 Pkey) : Except Fatal (Bytes × Option Bytes) := do
  let (body, kex) ← tlsConstructClientKeyExchange lib rnd c
  pure (body, kex.pms)

/-- A part of the object matters for the ClientKeyExchange: with the same random
bytes and something else in that part, another body or another secret is made. -/
def Matters {α : Type} (c : SSL X509 Pkey) (put : α → SSL X509 Pkey) : Prop :=
  ∃ rnd a o o', ckeOutcome lib rnd c = .ok o ∧ ckeOutcome lib rnd (put a) = .ok o' ∧ o ≠ o'

variable (c)

/-- The client uses the key of the encryption certificate. -/
def encCertUsed : Prop :=
  Matters lib c fun certs => { c with session.peerChain := certs }

/-- It uses the server's ephemeral point. -/
def pointUsed : Prop :=
  Matters lib c fun peerTmp => { c with s3.tmp.kex.peerTmp := peerTmp }

/-- It uses the server's Kyber key, which is kept in `pms`. -/
def kyberUsed : Prop :=
  Matters lib c fun pms => { c with s3.tmp.kex.pms := pms }

/-- It uses the server's Aigis-Enc key. -/
def aigisUsed : Prop :=
  Matters lib c fun pkey => { c with s3.tmp.kex.aigisKemPkey := pkey }

variable {lib c}

theorem not_matters {α : Type} {put : α → SSL X509 Pkey}
    (h : ∀ rnd a, ckeOutcome lib rnd (put a) = ckeOutcome lib rnd c) : ¬ Matters lib c put := by
  intro ⟨rnd, a, o, o', ho, ho', hne⟩
  rw [h, ho] at ho'
  injection ho' with ho'
  exact hne ho'

theorem not_pointUsed (hk : c.mkey = k.mkey) (hsuite : k ≠ .sm2dhe ∧ k ≠ .ecdhekyber) :
    ¬ pointUsed lib c := by
  refine not_matters fun rnd a => ?_
  have hk' : ({ c with s3.tmp.kex.peerTmp := a } : SSL X509 Pkey).mkey = k.mkey := hk
  rw [ckeOutcome, ckeOutcome, tlsConstructClientKeyExchange_suite hk,
    tlsConstructClientKeyExchange_suite hk']
  cases k with
  | sm2dhe => exact absurd rfl hsuite.1
  | ecdhekyber => exact absurd rfl hsuite.2
  | sm2 | rsa | ecckyber | kyber | kyberAigisEnc =>
    simp only [tlsConstructCkePms, tlsConstructCkeEcckyber, tlsConstructCkeKyberDilithium,
      tlsConstructCkeKyberAigisEncDilithium, bind_assoc, pure_bind]
    rfl

theorem not_kyberUsed (hk : c.mkey = k.mkey) (hsuite : k ≠ .ecckyber ∧ k ≠ .ecdhekyber) :
    ¬ kyberUsed lib c := by
  refine not_matters fun rnd a => ?_
  have hk' : ({ c with s3.tmp.kex.pms := a } : SSL X509 Pkey).mkey = k.mkey := hk
  rw [ckeOutcome, ckeOutcome, tlsConstructClientKeyExchange_suite hk,
    tlsConstructClientKeyExchange_suite hk']
  cases k with
  | ecckyber => exact absurd rfl hsuite.1
  | ecdhekyber => exact absurd rfl hsuite.2
  | sm2dhe => simp only [tlsConstructCkeSm2dhe, bind_assoc, pure_bind]
  | sm2 | rsa | kyber | kyberAigisEnc =>
    simp only [tlsConstructCkePms, tlsConstructCkeKyberDilithium,
      tlsConstructCkeKyberAigisEncDilithium, bind_assoc, pure_bind]
    rfl

theorem not_aigisUsed (hk : c.mkey = k.mkey) (hsuite : k ≠ .kyberAigisEnc) :
    ¬ aigisUsed lib c := by
  refine not_matters fun rnd a => ?_
  have hk' : ({ c with s3.tmp.kex.aigisKemPkey := a } : SSL X509 Pkey).mkey = k.mkey := hk
  rw [ckeOutcome, ckeOutcome, tlsConstructClientKeyExchange_suite hk,
    tlsConstructClientKeyExchange_suite hk']
  cases k with
  | kyberAigisEnc => exact absurd rfl hsuite
  | sm2dhe => simp only [tlsConstructCkeSm2dhe, bind_assoc, pure_bind]
  | sm2 | rsa | ecckyber | ecdhekyber | kyber =>
    simp only [tlsConstructCkePms, tlsConstructCkeEcckyber, tlsConstructCkeEcdhekyber,
      tlsConstructCkeKyberDilithium, bind_assoc, pure_bind]
    rfl

/-- The hybrid encapsulation does not look at the point in front of the Kyber key. -/
theorem eccKyberHybridEncaps_point {pt pt' kyberPk rnd : Bytes} {p p' : Buf 1088 × Buf 32}
    (hpt : pt.length = eccPkSize) (hpt' : pt'.length = eccPkSize)
    (h : eccKyberHybridEncaps lib (pt ++ kyberPk) rnd = some p)
    (h' : eccKyberHybridEncaps lib (pt' ++ kyberPk) rnd = some p') : p = p' := by
  simp only [eccKyberHybridEncaps, Option.bind_eq_bind, Option.bind_eq_some_iff,
    List.drop_left' hpt, List.drop_left' hpt'] at h h'
  obtain ⟨_, _, pk, hpk, henc⟩ := h
  obtain ⟨_, _, pk', hpk', henc'⟩ := h'
  rw [hpk] at hpk'
  injection hpk' with hpk'
  rw [hpk', henc'] at henc
  injection henc with henc
  exact henc.symm

/-- In `kECDHEKyber` the key of the encryption certificate goes into the hybrid
key, and decides on nothing but whether there is a ClientKeyExchange. -/
theorem not_encCertUsed_ecdhekyber (hk : c.mkey = KexSuite.ecdhekyber.mkey) :
    ¬ encCertUsed lib c := by
  rintro ⟨rnd, certs, o, o', ho, ho', hne⟩
  have hk' : ({ c with session.peerChain := certs } : SSL X509 Pkey).mkey =
      KexSuite.ecdhekyber.mkey := hk
  rw [ckeOutcome, tlsConstructClientKeyExchange_suite hk] at ho
  rw [ckeOutcome, tlsConstructClientKeyExchange_suite hk'] at ho'
  simp only [tlsConstructCkeEcdhekyber, except_bind_ok, orFatal_eq_ok, require_eq_ok,
    Prod.exists] at ho ho'
  obtain ⟨body, kex, ⟨skey, hskey, kyberPk, hkyberPk, _, _, ckey, hckey, _, _, skeyEc, hskeyEc,
    ss, hss, _, _, _, _, encoded, hencoded, _, _, encPkey, _, _, hlen, ct, kyberSs, hct, hp⟩, hq⟩ := ho
  obtain ⟨body', kex', ⟨skey', hskey', kyberPk', hkyberPk', _, _, ckey', hckey', _, _, skeyEc',
    hskeyEc', ss', hss', _, _, _, _, encoded', hencoded', _, _, encPkey', _, _, hlen', ct', kyberSs',
    hct', hp'⟩, hq'⟩ := ho'
  have hskey : skey = skey' := by simpa [hskey] using hskey'
  have hkyberPk : kyberPk = kyberPk' := by simpa [hkyberPk] using hkyberPk'
  have hckey : ckey = ckey' := by simpa [hckey] using hckey'
  subst hskey hkyberPk hckey
  have hskeyEc : skeyEc = skeyEc' := by simpa [hskeyEc] using hskeyEc'
  subst hskeyEc
  have hss : ss = ss' := by simpa [hss] using hss'
  have hencoded : encoded = encoded' := by simpa [hencoded] using hencoded'
  have hkyber := eccKyberHybridEncaps_point hlen hlen' hct hct'
  injection hkyber with hct hkyberSs
  subst hss hencoded hct hkyberSs
  injection hp with hp
  injection hp with hbody hkex
  injection hp' with hp'
  injection hp' with hbody' hkex'
  injection hq with hq
  injection hq' with hq'
  subst hbody hkex hbody' hkex' hq hq'
  exact hne rfl

theorem not_encCertUsed (hk : c.mkey = k.mkey) (hsuite : k = .sm2dhe ∨ k = .ecdhekyber) :
    ¬ encCertUsed lib c := by
  cases hsuite with
  | inl hsuite =>
    subst hsuite
    refine not_matters fun rnd certs => ?_
    have hk' : ({ c with session.peerChain := certs } : SSL X509 Pkey).mkey =
        KexSuite.sm2dhe.mkey := hk
    rw [ckeOutcome, ckeOutcome, tlsConstructClientKeyExchange_suite hk,
      tlsConstructClientKeyExchange_suite hk']
    rfl
  | inr hsuite =>
    subst hsuite
    exact not_encCertUsed_ecdhekyber hk

/-! ## the keys that are signed -/

variable (lib c)

/-- The bytes over which a client verifies the signature of a ServerKeyExchange. -/
def verifiedTbs (body : Bytes) : Except Fatal Bytes := do
  let r ← processSkeParams lib c body
  skeVerifiedTbs lib c body r.rest

/-- The encryption certificate is among the signed bytes. -/
def certSigned (tbs : Bytes) : Prop :=
  ∃ buf, peerEncCertAsn1 lib c = .ok buf ∧ buf <:+: tbs

/-- The encoding of the server's point is. -/
def pointSigned (tbs : Bytes) : Prop :=
  ∃ param pt peerTmp, c.s3.tmp.kex.peerTmp = some peerTmp ∧
    lib.setEncodedPublicKey param pt = some peerTmp ∧ pt <:+: tbs

/-- The server's Kyber key is. -/
def kyberSigned (tbs : Bytes) : Prop :=
  ∃ front, ∃ kyberPk : Buf 1184, c.s3.tmp.kex.pms = some (front ++ kyberPk.1) ∧ kyberPk.1 <:+: tbs

/-- The encoding of the server's Aigis-Enc key is. -/
def aigisSigned (tbs : Bytes) : Prop :=
  ∃ pk pub, c.s3.tmp.kex.aigisKemPkey = some pub ∧ lib.aigisFromdata pk = some pub ∧ pk <:+: tbs

/-- Every key that the client uses is. -/
structure KeysSigned (tbs : Bytes) : Prop where
  cert : encCertUsed lib c → certSigned lib c tbs
  point : pointUsed lib c → pointSigned lib c tbs
  kyber : kyberUsed lib c → kyberSigned c tbs
  aigis : aigisUsed lib c → aigisSigned lib c tbs

variable {lib c}

/-- What was read from the parameters is in them. -/
theorem params_hold {r : SkeRead Pkey} {params : Bytes} (hk : c.mkey = k.mkey)
    (hr : processSkeParams lib c body = .ok r) (hbody : body = params ++ r.rest)
    (hkex : c'.s3.tmp.kex = r.kex) :
    (k = .sm2dhe ∨ k = .ecdhekyber → pointSigned lib c' params) ∧
      (k = .ecckyber ∨ k = .ecdhekyber → kyberSigned c' params) ∧
      (k = .kyberAigisEnc → aigisSigned lib c' params) := by
  rw [processSkeParams_suite hk] at hr
  cases k with
  | sm2 | rsa | kyber => simp
  | sm2dhe =>
    obtain ⟨typ, param, pt, peerTmp, hbody', _, _, _, _, hpeer, hrkex⟩ := tlsProcessSkeSm2dhe_ok hr
    have hparams : params = (putUint 1 typ ++ (putUint 2 r.kexGroup ++ putUint 1 pt.length)) ++ pt :=
      List.append_cancel_right (hbody.symm.trans (hbody'.trans (by simp)))
    refine ⟨fun _ => ⟨param, pt, peerTmp, by rw [hkex, hrkex], hpeer, ?_⟩, by simp, by simp⟩
    rw [hparams]
    exact (List.suffix_append _ _).isInfix
  | ecckyber =>
    obtain ⟨_, _, eccPk, kyberPk, hbody', _, _, _, hrkex, _⟩ := tlsProcessSkeEcckyber_ok hr
    have hparams : params = putUint 2 kyberPkSize ++ kyberPk.1 :=
      List.append_cancel_right (hbody.symm.trans (hbody'.trans (by simp)))
    refine ⟨by simp, fun _ => ⟨eccPk.1, kyberPk, by rw [hkex, hrkex], ?_⟩, by simp⟩
    rw [hparams]
    exact (List.suffix_append _ _).isInfix
  | ecdhekyber =>
    obtain ⟨typ, param, pt, peerTmp, kyberPk, hbody', _, _, _, _, hpeer, hrkex⟩ :=
      tlsProcessSkeEcdhekyber_ok hr
    have hparams : params = (putUint 1 typ ++ (putUint 2 r.kexGroup ++ putUint 1 pt.length)) ++
        (pt ++ (putUint 2 kyberPkSize ++ kyberPk.1)) :=
      List.append_cancel_right (hbody.symm.trans (hbody'.trans (by simp)))
    refine ⟨fun _ => ⟨param, pt, peerTmp, by rw [hkex, hrkex], hpeer, ?_⟩,
      fun _ => ⟨[], kyberPk, by rw [hkex, hrkex]; rfl, ?_⟩, by simp⟩
    · rw [hparams, ← List.append_assoc]
      exact List.infix_append _ _ _
    · rw [hparams, ← List.append_assoc, ← List.append_assoc]
      exact (List.suffix_append _ _).isInfix
  | kyberAigisEnc =>
    obtain ⟨pk, pub, hbody', _, hpub, hrkex, _⟩ := processSkeKyberAigisEnc_ok hr
    have hparams : params = putUint 2 pk.length ++ pk :=
      List.append_cancel_right (hbody.symm.trans (hbody'.trans (by simp)))
    refine ⟨by simp, by simp, fun _ => ⟨pk, pub, by rw [hkex, hrkex], hpub, ?_⟩⟩
    rw [hparams]
    exact (List.suffix_append _ _).isInfix

theorem pointSigned.mono {a b : Bytes} (h : pointSigned lib c a) (hab : a <:+: b) :
    pointSigned lib c b := by
  obtain ⟨param, pt, peerTmp, hpeer, hset, hpt⟩ := h
  exact ⟨param, pt, peerTmp, hpeer, hset, hpt.trans hab⟩

theorem kyberSigned.mono {a b : Bytes} (h : kyberSigned c a) (hab : a <:+: b) :
    kyberSigned c b := by
  obtain ⟨front, kyberPk, hpms, hpk⟩ := h
  exact ⟨front, kyberPk, hpms, hpk.trans hab⟩

theorem aigisSigned.mono {a b : Bytes} (h : aigisSigned lib c a) (hab : a <:+: b) :
    aigisSigned lib c b := by
  obtain ⟨pk, pub, hpub, hread, hpk⟩ := h
  exact ⟨pk, pub, hpub, hread, hpk.trans hab⟩

/-- What is signed behind the randoms: the encryption certificate in the suites
without an ephemeral key and in `kECCKyber`, and the parameters in those that
have any. -/
theorem signedParams_hold {rest params signed : Bytes} (hk : c.mkey = k.mkey)
    (h : skeVerifiedParams lib c (params ++ rest) rest = .ok signed) :
    (k ≠ .sm2dhe ∧ k ≠ .ecdhekyber ∧ k ≠ .kyberAigisEnc →
        ∃ buf, peerEncCertAsn1 lib c = .ok buf ∧ buf <:+: signed) ∧
      (k ≠ .sm2 ∧ k ≠ .rsa ∧ k ≠ .kyber → params <:+: signed) ∧
      (k = .kyberAigisEnc → signed = params) := by
  rw [skeVerifiedParams_suite hk] at h
  cases k with
  | sm2 | rsa | kyber => exact ⟨fun _ => ⟨signed, h, List.infix_refl _⟩, by simp, by simp⟩
  | ecckyber =>
    dsimp only at h
    rw [consumedParams_append, except_bind_ok] at h
    obtain ⟨params', hparams, h⟩ := h
    injection hparams with hparams
    rw [except_bind_ok] at h
    obtain ⟨buf, hbuf, h⟩ := h
    injection h with h
    subst hparams h
    exact ⟨fun _ => ⟨buf, hbuf, (List.prefix_append _ _).isInfix⟩,
      fun _ => (List.suffix_append _ _).isInfix, by simp⟩
  | sm2dhe | ecdhekyber | kyberAigisEnc =>
    dsimp only at h
    rw [consumedParams_append] at h
    injection h with h
    subst h
    exact ⟨by simp, fun _ => List.infix_refl _, fun _ => rfl⟩

/-- The encryption certificate, as other suites sign it, happens to stand in the
two randoms and the Aigis-Enc key of a `kKyberAigisEnc` message. -/
def certInParams (lib : Libcrypto X509 Pkey) (c : SSL X509 Pkey) (body : Bytes) : Prop :=
  ∃ buf pk rest, peerEncCertAsn1 lib c = .ok buf ∧ getPrefixed 2 body = some (pk, rest) ∧
    buf <:+: c.s3.clientRandom ++ c.s3.serverRandom ++ (putUint 2 pk.length ++ pk)

/-- In `kKyberAigisEnc` the randoms and the Aigis-Enc key are all that is signed. -/
theorem certSigned_aigis_iff (hk : c.mkey = KexSuite.kyberAigisEnc.mkey)
    (h : tlsProcessKeyExchange lib c body = .ok c') (htbs : verifiedTbs lib c body = .ok tbs) :
    certSigned lib c' tbs ↔ certInParams lib c body := by
  obtain ⟨_, _, _, _, hc'⟩ := tlsProcessKeyExchange_ok h
  have henc : peerEncCertAsn1 lib c' = peerEncCertAsn1 lib c := by rw [hc']; rfl
  simp only [verifiedTbs, skeVerifiedTbs, except_bind_ok] at htbs
  obtain ⟨r, hr, signed, hsigned, htbs⟩ := htbs
  injection htbs with htbs
  rw [processSkeParams_suite hk] at hr
  obtain ⟨pk, pub, hbody, hlen, _⟩ := processSkeKyberAigisEnc_ok hr
  have hget : getPrefixed 2 body = some (pk, r.rest) := getPrefixed_eq_some_iff.mpr ⟨hbody, hlen⟩
  rw [hbody, ← List.append_assoc] at hsigned
  have hparams : signed = putUint 2 pk.length ++ pk := (signedParams_hold hk hsigned).2.2 rfl
  have htbs : tbs = c.s3.clientRandom ++ c.s3.serverRandom ++ (putUint 2 pk.length ++ pk) := by
    rw [← htbs, constructKeyExchangeTbs, hparams]
  constructor
  · rintro ⟨buf, hbuf, hin⟩
    exact ⟨buf, pk, r.rest, henc.symm.trans hbuf, hget, htbs ▸ hin⟩
  · rintro ⟨buf, pk', rest', hbuf, hget', hin⟩
    rw [hget] at hget'
    injection hget' with hget'
    injection hget' with hpk _
    subst hpk
    exact ⟨buf, henc.trans hbuf, htbs ▸ hin⟩

/-- **The keys of the server are signed.**  In a ServerKeyExchange that a client
accepts, the signature covers both randoms and every key of the server that the
client's answer depends on, exactly if the encryption certificate of a
`kKyberAigisEnc` handshake happens to stand in what the message has.  The key
of that certificate does not matter in `kSM2DHE` and `kECDHEKyber`. -/
theorem keys_signed_iff (hk : c.mkey = k.mkey) (h : tlsProcessKeyExchange lib c body = .ok c') :
    ∃ pkey lu sig tbs, c.session.peer.bind lib.x509GetPubkey = some pkey ∧
      verifiedTbs lib c body = .ok tbs ∧ lib.digestVerify pkey lu sig tbs = true ∧
      c.s3.clientRandom <:+: tbs ∧ c.s3.serverRandom <:+: tbs ∧
      (k = .sm2dhe ∨ k = .ecdhekyber → ¬ encCertUsed lib c') ∧
      (KeysSigned lib c' tbs ↔ (k = .kyberAigisEnc → encCertUsed lib c' → certInParams lib c body)) := by
  obtain ⟨r, lu, hr, hverify, hc'⟩ := tlsProcessKeyExchange_ok h
  simp only [verifySkeSignature, except_bind_ok, orFatal_eq_ok, require_eq_ok,
    Prod.exists] at hverify
  obtain ⟨pkey, hpkey, tbs, htbs, lu', _, sig, _, _, _, _, _, _, _, hsig, _⟩ := hverify
  obtain ⟨params, _, hbody⟩ := processSkeParams_layout hk hr
  have hverified : verifiedTbs lib c body = .ok tbs := except_bind_ok.mpr ⟨r, hr, htbs⟩
  simp only [skeVerifiedTbs, except_bind_ok] at htbs
  obtain ⟨signed, hsigned, htbs⟩ := htbs
  injection htbs with htbs
  have hkex : c'.s3.tmp.kex = r.kex := by rw [hc']
  have hk' : c'.mkey = k.mkey := by rw [hc']; exact hk
  have henc : peerEncCertAsn1 lib c' = peerEncCertAsn1 lib c := by rw [hc']; rfl
  have hin : signed <:+: tbs := by
    rw [← htbs]
    exact (List.suffix_append _ _).isInfix
  rw [hbody] at hsigned
  obtain ⟨hcert, hparams, _⟩ := signedParams_hold hk hsigned
  obtain ⟨hpoint, hkyber, haigis⟩ := params_hold hk hr hbody hkex
  have hcovered : k = .kyberAigisEnc → (certSigned lib c' tbs ↔ certInParams lib c body) :=
    fun hsuite => certSigned_aigis_iff (hsuite ▸ hk) h hverified
  refine ⟨pkey, lu'.hash, sig, tbs, hpkey, hverified, hsig, ?_, ?_, not_encCertUsed hk', ?_, ?_⟩
  · rw [← htbs, constructKeyExchangeTbs, List.append_assoc]
    exact (List.prefix_append _ _).isInfix
  · rw [← htbs, constructKeyExchangeTbs]
    exact List.infix_append _ _ _
  · intro hkeys hsuite hused
    exact (hcovered hsuite).mp (hkeys.cert hused)
  · intro hsuite
    constructor
    · intro hused
      by_cases hephemeral : k = .sm2dhe ∨ k = .ecdhekyber
      · exact absurd hused (not_encCertUsed hk' hephemeral)
      · rw [not_or] at hephemeral
        by_cases haigis : k = .kyberAigisEnc
        · exact (hcovered haigis).mpr (hsuite haigis hused)
        · obtain ⟨buf, hbuf, hbufin⟩ := hcert ⟨hephemeral.1, hephemeral.2, haigis⟩
          exact ⟨buf, henc.trans hbuf, hbufin.trans hin⟩
    · intro hused
      have huses : k = .sm2dhe ∨ k = .ecdhekyber := by
        by_contra hne
        exact not_pointUsed hk' (not_or.mp hne) hused
      exact (hpoint huses).mono ((hparams (by grind)).trans hin)
    · intro hused
      have huses : k = .ecckyber ∨ k = .ecdhekyber := by
        by_contra hne
        exact not_kyberUsed hk' (not_or.mp hne) hused
      exact (hkyber huses).mono ((hparams (by grind)).trans hin)
    · intro hused
      have huses : k = .kyberAigisEnc := by
        by_contra hne
        exact not_aigisUsed hk' hne hused
      exact (haigis huses).mono ((hparams (by grind)).trans hin)

/-- A `kECDHEKyber` client uses the server's point, and it is signed. -/
theorem keys_signed_ecdhekyber :
    ∃ body c' tbs, tlsProcessKeyExchange .curves ecdhekyberClient body = .ok c' ∧
      verifiedTbs .curves ecdhekyberClient body = .ok tbs ∧
      pointUsed .curves c' ∧ pointSigned .curves c' tbs := by
  obtain ⟨ske, _, c', hread, o, ho, o', ho', hne⟩ : ∃ ske,
      tlsConstructServerKeyExchange .curves { ephemeral := [4] } ecdhekyberServer = .ok ske ∧
      ∃ c, tlsProcessKeyExchange .curves ecdhekyberClient ske.1 = .ok c ∧
      ∃ o, ckeOutcome .curves { pms := Buf.zero 46, ephemeral := [5] } c = .ok o ∧
      ∃ o', ckeOutcome .curves { pms := Buf.zero 46, ephemeral := [5] }
        { c with s3.tmp.kex.peerTmp := some ("SM2", [6]) } = .ok o' ∧ o ≠ o' := by decide +kernel
  have hused : pointUsed .curves c' := ⟨_, _, o, o', ho, ho', hne⟩
  obtain ⟨_, _, _, tbs, _, htbs, _, _, _, _, hiff⟩ := keys_signed_iff (k := .ecdhekyber) rfl hread
  exact ⟨ske.1, c', tbs, hread, htbs, hused, (hiff.mpr (by simp)).point hused⟩

/-- A client in a handshake with the suite of code `0xE065`, with the
encryption certificate `x`. -/
def aigisClient (x : Bytes) : SSL Bytes (String × Bytes) := { plainClient with
    s3.tmp.newCipher := some (ntlsCipher 0x0300E065 Mkey.kKyberAigisEnc Auth.aDilithium .sm3)
    session.peer := some [2, 1]
    session.peerChain := [[2, 1], x] }

/-- One signed message is accepted with either of two encryption certificates.
The client uses the key of the one it has, and it is not signed. -/
theorem encCert_not_signed :
    (∃ c' tbs, tlsProcessKeyExchange .plain (aigisClient [3, 7]) [0, 2, 9, 9, 0, 1, 1] = .ok c' ∧
        verifiedTbs .plain (aigisClient [3, 7]) [0, 2, 9, 9, 0, 1, 1] = .ok tbs ∧
        encCertUsed .plain c' ∧ ¬ certSigned .plain c' tbs) ∧
      ∃ c', tlsProcessKeyExchange .plain (aigisClient [3, 8]) [0, 2, 9, 9, 0, 1, 1] = .ok c' := by
  have htbs : verifiedTbs .plain (aigisClient [3, 7]) [0, 2, 9, 9, 0, 1, 1] =
      .ok (List.replicate 64 0 ++ [0, 2, 9, 9]) := by
    decide +kernel
  refine ⟨⟨_, _, rfl, htbs, ?_, ?_⟩, _, rfl⟩
  · exact ⟨{ pms := Buf.zero 46 }, [[2, 1], [3, 8]], _, _, rfl, rfl, by decide⟩
  intro ⟨buf, hbuf, hin⟩
  have hasn1 : peerEncCertAsn1 .plain (aigisClient [3, 7]) = .ok [0, 0, 2, 3, 7] := by
    decide +kernel
  have hbuf : peerEncCertAsn1 .plain (aigisClient [3, 7]) = .ok buf := hbuf
  rw [hasn1] at hbuf
  injection hbuf with hbuf
  subst hbuf
  exact absurd hin (by decide +kernel)

/-! ## the kind of the signing key -/

variable (lib)

/-- An ML-DSA key, by one of its names or by the name of its type. -/
def mldsaKey (key : Pkey) : Prop :=
  lib.namedMldsa key = true ∨ lib.typeNameHas key "ML-DSA" = true

/-- A key goes by the names of one kind, and an RSA key by both of its names. -/
structure KeyKinds : Prop where
  sm2 : ∀ key, lib.isA key "SM2" = true → ¬ mldsaKey lib key
  rsa : ∀ key, lib.isA key "RSA" = true → lib.isA key "rsaEncryption" = true

/-- The key that a suite is named for: ML-DSA in the Dilithium suites, SM2 in the
others. -/
def KexSuite.signsWith (key : Pkey) : KexSuite → Prop
  | .kyber | .kyberAigisEnc => mldsaKey lib key
  | .sm2 | .sm2dhe | .ecckyber | .ecdhekyber => lib.isA key "SM2" = true
  | .rsa => True

/-- The key that the suites of the other family are named for. -/
def KexSuite.foreign (key : Pkey) : KexSuite → Prop
  | .kyber | .kyberAigisEnc => lib.isA key "SM2" = true
  | .sm2 | .sm2dhe | .ecckyber | .ecdhekyber => mldsaKey lib key
  | .rsa => False

variable {lib}

/-- But for the RSA suites, the certificate has to be of the type `SSL_aSM2`. -/
theorem NtlsCipher.auth_sm2 (c : NtlsCipher) (hk : c.1.algorithmMkey = k.mkey) (hrsa : k ≠ .rsa) :
    c.1.algorithmAuth = Auth.aSM2 := by
  have hall : ∀ c ∈ ntlsCiphers, c.algorithmMkey = Mkey.kRSA ∨ c.algorithmAuth = Auth.aSM2 := by
    decide
  refine (hall c.1 c.2).resolve_left fun h => hrsa ?_
  rw [hk] at h
  cases k <;> first | rfl | exact absurd h (by decide)

/-- An RSA certificate is not of that type. -/
theorem OfType.not_rsa {leaf : X509} {key : Pkey} (hkinds : KeyKinds lib)
    (h : OfType lib Auth.aSM2 leaf) (hkey : lib.x509GetPubkey leaf = some key) :
    lib.isA key "RSA" = false := by
  obtain ⟨key', clu, hkey', hclu, hbit⟩ := h
  rw [hkey] at hkey'
  injection hkey' with hkey'
  subst hkey'
  by_contra hrsa
  have hname := hkinds.rsa key (Bool.eq_true_of_not_eq_false hrsa)
  have hfirst : sslCertLookupByPkey lib key =
      some ⟨"rsaEncryption", "rsaEncryption", Auth.aRSA⟩ := by
    simp [sslCertLookupByPkey, sslCertInfo, hname]
  rw [hfirst] at hclu
  injection hclu with hclu
  subst hclu
  exact absurd hbit (by decide)

/-- The signature algorithm is taken from the key alone. -/
theorem signsWith_iff {key : Pkey} {lu : SigAlg} (hkinds : KeyKinds lib)
    (h : tls1SetPeerLegacySigalg lib key = some lu)
    (hrsa : k ≠ .rsa → lib.isA key "RSA" = false) :
    k.signsWith lib key ↔ ¬ k.foreign lib key := by
  have hcases : lib.isA key "SM2" = true ∨ lib.isA key "RSA" = true ∨ mldsaKey lib key := by
    simp only [tls1SetPeerLegacySigalg] at h
    simp only [mldsaKey]
    grind
  have hsm2 := hkinds.sm2 key
  cases k with
  | rsa => simp [KexSuite.signsWith, KexSuite.foreign]
  | kyber | kyberAigisEnc | sm2 | sm2dhe | ecckyber | ecdhekyber =>
    simp only [KexSuite.signsWith, KexSuite.foreign]
    grind

/-- Where a ServerKeyExchange is accepted, the certificates of the Certificate
message are known. -/
theorem ClientAuth.certsKnown {s : SSL X509 Pkey} (ha : ClientAuth lib s) (hs : ClientInv s)
    (hrs : s.statem.readState = .header) (h : ClientRead lib s t .serverKeyExchange body) :
    ∃ tr, CertsKnown lib s tr ∧ tr <+: s.trace := by
  cases h with
  | keyExchange body dg bf hfrom hsigned hfed ht =>
    rcases hfrom with hanon | hcert | hstatus
    · -- no NTLS suite does without a certificate
      have hstage := ha.stage hanon.2.1
      rw [ClientStage, hanon.1] at hstage
      obtain ⟨c, hc, _⟩ := hstage
      have hauth := hanon.2.2
      rw [SSL.auth, hc] at hauth
      exact absurd hauth c.auth_certificate.2.2.2
    · have hstage := ha.stage (hs.full (by simp [hcert, inFlight]))
      rw [ClientStage, hcert, hrs] at hstage
      exact ⟨s.trace, hstage, List.prefix_rfl⟩
    · have hstage := ha.stage (hs.full (by simp [hstatus, inFlight]))
      rw [ClientStage, hstatus] at hstage
      obtain ⟨tr, b, htr, hknown⟩ := hstage
      exact ⟨tr, hknown, htr ▸ List.prefix_append _ _⟩

/-- The ServerKeyExchange `body` is signed with the first certificate of a
Certificate message of the history; the key of that certificate is the one the
suite is named for exactly if it is not that of the other family. -/
def SignedInKind (lib : Libcrypto X509 Pkey) (k : KexSuite) (tr : List (Obs X509))
    (c : SslCipher) (clientRandom serverRandom body : Bytes) : Prop :=
  ∃ cb certs leaf key, .accepted .certificate cb ∈ tr ∧
    parseServerCertificate lib cb = .ok certs ∧ certs.head? = some leaf ∧
    lib.x509GetPubkey leaf = some key ∧ SkeSigned lib c certs clientRandom serverRandom leaf body ∧
    (k.signsWith lib key ↔ ¬ k.foreign lib key)

theorem SignedInKind.of_signed {c : NtlsCipher} {tr : List (Obs X509)} {certs : List X509}
    {leaf : X509} {cb cr sr : Bytes} (hkinds : KeyKinds lib) (hk : c.1.algorithmMkey = k.mkey)
    (hcb : .accepted .certificate cb ∈ tr) (hparse : parseServerCertificate lib cb = .ok certs)
    (hleaf : certs.head? = some leaf) (htype : OfType lib c.1.algorithmAuth leaf)
    (hske : SkeSigned lib c.1 certs cr sr leaf body) : SignedInKind lib k tr c.1 cr sr body := by
  obtain ⟨_, _, key, lu, _, _, _, hkey, hlu, _⟩ := id hske
  refine ⟨cb, certs, leaf, key, hcb, hparse, hleaf, hkey, hske, signsWith_iff hkinds hlu ?_⟩
  intro hrsa
  rw [c.auth_sm2 hk hrsa] at htype
  exact htype.not_rsa hkinds hkey

/-- **The kind of the signing key.**  In a run whose events are steady, a
ServerKeyExchange is accepted only if it is signed with the first certificate of
the server's Certificate message; the key of that certificate is the one the
suite is named for exactly if it is not that of the other family.  A client that
completed a full handshake has accepted such a ServerKeyExchange. -/
theorem signing_key_iff {s₀ s : SSL X509 Pkey} {es : List (Event (ClientAnswers X509 Pkey))}
    (hkinds : KeyKinds lib) (hs₀ : s₀.inBefore)
    (hsteady : Run.Meets (step lib (client lib)) steady s₀ es)
    (hrun : Run.run (step lib (client lib)) s₀ es = some s) (hlive : s.live) :
    (∀ k body ans t, s.mkey = KexSuite.mkey k →
        step lib (client lib) s (.recv .serverKeyExchange body ans) = some t → t.live →
        ∃ c, s.s3.tmp.newCipher = some c ∧ c.algorithmMkey = k.mkey ∧
          SignedInKind lib k s.trace c s.s3.clientRandom s.s3.serverRandom body) ∧
      (s.statem.handState = .ok → s.trace ≠ [] → s.hit = false →
        ∃ (k : KexSuite) (c : NtlsCipher) (sh body cr sr : Bytes) (hello : ServerHello),
          .accepted .serverHello sh ∈ s.trace ∧ parseServerHello sh = .ok hello ∧
          c.1.id % 65536 = hello.cipher ∧ c.1.algorithmMkey = k.mkey ∧
          .accepted .serverKeyExchange body ∈ s.trace ∧
          SignedInKind lib k s.trace c.1 cr sr body) := by
  obtain ⟨hinv, hauth⟩ := ((client_keeps lib).and (client_authenticates lib)).run hs₀ hsteady hrun
    hlive
  constructor
  · intro k body ans t hk hstep hlive'
    obtain ⟨hst, hrs, hread⟩ := step_recv hstep hlive'
    have hread := client_readMessage_ok hread
    obtain ⟨tr, ⟨c, hc, hcert, hpeer, htype⟩, htr⟩ := hauth.certsKnown hinv hrs hread
    obtain ⟨chains, ⟨tr₀, cb, _, htr₀, _, hparse⟩, _⟩ := hcert
    have hsigned : ∀ c, s.s3.tmp.newCipher = some c → ∃ peer, s.session.peer = some peer ∧
        SkeSigned lib c s.session.peerChain s.s3.clientRandom s.s3.serverRandom peer body := by
      cases hread with
      | keyExchange _ _ _ _ hsigned => exact hsigned
    obtain ⟨leaf, hleaf, hske⟩ := hsigned c.1 hc
    have hhead : s.session.peerChain.head? = some leaf := by
      cases hpeer with
      | inl hhead => rw [← hhead, hleaf]
      | inr hnone => rw [hnone] at hleaf; contradiction
    have hk : c.1.algorithmMkey = k.mkey := by rwa [SSL.mkey, hc] at hk
    refine ⟨c.1, hc, hk, .of_signed hkinds hk (htr.subset ?_) hparse hhead (htype leaf hleaf) hske⟩
    simp [htr₀]
  · intro hok hne hfull
    have hstage := hauth.stage hfull
    rw [ClientStage, hok] at hstage
    obtain ⟨tr, fb, rest, _, ⟨pre, kb, post, htr, hpre⟩, htrace, _⟩ := hstage.resolve_left hne
    have hsub : pre ⊆ s.trace := by
      intro o ho
      simp [htrace, htr, ho]
    obtain ⟨c, sh, cb, body, hello, certs, leaf, cr, sr, hsh, hhello, hid, hcb, hparse, hbody, hleaf,
      htype, hske⟩ := hpre.ske_signed
    obtain ⟨k, hk⟩ := c.exists_suite
    exact ⟨k, c, sh, body, cr, sr, hello, hsub hsh, hhello, hid, hk, hsub hbody,
      .of_signed hkinds hk (hsub hcb) hparse hleaf htype hske⟩

/-- A key of `Libcrypto.plain` is an ML-DSA key if the name of its type says so. -/
theorem mldsaKey_plain (name : String) (bs : Bytes) :
    mldsaKey .plain (name, bs) ↔ (name = "ML-DSA" ∨ name = "ML-DSA-44-SPKI" ∨
      name = "id-ML-DSA-44-SPKI") ∨ strstr name "ML-DSA" = true := by
  simp only [mldsaKey, Libcrypto.namedMldsa, Libcrypto.typeNameHas, Libcrypto.plain,
    Bool.or_eq_true, beq_iff_eq, Bool.and_eq_true]
  grind

theorem keyKinds_plain : KeyKinds .plain where
  sm2 key h := by
    obtain ⟨name, bs⟩ := key
    have hname : name = "SM2" := by simpa [Libcrypto.plain] using h
    rw [hname, mldsaKey_plain]
    decide
  rsa key h := by
    obtain ⟨name, bs⟩ := key
    have hname : name = "RSA" := by simpa [Libcrypto.plain] using h
    simp [Libcrypto.plain, hname]

/-- No ServerHello but `plainServerHello`. -/
def isPlainHello : Obs Bytes → Bool
  | .accepted .serverHello b => b == plainServerHello
  | _ => true

/-- A completed `kSM2` handshake with an SM2 key. -/
theorem signing_key_sm2 :
    ∃ s, Run.run (step .plain (client .plain)) plainClient plainClientRun = some s ∧
      s.statem.state = .finished ∧ ∃ c body cr sr,
        .accepted .serverKeyExchange body ∈ s.trace ∧
        SignedInKind .plain .sm2 s.trace c cr sr body := by
  obtain ⟨s, hrun, hfin, hok, hne, hfull, hs⟩ : ∃ s,
      Run.run (step .plain (client .plain)) plainClient plainClientRun = some s ∧
      s.statem.state = .finished ∧ s.statem.handState = .ok ∧ s.trace ≠ [] ∧ s.hit = false ∧
      ∀ e ∈ s.trace, isPlainHello e := by decide +kernel
  have hsteady : Run.Meets (step .plain (client .plain)) steady plainClient plainClientRun := by
    decide +kernel
  obtain ⟨k, c, sh, body, cr, sr, hello, hsh, hparse, hid, hk, hbody, hsigned⟩ :=
    (signing_key_iff keyKinds_plain ⟨rfl, rfl⟩ hsteady hrun (.inr (.inr hfin))).2 hok hne hfull
  have hplain : parseServerHello plainServerHello =
      .ok ⟨0x0101, List.replicate 32 7, [], 0xE013, 0⟩ := rfl
  have hcode : ∀ c ∈ ntlsCiphers, c.id % 65536 = 0xE013 → c.algorithmMkey = Mkey.kSM2 := by decide
  have hsuite : k = .sm2 := by
    rw [eq_of_beq (hs _ hsh)] at hparse
    rw [← Except.ok.inj (hplain.symm.trans hparse)] at hid
    have hkex := hk.symm.trans (hcode c.1 c.2 hid)
    cases k <;> first | rfl | exact absurd hkex (by decide)
  subst hsuite
  exact ⟨s, hrun, hfin, c.1, body, cr, sr, hbody, hsigned⟩

/-- A handshake with the suite of the given code, the Certificate `certs` and the
Finished `mac`. -/
def familyRun (code : UInt8) (certs mac : Bytes) :
    List (Event (ClientAnswers Bytes (String × Bytes))) :=
  [ .enter, .write {}, .write {},
    .recv .serverHello ([1, 1] ++ List.replicate 32 7 ++ [0, 0xE0, code, 0]) {},
    .recv .certificate certs {}, .postProcess {},
    .recv .serverKeyExchange (plainKeyExchange 1) {}, .recv .serverDone [] {},
    .write plainCke, .write {}, .write {}, .write {},
    .recv .changeCipherSpec [] {}, .recv .finished mac {}, .write {} ]

/-- A client completes the suite of code `0xE063` with a server whose signing
key is an SM2 key, and that of code `0xE013` with one whose key is an ML-DSA
key. -/
theorem signing_key_of_other_kind :
    (∃ t, Run.run (step .plain (client .plain)) { plainClient with verifyMode := Verify.peer }
          (familyRun 0x63 [0, 0, 10, 0, 0, 2, 0, 1, 0, 0, 2, 3, 2] [54, 32, 0, 2]) = some t ∧
        t.statem.state = .finished ∧ t.mkey = Mkey.kKyber ∧ t.session.peer = some [0, 1] ∧
        ¬ KexSuite.kyber.signsWith .plain ("SM2", [1])) ∧
      ∃ t, Run.run (step .plain (client .plain)) { plainClient with verifyMode := Verify.peer }
          (familyRun 0x13 [0, 0, 10, 0, 0, 2, 2, 1, 0, 0, 2, 0, 2]
            ([84, 32, 1, 1] ++ List.replicate 8 0)) = some t ∧
        t.statem.state = .finished ∧ t.mkey = Mkey.kSM2 ∧ t.session.peer = some [2, 1] ∧
        ¬ KexSuite.sm2.signsWith .plain ("ML-DSA-65", [1]) := by
  constructor
  · obtain ⟨t, hrun, hfin, hk, hpeer⟩ : ∃ t,
        Run.run (step .plain (client .plain)) { plainClient with verifyMode := Verify.peer }
          (familyRun 0x63 [0, 0, 10, 0, 0, 2, 0, 1, 0, 0, 2, 3, 2] [54, 32, 0, 2]) = some t ∧
        t.statem.state = .finished ∧ t.mkey = Mkey.kKyber ∧ t.session.peer = some [0, 1] := by
      decide +kernel
    exact ⟨t, hrun, hfin, hk, hpeer, keyKinds_plain.sm2 _ rfl⟩
  · obtain ⟨t, hrun, hfin, hk, hpeer⟩ : ∃ t,
        Run.run (step .plain (client .plain)) { plainClient with verifyMode := Verify.peer }
          (familyRun 0x13 [0, 0, 10, 0, 0, 2, 2, 1, 0, 0, 2, 0, 2]
          ([84, 32, 1, 1] ++ List.replicate 8 0)) = some t ∧
        t.statem.state = .finished ∧ t.mkey = Mkey.kSM2 ∧ t.session.peer = some [2, 1] := by
      decide +kernel
    exact ⟨t, hrun, hfin, hk, hpeer, by simp [KexSuite.signsWith, Libcrypto.plain]⟩

end Tlcp
