import Tlcp.Ntls.ClientKex

/-!
# Tlcp.Ntls.Suites

The seven key exchanges of the NTLS suites, and what each function of the key
exchange did where it went through: what the server wrote and kept, what the
client took from it, and what the two made of the ClientKeyExchange.
-/

namespace Tlcp

open Octets Fallible

variable {X509 Pkey : Type} {lib : Libcrypto X509 Pkey} {s t : SSL X509 Pkey}

/-- A key exchange of an NTLS suite. -/
inductive KexSuite where
  | sm2
  | rsa
  | sm2dhe
  | ecckyber
  | ecdhekyber
  | kyber
  | kyberAigisEnc
  deriving DecidableEq, Repr

/-- Its bit in `algorithm_mkey`. -/
def KexSuite.mkey : KexSuite → Nat
  | .sm2 => Mkey.kSM2
  | .rsa => Mkey.kRSA
  | .sm2dhe => Mkey.kSM2DHE
  | .ecckyber => Mkey.kECCKyber
  | .ecdhekyber => Mkey.kECDHEKyber
  | .kyber => Mkey.kKyber
  | .kyberAigisEnc => Mkey.kKyberAigisEnc

theorem NtlsCipher.exists_suite (c : NtlsCipher) : ∃ k : KexSuite, c.1.algorithmMkey = k.mkey := by
  obtain ⟨c, hc⟩ := c
  simp only [ntlsCiphers, List.mem_cons, List.not_mem_nil, or_false] at hc
  rcases hc with h | h | h | h | h | h | h | h | h | h | h | h <;> subst h
  all_goals first
    | exact ⟨.sm2dhe, rfl⟩
    | exact ⟨.sm2, rfl⟩
    | exact ⟨.rsa, rfl⟩
    | exact ⟨.ecckyber, rfl⟩
    | exact ⟨.ecdhekyber, rfl⟩
    | exact ⟨.kyber, rfl⟩
    | exact ⟨.kyberAigisEnc, rfl⟩

/-! ## the branch of a suite -/

variable {k : KexSuite} {rnd : SkeRandom} {crnd : CkeRandom} {pkt whole rest heap params : Bytes}

theorem constructSkeParams_suite : s.mkey = k.mkey → constructSkeParams lib rnd s = match k with
      | .sm2 | .rsa | .kyber => .ok ⟨[], s.s3.tmp.kex, s.session.kexGroup⟩
      | .sm2dhe => constructSkeSm2dhe lib rnd s
      | .ecckyber => constructSkeEcckyber lib rnd s
      | .ecdhekyber => constructSkeEcdhekyber lib rnd s
      | .kyberAigisEnc => constructSkeKyberAigisEnc lib rnd s := by
  unfold constructSkeParams
  intro h
  rw [h]
  cases k <;> rfl

theorem skeEncCert_suite : s.mkey = k.mkey → skeEncCert s = match k with
      | .rsa => s.cert.rsaEnc.x509
      | _ => s.cert.sm2Enc.x509 := by
  unfold skeEncCert
  intro h
  rw [h]
  cases k <;> rfl

theorem skeSignKey_suite : s.mkey = k.mkey → skeSignKey s = match k with
      | .rsa => s.cert.rsaSign.privatekey
      | _ => s.cert.sm2Sign.privatekey := by
  unfold skeSignKey
  intro h
  rw [h]
  cases k <;> rfl

/-- The encryption certificate as the signature covers it. -/
def skeEncCertAsn1 (lib : Libcrypto X509 Pkey) (s : SSL X509 Pkey) : Except Fatal Bytes :=
  orFatal .internalError .mallocFailure ((skeEncCert s).bind (x509ToAsn1 lib))

theorem skeSignedParams_suite : s.mkey = k.mkey → skeSignedParams lib s params = match k with
      | .sm2 | .rsa | .kyber => skeEncCertAsn1 lib s
      | .ecckyber => do
          let buf ← skeEncCertAsn1 lib s
          pure (buf ++ params)
      | .sm2dhe | .ecdhekyber | .kyberAigisEnc => .ok params := by
  unfold skeSignedParams
  intro h
  rw [h]
  cases k <;> try rfl
  all_goals
    change (skeEncCertAsn1 lib s >>= fun buf => pure buf) = skeEncCertAsn1 lib s
    exact bind_pure _

theorem processSkeParams_suite : s.mkey = k.mkey → processSkeParams lib s pkt =
      let kex := { s.s3.tmp.kex with peerTmp := none, aigisKemPkey := none }
      match k with
      | .sm2 | .rsa | .kyber => .ok ⟨kex, s.session.kexGroup, pkt⟩
      | .sm2dhe => tlsProcessSkeSm2dhe lib kex pkt
      | .ecckyber => tlsProcessSkeEcckyber lib s kex pkt
      | .ecdhekyber => tlsProcessSkeEcdhekyber lib kex pkt
      | .kyberAigisEnc => processSkeKyberAigisEnc lib s kex pkt := by
  unfold processSkeParams
  intro h
  rw [h]
  cases k <;> rfl

theorem skeVerifiedParams_suite : s.mkey = k.mkey →
    skeVerifiedParams lib s whole rest = match k with
      | .sm2 | .rsa | .kyber => peerEncCertAsn1 lib s
      | .ecckyber => do
          let pqKemParams ← consumedParams whole rest
          let buf ← peerEncCertAsn1 lib s
          pure (buf ++ pqKemParams)
      | .sm2dhe | .ecdhekyber | .kyberAigisEnc => consumedParams whole rest := by
  unfold skeVerifiedParams
  intro h
  rw [h]
  cases k <;> rfl

theorem tlsConstructClientKeyExchange_suite : s.mkey = k.mkey →
    tlsConstructClientKeyExchange lib crnd s = match k with
      | .sm2 | .rsa => tlsConstructCkePms lib crnd s
      | .sm2dhe => tlsConstructCkeSm2dhe lib crnd s
      | .ecckyber => tlsConstructCkeEcckyber lib crnd s
      | .ecdhekyber => tlsConstructCkeEcdhekyber lib crnd s
      | .kyber => tlsConstructCkeKyberDilithium lib crnd s
      | .kyberAigisEnc => tlsConstructCkeKyberAigisEncDilithium lib crnd s := by
  unfold tlsConstructClientKeyExchange
  intro h
  rw [h]
  cases k <;> rfl

theorem tlsProcessClientKeyExchange_suite : s.mkey = k.mkey →
    tlsProcessClientKeyExchange lib heap s pkt = match k with
      | .sm2 | .rsa => tlsProcessCkePms lib s pkt
      | .sm2dhe => tlsProcessCkeSm2dhe lib s pkt
      | .ecckyber => tlsProcessCkeEcckyber lib heap s pkt
      | .ecdhekyber => tlsProcessCkeEcdhekyber lib s pkt
      | .kyber => tlsProcessCkeKyberDilithium lib s pkt
      | .kyberAigisEnc => tlsProcessCkeKyberAigisEncDilithium lib s pkt := by
  unfold tlsProcessClientKeyExchange
  intro h
  rw [h]
  cases k <;> rfl

/-! ## what the server wrote in a ServerKeyExchange -/

variable {p : SkeParams Pkey} {r : SkeRead Pkey} {kex : Kex Pkey}

theorem subMemcpy_ok {w : Nat} {bs out : Bytes} (h : subMemcpy w bs = .ok out) :
    bs.length < 256 ^ w ∧ out = putUint w bs.length ++ bs :=
  putPrefixed_eq_some_iff.mp (orFatal_eq_ok.mp h)

theorem eccKyberHybridKeygen_eq_some {eccPkey : Pkey} {kr pk sk : Bytes}
    (h : eccKyberHybridKeygen lib eccPkey kr = some (pk, sk)) :
    ∃ (ecSk : Buf 32) (kyberPk : Buf 1184) (kyberSk : Buf 2400),
      lib.kyberKeypair kr = some (kyberPk, kyberSk) ∧
      pk.drop eccPkSize = kyberPk.1 ∧ sk = ecSk.1 ++ kyberSk.1 := by
  simp only [eccKyberHybridKeygen, Option.bind_eq_bind, Option.bind_eq_some_iff, Option.some.injEq,
    Prod.exists, Prod.mk.injEq] at h
  obtain ⟨ecSk, _, ecPk, _, kyberPk, kyberSk, hkyber, hpk, hsk⟩ := h
  subst hpk
  exact ⟨ecSk, kyberPk, kyberSk, hkyber, List.drop_left' ecPk.2, hsk.symm⟩

theorem constructSkeSm2dhe_ok (h : constructSkeSm2dhe lib rnd s = .ok p) :
    ∃ pkey, lib.generatePkeyGroup curveSM2 rnd.ephemeral = some pkey ∧
      (lib.encodedPublicKey pkey).length < 256 ∧
      p = ⟨putUint 1 namedCurveType ++ (putUint 2 curveSM2 ++
          (putUint 1 (lib.encodedPublicKey pkey).length ++ lib.encodedPublicKey pkey)),
        { s.s3.tmp.kex with pkey := some pkey }, curveSM2⟩ := by
  simp only [constructSkeSm2dhe, except_bind_ok, orFatal_eq_ok, require_eq_ok] at h
  obtain ⟨_, _, pkey, hpkey, _, _, encoded, henc, hp⟩ := h
  obtain ⟨hlen, henc⟩ := subMemcpy_ok henc
  injection hp with hp
  subst hp henc
  exact ⟨pkey, hpkey, hlen, by simp only [List.append_assoc]; rfl⟩

theorem constructSkeEcckyber_ok (h : constructSkeEcckyber lib rnd s = .ok p) :
    ∃ eccPkey, ∃ (ecSk : Buf 32) (kyberPk : Buf 1184) (kyberSk : Buf 2400),
      s.cert.sm2Enc.x509.isSome = true ∧ s.cert.sm2Enc.privatekey = some eccPkey ∧
      lib.kyberKeypair rnd.kyber = some (kyberPk, kyberSk) ∧
      p = ⟨putUint 2 kyberPkSize ++ kyberPk.1,
        { s.s3.tmp.kex with pms := some (ecSk.1 ++ kyberSk.1) }, curveSM2⟩ := by
  simp only [constructSkeEcckyber, except_bind_ok, orFatal_eq_ok, require_eq_ok, Prod.exists] at h
  obtain ⟨_, _, _, hx509, eccPkey, hpkey, pk, sk, hkeygen, params, hparams, hp⟩ := h
  obtain ⟨ecSk, kyberPk, kyberSk, hkyber, hdrop, hsk⟩ := eccKyberHybridKeygen_eq_some hkeygen
  obtain ⟨_, hparams⟩ := subMemcpy_ok hparams
  rw [hdrop, kyberPk.2] at hparams
  injection hp with hp
  subst hp hparams hsk
  exact ⟨eccPkey, ecSk, kyberPk, kyberSk, hx509, hpkey, hkyber, rfl⟩

theorem constructSkeEcdhekyber_ok (h : constructSkeEcdhekyber lib rnd s = .ok p) :
    ∃ pkey, ∃ (ecSk : Buf 32) (kyberPk : Buf 1184) (kyberSk : Buf 2400),
      lib.generatePkeyGroup curveSM2 rnd.ephemeral = some pkey ∧
      (lib.encodedPublicKey pkey).length < 256 ∧
      lib.kyberKeypair rnd.kyber = some (kyberPk, kyberSk) ∧
      p = ⟨putUint 1 namedCurveType ++ (putUint 2 curveSM2 ++
          (putUint 1 (lib.encodedPublicKey pkey).length ++ (lib.encodedPublicKey pkey ++
            (putUint 2 kyberPkSize ++ kyberPk.1)))),
        { s.s3.tmp.kex with pkey := some pkey, pms := some (ecSk.1 ++ kyberSk.1) }, curveSM2⟩ := by
  simp only [constructSkeEcdhekyber, except_bind_ok, orFatal_eq_ok, require_eq_ok, Prod.exists] at h
  obtain ⟨_, _, _, _, pkey, hpkey, _, _, encoded, henc, pk, sk, hkeygen, kyber, hparams, hp⟩ := h
  obtain ⟨hlen, henc⟩ := subMemcpy_ok henc
  obtain ⟨ecSk, kyberPk, kyberSk, hkyber, hdrop, hsk⟩ := eccKyberHybridKeygen_eq_some hkeygen
  obtain ⟨_, hparams⟩ := subMemcpy_ok hparams
  rw [hdrop, kyberPk.2] at hparams
  injection hp with hp
  subst hp henc hparams hsk
  exact ⟨pkey, ecSk, kyberPk, kyberSk, hpkey, hlen, hkyber, by simp only [List.append_assoc]; rfl⟩

theorem constructSkeKyberAigisEnc_ok (h : constructSkeKyberAigisEnc lib rnd s = .ok p) :
    ∃ kp pub, lib.aigisGenerate rnd.aigis = some kp ∧ lib.aigisPublic kp = some pub ∧
      pub.length < 256 ^ 2 ∧
      p = ⟨putUint 2 pub.length ++ pub, { s.s3.tmp.kex with aigisKemPkey := some kp },
        s.session.kexGroup⟩ := by
  simp only [constructSkeKyberAigisEnc, except_bind_ok, orFatal_eq_ok, require_eq_ok] at h
  obtain ⟨kp, hkp, pub, hpub, _, _, params, hparams, hp⟩ := h
  obtain ⟨hlen, hparams⟩ := subMemcpy_ok hparams
  injection hp with hp
  subst hp hparams
  exact ⟨kp, pub, hkp, hpub, hlen, rfl⟩

/-! ## what the client read from it -/

theorem tlsProcessSkeSm2dhe_ok (h : tlsProcessSkeSm2dhe lib kex pkt = .ok r) :
    ∃ curveType param pt peerTmp, pkt = putUint 1 curveType ++ (putUint 2 r.kexGroup ++
        (putUint 1 pt.length ++ (pt ++ r.rest))) ∧
      curveType < 256 ∧ r.kexGroup < 256 ^ 2 ∧ pt.length < 256 ∧
      lib.generateParamGroup curveSM2 = some param ∧
      lib.setEncodedPublicKey param pt = some peerTmp ∧
      r.kex = { kex with peerTmp := some peerTmp } := by
  simp only [tlsProcessSkeSm2dhe, except_bind_ok, orFatal_eq_ok, Prod.exists] at h
  obtain ⟨curveType, _, htype, curveId, _, hid, param, hparam, pt, _, hpt, peerTmp, hpeer, hr⟩ := h
  obtain ⟨hpkt, hty⟩ := getUint_eq_some_iff.mp htype
  obtain ⟨hpkt₁, hgroup⟩ := getUint_eq_some_iff.mp hid
  obtain ⟨hpkt₂, hptlen⟩ := getPrefixed_eq_some_iff.mp hpt
  injection hr with hr
  subst hr hpkt hpkt₁ hpkt₂
  exact ⟨curveType, param, pt, peerTmp, rfl, hty, hgroup, hptlen, hparam, hpeer, rfl⟩

theorem tlsProcessSkeEcckyber_ok (h : tlsProcessSkeEcckyber lib s kex pkt = .ok r) :
    ∃ encCert eccPkey, ∃ (eccPk : Buf 65) (kyberPk : Buf 1184),
      pkt = putUint 2 kyberPkSize ++ (kyberPk.1 ++ r.rest) ∧ s.peerEncCert = some encCert ∧
      lib.x509GetPubkey encCert = some eccPkey ∧ lib.ecPublic eccPkey = some eccPk ∧
      r.kex = { kex with pms := some (eccPk.1 ++ kyberPk.1) } ∧ r.kexGroup = 23 := by
  simp only [tlsProcessSkeEcckyber, except_bind_ok, orFatal_eq_ok, require_eq_ok, Prod.exists] at h
  obtain ⟨n, _, hlen, _, hsize, kyberPk, _, hpk, encCert, hcert, eccPkey, hpkey, eccPk, hecc,
    hr⟩ := h
  obtain ⟨hpkt, _⟩ := getUint_eq_some_iff.mp hlen
  obtain ⟨hpkt₁, hpklen⟩ := splitFront_eq_some_iff.mp hpk
  injection hr with hr
  subst hr hpkt hpkt₁ hsize
  exact ⟨encCert, eccPkey, eccPk, ⟨kyberPk, hpklen⟩, rfl, hcert, hpkey, hecc, rfl, rfl⟩

theorem tlsProcessSkeEcdhekyber_ok (h : tlsProcessSkeEcdhekyber lib kex pkt = .ok r) :
    ∃ curveType param pt peerTmp, ∃ kyberPk : Buf 1184,
      pkt = putUint 1 curveType ++ (putUint 2 r.kexGroup ++ (putUint 1 pt.length ++
        (pt ++ (putUint 2 kyberPkSize ++ (kyberPk.1 ++ r.rest))))) ∧
      curveType < 256 ∧ r.kexGroup < 256 ^ 2 ∧ pt.length < 256 ∧
      lib.generateParamGroup r.kexGroup = some param ∧
      lib.setEncodedPublicKey param pt = some peerTmp ∧
      r.kex = { kex with peerTmp := some peerTmp, pms := some kyberPk.1 } := by
  simp only [tlsProcessSkeEcdhekyber, except_bind_ok, orFatal_eq_ok, require_eq_ok,
    Prod.exists] at h
  obtain ⟨curveType, _, htype, curveId, _, hid, param, hparam, pt, _, hpt, peerTmp, hpeer,
    n, _, hlen, _, hsize, kyberPk, _, hpk, hr⟩ := h
  obtain ⟨hpkt, hty⟩ := getUint_eq_some_iff.mp htype
  obtain ⟨hpkt₁, hgroup⟩ := getUint_eq_some_iff.mp hid
  obtain ⟨hpkt₂, hptlen⟩ := getPrefixed_eq_some_iff.mp hpt
  obtain ⟨hpkt₃, _⟩ := getUint_eq_some_iff.mp hlen
  obtain ⟨hpkt₄, hpklen⟩ := splitFront_eq_some_iff.mp hpk
  injection hr with hr
  subst hr hpkt hpkt₁ hpkt₂ hpkt₃ hpkt₄ hsize
  exact ⟨curveType, param, pt, peerTmp, ⟨kyberPk, hpklen⟩, rfl, hty, hgroup, hptlen, hparam, hpeer, rfl⟩

theorem processSkeKyberAigisEnc_ok (h : processSkeKyberAigisEnc lib s kex pkt = .ok r) :
    ∃ pk aigisPub, pkt = putUint 2 pk.length ++ (pk ++ r.rest) ∧ pk.length < 256 ^ 2 ∧
      lib.aigisFromdata pk = some aigisPub ∧
      r.kex = { kex with aigisKemPkey := some aigisPub } ∧ r.kexGroup = s.session.kexGroup := by
  simp only [processSkeKyberAigisEnc, except_bind_ok, orFatal_eq_ok, Prod.exists] at h
  obtain ⟨pk, _, hpk, aigisPub, hpub, hr⟩ := h
  obtain ⟨hpkt, hlen⟩ := getPrefixed_eq_some_iff.mp hpk
  injection hr with hr
  subst hr hpkt
  exact ⟨pk, aigisPub, rfl, hlen, hpub, rfl, rfl⟩

end Tlcp
