import Tlcp.Lib.Layout
import Tlcp.Ntls.KexGroups

/-!
# Tlcp.Ntls.KexSecrets

The key exchange of an honest client and an honest server.

The parameters of a ServerKeyExchange are a prefix-free format for each suite
(`skeParamsLayout`), so the client finds the signature where the server put it
and rebuilds the bytes that were signed (`signed_eq_verified`).  From there on
both ends come to one premaster secret (`premaster_agrees`).
-/

namespace Tlcp

open Octets Fallible Layout

variable {X509 Pkey : Type} {lib : Libcrypto X509 Pkey} {s s' c c' : SSL X509 Pkey}
  {k : KexSuite} {rnd : SkeRandom} {body : Bytes}
variable {r rest : Bytes} {a : Pkey} {pk : Buf 1184} {sk : Buf 2400}

/-! ## the parameters of a ServerKeyExchange -/

/-- What a ServerKeyExchange carries in front of its signature. -/
def skeParamsLayout : KexSuite → Language UInt8
  | .sm2 | .rsa | .kyber => 1
  | .sm2dhe => fixed 1 * (fixed 2 * prefixed 1)
  | .ecckyber => fixed 2 * fixed kyberPkSize
  | .ecdhekyber => fixed 1 * (fixed 2 * (prefixed 1 * (fixed 2 * fixed kyberPkSize)))
  | .kyberAigisEnc => prefixed 2

theorem prefixFree_skeParams (k : KexSuite) : PrefixFree (skeParamsLayout k) := by
  cases k <;> unfold skeParamsLayout
  all_goals repeat' apply PrefixFree.mul
  all_goals first | exact prefixFree_one | exact prefixFree_fixed _ | exact prefixFree_prefixed _

theorem mem_fixed_putUint (w n : Nat) : putUint w n ∈ fixed w := mem_fixed.mpr (length_putUint w n)

theorem mem_prefixed_append {w : Nat} {bs : Bytes} (h : bs.length < 256 ^ w) :
    putUint w bs.length ++ bs ∈ prefixed w :=
  mem_prefixed.mpr ⟨bs, getPrefixed_eq_some_iff.mpr ⟨by simp, h⟩⟩

/-- What the server writes is in the format of the suite. -/
theorem constructSkeParams_layout {p : SkeParams Pkey} (hs : s.mkey = k.mkey)
    (h : constructSkeParams lib rnd s = .ok p) : p.params ∈ skeParamsLayout k := by
  rw [constructSkeParams_suite hs] at h
  cases k with
  | sm2 | rsa | kyber =>
    injection h with h
    subst h
    exact Language.nil_mem_one
  | sm2dhe =>
    obtain ⟨pkey, _, hlen, hp⟩ := constructSkeSm2dhe_ok h
    subst hp
    exact Language.append_mem_mul (mem_fixed_putUint _ _)
      (Language.append_mem_mul (mem_fixed_putUint _ _) (mem_prefixed_append hlen))
  | ecckyber =>
    obtain ⟨_, _, kyberPk, _, _, _, _, hp⟩ := constructSkeEcckyber_ok h
    subst hp
    exact Language.append_mem_mul (mem_fixed_putUint _ _) (mem_fixed.mpr kyberPk.2)
  | ecdhekyber =>
    obtain ⟨pkey, _, kyberPk, _, _, hlen, _, hp⟩ := constructSkeEcdhekyber_ok h
    subst hp
    refine Language.append_mem_mul (mem_fixed_putUint _ _)
      (Language.append_mem_mul (mem_fixed_putUint _ _) ?_)
    rw [← List.append_assoc]
    exact Language.append_mem_mul (mem_prefixed_append hlen)
      (Language.append_mem_mul (mem_fixed_putUint _ _) (mem_fixed.mpr kyberPk.2))
  | kyberAigisEnc =>
    obtain ⟨kp, pub, _, _, hlen, hp⟩ := constructSkeKyberAigisEnc_ok h
    subst hp
    exact mem_prefixed_append hlen

/-- What the client takes is in the format of the suite. -/
theorem processSkeParams_layout {r : SkeRead Pkey} (hc : c.mkey = k.mkey)
    (h : processSkeParams lib c body = .ok r) :
    ∃ front ∈ skeParamsLayout k, body = front ++ r.rest := by
  rw [processSkeParams_suite hc] at h
  cases k with
  | sm2 | rsa | kyber =>
    injection h with h
    subst h
    exact ⟨[], Language.nil_mem_one, rfl⟩
  | sm2dhe =>
    obtain ⟨typ, _, pt, _, hbody, _, _, hpt, _⟩ := tlsProcessSkeSm2dhe_ok h
    refine ⟨putUint 1 typ ++ (putUint 2 r.kexGroup ++ (putUint 1 pt.length ++ pt)), ?_,
      by rw [hbody]; simp⟩
    exact Language.append_mem_mul (mem_fixed_putUint _ _)
      (Language.append_mem_mul (mem_fixed_putUint _ _) (mem_prefixed_append hpt))
  | ecckyber =>
    obtain ⟨_, _, _, kyberPk, hbody, _⟩ := tlsProcessSkeEcckyber_ok h
    refine ⟨putUint 2 kyberPkSize ++ kyberPk.1, ?_, by rw [hbody]; simp⟩
    exact Language.append_mem_mul (mem_fixed_putUint _ _) (mem_fixed.mpr kyberPk.2)
  | ecdhekyber =>
    obtain ⟨typ, _, pt, _, kyberPk, hbody, _, _, hpt, _⟩ := tlsProcessSkeEcdhekyber_ok h
    refine ⟨putUint 1 typ ++ (putUint 2 r.kexGroup ++ ((putUint 1 pt.length ++ pt) ++
      (putUint 2 kyberPkSize ++ kyberPk.1))), ?_, by rw [hbody]; simp⟩
    exact Language.append_mem_mul (mem_fixed_putUint _ _)
      (Language.append_mem_mul (mem_fixed_putUint _ _)
        (Language.append_mem_mul (mem_prefixed_append hpt)
          (Language.append_mem_mul (mem_fixed_putUint _ _) (mem_fixed.mpr kyberPk.2))))
  | kyberAigisEnc =>
    obtain ⟨pk, _, hbody, hlen, _⟩ := processSkeKyberAigisEnc_ok h
    exact ⟨putUint 2 pk.length ++ pk, mem_prefixed_append hlen, by rw [hbody]; simp⟩

/-- The client stops where the parameters of the server end. -/
theorem processSkeParams_rest {p : SkeParams Pkey} {r : SkeRead Pkey}
    (hs : s.mkey = k.mkey) (hc : c.mkey = k.mkey) (hp : constructSkeParams lib rnd s = .ok p)
    (hr : processSkeParams lib c (p.params ++ rest) = .ok r) : r.rest = rest := by
  obtain ⟨front, hfront, hbody⟩ := processSkeParams_layout hc hr
  exact ((prefixFree_skeParams k).split (constructSkeParams_layout hs hp) hfront hbody).2.symm

theorem consumedParams_append (params rest : Bytes) :
    consumedParams (params ++ rest) rest = .ok params := by
  rw [consumedParams, except_bind_ok]
  refine ⟨(params, rest), orFatal_eq_ok.mpr ?_, rfl⟩
  exact splitFront_append rest (by simp)

/-! ## the certificates -/

/-- The signature algorithm of a suite. -/
def KexSuite.sigalg : KexSuite → SigAlg
  | .rsa => .ntlsRsa
  | .kyber | .kyberAigisEnc => .ntlsMldsa
  | .sm2 | .sm2dhe | .ecckyber | .ecdhekyber => .ntlsSm2

/-- The DER form of a certificate that was read is what it was read from. -/
def DerFaithful (lib : Libcrypto X509 Pkey) : Prop :=
  ∀ der x, lib.d2iX509 der = some (x, []) → lib.i2dX509 x = some der

/-- A client and a server in one handshake of the suite: the hellos agreed, and
the client read its list of certificates from the message of the server. -/
structure Paired (lib : Libcrypto X509 Pkey) (k : KexSuite) (s c : SSL X509 Pkey) : Prop where
  server : s.mkey = k.mkey
  client : c.mkey = k.mkey
  clientVersion : c.clientVersion = s.clientVersion
  clientRandom : c.s3.clientRandom = s.s3.clientRandom
  serverRandom : c.s3.serverRandom = s.s3.serverRandom
  sigalg : s.s3.tmp.sigalg = some k.sigalg
  certs : ∃ ans msg, tlsConstructServerCertificate lib ans s = .ok msg ∧
    parseServerCertificate lib msg = .ok c.session.peerChain

/-- An entry of the list that the server wrote, as the client reads it. -/
theorem certItem_sslAddCertToWpacket {x y : X509} {out rest' : Bytes} {al : Alert}
    (hlib : DerFaithful lib) (hout : sslAddCertToWpacket lib x = .ok out)
    (h : certItem lib al (out ++ rest) = .ok (y, rest')) :
    lib.i2dX509 y = lib.i2dX509 x ∧ rest' = rest := by
  rw [sslAddCertToWpacket, orFatal_eq_ok, Option.bind_eq_some_iff] at hout
  obtain ⟨der, hder, hput⟩ := hout
  rw [certItem, getPrefixed_append rest hput] at h
  dsimp only at h
  split at h
  · contradiction
  · next x' hd2i =>
    injection h with h
    injection h with hy hrest
    subst hy
    exact ⟨(hlib der x' hd2i).trans hder.symm, hrest.symm⟩
  · contradiction

/-- The client reads the entries of the list in order. -/
theorem reads_sslAddCertToWpacket {x : X509} {xs : List X509} {out : Bytes} {al : Alert}
    (hlib : DerFaithful lib) (hout : sslAddCertToWpacket lib x = .ok out)
    (h : Reads (certItem lib al) (out ++ rest) xs) :
    ∃ y ys, xs = y :: ys ∧ lib.i2dX509 y = lib.i2dX509 x ∧ Reads (certItem lib al) rest ys := by
  generalize hbuf : out ++ rest = buf at h
  cases h with
  | nil =>
    have hlen := sslAddCertToWpacket_length hout
    simp [(List.append_eq_nil_iff.mp hbuf).1] at hlen
  | @cons _ rest' y ys _ hitem hrest =>
    rw [← hbuf] at hitem
    obtain ⟨hy, hrest'⟩ := certItem_sslAddCertToWpacket hlib hout hitem
    subst hrest'
    exact ⟨y, ys, rfl, hy, hrest⟩

/-- The second certificate of the client is the server's encryption certificate. -/
theorem Paired.encCert (hlib : DerFaithful lib) (h : Paired lib k s c) :
    ∃ x y, skeEncCert s = some x ∧ c.peerEncCert = some y ∧ lib.i2dX509 y = lib.i2dX509 x := by
  obtain ⟨ans, msg, hmsg, hparse⟩ := h.certs
  simp only [tlsConstructServerCertificate, h.sigalg, except_bind_ok, orFatal_eq_ok,
    Option.some.injEq, exists_eq_left'] at hmsg
  obtain ⟨list, hlist, hmsg⟩ := hmsg
  obtain ⟨hlen, hmsg⟩ := putPrefixed_eq_some_iff.mp hmsg
  simp only [parseServerCertificate, except_bind_ok, orFatal_eq_ok, require_eq_ok,
    Prod.exists] at hparse
  obtain ⟨n, list', hget, _, ⟨_, hne⟩, hitems⟩ := hparse
  rw [hmsg, getUint_append _ hlen] at hget
  simp only [Option.some.injEq, Prod.mk.injEq] at hget
  obtain ⟨_, hlist'⟩ := hget
  subst hlist'
  have hslots : (k.sigalg.slots s.cert).2.x509 = skeEncCert s := by
    rw [skeEncCert_suite h.server]
    cases k <;> rfl
  unfold sslAddCertChain at hlist
  split at hlist
  · next a x _ hx =>
    simp only [List.mapM_cons, except_bind_ok] at hlist
    obtain ⟨ders, ⟨d₁, hd₁, ds, ⟨d₂, hd₂, ds', _, hds⟩, hders⟩, hlist⟩ := hlist
    injection hds with hds
    injection hders with hders
    injection hlist with hlist
    subst hders hds hlist
    simp only [List.flatten_cons] at hitems
    obtain ⟨_, ys, hys, _, hrest⟩ := reads_sslAddCertToWpacket hlib hd₁ (reads_of_readAll hitems)
    obtain ⟨y, zs, hzs, hy, _⟩ := reads_sslAddCertToWpacket hlib hd₂ hrest
    exact ⟨x, y, by rw [← hslots, hx], by rw [SSL.peerEncCert, hys, hzs]; rfl, hy⟩
  · injection hlist with hlist
    exact absurd hlist.symm hne

/-! ## the signature -/

/-- Both ends see one encryption certificate. -/
theorem Paired.encCertAsn1 (hlib : DerFaithful lib) (h : Paired lib k s c) :
    peerEncCertAsn1 lib c = skeEncCertAsn1 lib s := by
  obtain ⟨x, y, hx, hy, hder⟩ := h.encCert hlib
  simp only [peerEncCertAsn1, skeEncCertAsn1, hx, hy, Option.bind_some, x509ToAsn1, hder]

/-- What the client verifies is what the server signed. -/
theorem Paired.verifiedTbs (hlib : DerFaithful lib) (h : Paired lib k s c) (params rest : Bytes) :
    skeVerifiedTbs lib c (params ++ rest) rest = skeTbs lib s params := by
  have hparams : skeVerifiedParams lib c (params ++ rest) rest = skeSignedParams lib s params := by
    rw [skeVerifiedParams_suite h.client, skeSignedParams_suite h.server]
    cases k with
    | sm2 | rsa | kyber => exact h.encCertAsn1 hlib
    | ecckyber =>
      dsimp only
      rw [consumedParams_append, h.encCertAsn1 hlib]
      rfl
    | sm2dhe | ecdhekyber | kyberAigisEnc => exact consumedParams_append params rest
  simp only [skeVerifiedTbs, skeTbs, hparams, constructKeyExchangeTbs, h.clientRandom,
    h.serverRandom]

/-- A ServerKeyExchange is its parameters and the signature over them. -/
theorem tlsConstructServerKeyExchange_ok (hs : s.s3.tmp.sigalg = some k.sigalg)
    (h : tlsConstructServerKeyExchange lib rnd s = .ok (body, s')) :
    ∃ p key tbs sig, constructSkeParams lib rnd s = .ok p ∧ skeSignKey s = some key ∧
      skeTbs lib s p.params = .ok tbs ∧
      lib.digestSign key k.sigalg.hash rnd.sign tbs = some sig ∧
      body = p.params ++ (putUint 2 sig.length ++ sig) ∧
      s' = { s with s3.tmp.kex := p.kex, session.kexGroup := p.kexGroup } := by
  simp only [tlsConstructServerKeyExchange, except_bind_ok] at h
  obtain ⟨p, hp, sig', hsign, hbody⟩ := h
  simp only [skeSignature, hs, except_bind_ok, orFatal_eq_ok] at hsign
  obtain ⟨key, hkey, tbs, htbs, sig, hsig, hput⟩ := hsign
  obtain ⟨_, hput⟩ := subMemcpy_ok hput
  injection hbody with hbody
  injection hbody with hbody hs'
  subst hput
  exact ⟨p, key, tbs, sig, hp, hkey, htbs, hsig, hbody.symm, hs'.symm⟩

/-- **The signature of a ServerKeyExchange.**  The server signs `tbs`, and a
client that takes the parameters from the message is left with the signature,
and verifies it over `tbs`. -/
theorem signed_eq_verified (hlib : DerFaithful lib) (h : Paired lib k s c)
    (hske : tlsConstructServerKeyExchange lib rnd s = .ok (body, s')) :
    ∃ params key tbs sig, skeSignKey s = some key ∧ skeTbs lib s params = .ok tbs ∧
      lib.digestSign key k.sigalg.hash rnd.sign tbs = some sig ∧
      body = params ++ (putUint 2 sig.length ++ sig) ∧
      ∀ r, processSkeParams lib c body = .ok r →
        r.rest = putUint 2 sig.length ++ sig ∧ skeVerifiedTbs lib c body r.rest = .ok tbs := by
  obtain ⟨p, key, tbs, sig, hp, hkey, htbs, hsig, hbody, _⟩ :=
    tlsConstructServerKeyExchange_ok h.sigalg hske
  refine ⟨p.params, key, tbs, sig, hkey, htbs, hsig, hbody, ?_⟩
  intro r hr
  rw [hbody] at hr ⊢
  have hrest := processSkeParams_rest h.server h.client hp hr
  rw [hrest]
  exact ⟨rfl, (h.verifiedTbs hlib p.params _).trans htbs⟩

/-- A server in a handshake with `ECDHE-KYBER-SM4-GCM-SM3`, behind its Certificate. -/
def ecdhekyberServer : SSL Bytes (String × Bytes) := { plainServer 0 with
    cert.sm2Enc := ⟨some curvesEncCert, some ("SM2", List.replicate 65 2)⟩
    s3.tmp.newCipher := some (ntlsCipher 0x0300E01B Mkey.kECDHEKyber Auth.aSM2 .sm3)
    s3.tmp.sigalg := some .ntlsSm2 }

/-- Its client, which read the Certificate. -/
def ecdhekyberClient : SSL Bytes (String × Bytes) := { plainClient with
    s3.tmp.newCipher := some (ntlsCipher 0x0300E01B Mkey.kECDHEKyber Auth.aSM2 .sm3)
    session.peer := some [0, 1]
    session.peerChain := [[0, 1], curvesEncCert] }

theorem ecdhekyber_paired : Paired .curves .ecdhekyber ecdhekyberServer ecdhekyberClient where
  server := rfl
  client := rfl
  clientVersion := rfl
  clientRandom := rfl
  serverRandom := rfl
  sigalg := rfl
  certs := ⟨{}, [0, 0, 74, 0, 0, 2, 0, 1, 0, 0, 66] ++ curvesEncCert, by decide +kernel,
    by decide +kernel⟩

/-- Evaluation shows whether a computation ends in a result with the property `P`. -/
instance {α : Type} (e : Except Fatal α) (P : α → Prop) [DecidablePred P] :
    Decidable (∃ a, e = .ok a ∧ P a) :=
  match e with
  | .error _ => isFalse (by simp)
  | .ok a => decidable_of_iff (P a) (by simp)

/-- Their key exchange, message by message. -/
theorem ecdhekyberKex_ok : ∃ ske,
    tlsConstructServerKeyExchange .curves { ephemeral := [4] } ecdhekyberServer = .ok ske ∧
    ∃ c, tlsProcessKeyExchange .curves ecdhekyberClient ske.1 = .ok c ∧
    ∃ cke, tlsConstructClientKeyExchange .curves { pms := Buf.zero 46, ephemeral := [5] } c =
      .ok cke ∧ cke.2.pms.isSome := by
  decide +kernel

theorem signed_eq_verified_ecdhekyber :
    ∃ body s', tlsConstructServerKeyExchange .curves { ephemeral := [4] } ecdhekyberServer =
        .ok (body, s') ∧
      ∃ params key tbs sig, skeSignKey ecdhekyberServer = some key ∧
        skeTbs .curves ecdhekyberServer params = .ok tbs ∧
        Libcrypto.curves.digestSign key (some .sm3) [] tbs = some sig ∧
        body = params ++ (putUint 2 sig.length ++ sig) ∧
        ∀ r, processSkeParams .curves ecdhekyberClient body = .ok r →
          r.rest = putUint 2 sig.length ++ sig ∧
          skeVerifiedTbs .curves ecdhekyberClient body r.rest = .ok tbs := by
  have hder : DerFaithful Libcrypto.curves := by
    intro der x h
    injection h with h
    injection h with h _
    rw [h]
    rfl
  obtain ⟨⟨body, s'⟩, hske, _⟩ := ecdhekyberKex_ok
  exact ⟨body, s', hske, signed_eq_verified hder ecdhekyber_paired hske⟩

/-! ## the primitives -/

/-- What libcrypto promises of its primitives: decryption inverts encryption,
decapsulation inverts encapsulation, and Diffie-Hellman commutes.  `pair` holds
of a private and a public key that belong together. -/
structure Primitives (lib : Libcrypto X509 Pkey) extends EcGroups lib where
  pair : Pkey → Pkey → Prop
  encrypt : ∀ pub rnd pt ct, pt ≠ [] → lib.encrypt pub rnd pt = some ct → ct ≠ []
  decrypt : ∀ priv pub rnd pt ct, pair priv pub → lib.encrypt pub rnd pt = some ct →
    lib.decrypt priv ct = some pt
  decryptTlsPadding : ∀ priv pub rnd v (r : Buf 46) ct, pair priv pub →
    lib.encrypt pub rnd (putUint 2 v ++ r.1) = some ct →
    lib.decryptTlsPadding priv v ct = some (putUint 2 v ++ r.1)
  decapsulate : ∀ priv pub rnd ct ss, pair priv pub → lib.encapsulate pub rnd = some (ct, ss) →
    lib.decapsulate priv ct = some ss
  aigis : ∀ rnd kp bs pub, lib.aigisGenerate rnd = some kp → lib.aigisPublic kp = some bs →
    lib.aigisFromdata bs = some pub → pair kp pub
  kyber : ∀ r r' pk sk ct ss, lib.kyberKeypair r = some (pk, sk) →
    lib.kyberEnc pk r' = some (ct, ss) → lib.kyberDec sk ct = some ss
  encoded : ∀ p pt key, lib.setEncodedPublicKey p pt = some key → lib.encodedPublicKey key = pt
  decodes : ∀ p key, group p = group key → lib.encodedPublicKey key ≠ [] →
    ∃ pub, lib.setEncodedPublicKey p (lib.encodedPublicKey key) = some pub
  ecdh : ∀ derive ∈ [lib.derive, lib.deriveSm2], ∀ a b pa pb z,
    (∃ g r, lib.generatePkeyGroup g r = some a) → group a = group b →
    group pa = group a → lib.encodedPublicKey pa = lib.encodedPublicKey a →
    group pb = group b → lib.encodedPublicKey pb = lib.encodedPublicKey b →
    derive b pa = some z → derive a pb = some z

variable (P : Primitives lib)

/-- The server's point and the client's lead to one secret on both ends. -/
theorem Primitives.shared {derive : Pkey → Pkey → Option Bytes}
    {b pa : Pkey} {z : Bytes} (hder : derive ∈ [lib.derive, lib.deriveSm2])
    (ha : lib.generatePkeyGroup curveSM2 r = some a) (hb : P.group b = curveSM2)
    (hpa : P.group pa = curveSM2) (henc : lib.encodedPublicKey pa = lib.encodedPublicKey a)
    (hpt : lib.encodedPublicKey b ≠ []) (hz : derive b pa = some z) :
    ∃ pb, lib.setEncodedPublicKey a (lib.encodedPublicKey b) = some pb ∧
      derive a pb = some z := by
  have hga : P.group a = curveSM2 := P.generatePkeyGroup _ _ _ ha
  have hab : P.group a = P.group b := hga.trans hb.symm
  obtain ⟨pb, hpb⟩ := P.decodes a b hab hpt
  refine ⟨pb, hpb, P.ecdh _ hder a b pa pb z ⟨_, _, ha⟩ hab (hpa.trans hga.symm) henc ?_ ?_ hz⟩
  · exact (P.setEncodedPublicKey _ _ _ hpb).trans hab
  · exact P.encoded _ _ _ hpb

/-- The encryption key of the server for a suite. -/
def KexSuite.encKey (k : KexSuite) (s : SSL X509 Pkey) : Option Pkey := match k with
  | .rsa => s.cert.rsaEnc.privatekey
  | _ => s.cert.sm2Enc.privatekey

/-! ## the premaster secret -/

variable {crnd : CkeRandom} {cke heap : Bytes} {kex kexC : Kex Pkey} {priv : Pkey}

/-- The client's object has the key of the encryption certificate that it
received, and it belongs to the server's private key. -/
def EncKeys (k : KexSuite) (s c : SSL X509 Pkey) : Prop :=
  ∃ priv, k.encKey s = some priv ∧
    ∀ x pub, c.peerEncCert = some x → lib.x509GetPubkey x = some pub → P.pair priv pub

theorem agrees_pms (hk : k = .sm2 ∨ k = .rsa) (hs : s.mkey = k.mkey)
    (hv : c.clientVersion = s.clientVersion) (hkeys : EncKeys P k s c)
    (h : tlsConstructCkePms lib crnd c = .ok (cke, kexC)) :
    ∃ pms kexS, kexC.pms = some pms ∧ tlsProcessCkePms lib s cke = .ok (pms, kexS) := by
  obtain ⟨priv, hpriv, hkeys⟩ := hkeys
  simp only [tlsConstructCkePms, except_bind_ok, orFatal_eq_ok, require_eq_ok,
    Option.bind_eq_some_iff] at h
  obtain ⟨x, hx, pub, hpub, _, _, cke', ⟨ct, hct, hput⟩, hp⟩ := h
  injection hp with hp
  injection hp with hcke hkex
  subst hcke hkex
  have hpair := hkeys x pub hx hpub
  have hlen : (crnd.premaster c.clientVersion).length = sslMaxMasterKeyLength := by
    simp [CkeRandom.premaster, crnd.pms.2, sslMaxMasterKeyLength]
  have hget : getPrefixed 2 cke' = some (ct, []) := by
    simpa using getPrefixed_append [] hput
  refine ⟨crnd.premaster c.clientVersion, s.s3.tmp.kex, rfl, ?_⟩
  simp only [tlsProcessCkePms, except_bind_ok, orFatal_eq_ok, require_eq_ok, Prod.exists, hs]
  cases hk with
  | inl hk =>
    subst hk
    exact ⟨priv, hpriv, ct, [], hget, (), rfl, _, P.decrypt _ _ _ _ _ hpair hct, (), hlen, rfl⟩
  | inr hk =>
    subst hk
    have hdec := P.decryptTlsPadding _ _ _ _ _ _ hpair hct
    rw [hv] at hdec ⊢
    rw [hv] at hlen
    exact ⟨priv, hpriv, ct, [], hget, (), rfl, _, hdec, (), hlen, rfl⟩

/-- The client has the point of the server's ephemeral key `a`. -/
def HasPoint (a : Pkey) (c : SSL X509 Pkey) : Prop :=
  ∃ pa, c.s3.tmp.kex.peerTmp = some pa ∧ P.group pa = curveSM2 ∧
    lib.encodedPublicKey pa = lib.encodedPublicKey a

theorem agrees_sm2dhe
    (ha : lib.generatePkeyGroup curveSM2 r = some a) (hs : s.s3.tmp.kex.pkey = some a)
    (hc : HasPoint P a c) (h : tlsConstructCkeSm2dhe lib crnd c = .ok (cke, kexC)) :
    ∃ pms kexS, kexC.pms = some pms ∧ tlsProcessCkeSm2dhe lib s cke = .ok (pms, kexS) := by
  obtain ⟨pa, hpa, hgroup, henc⟩ := hc
  simp only [tlsConstructCkeSm2dhe, except_bind_ok, orFatal_eq_ok, require_eq_ok] at h
  obtain ⟨pa', hpa', b, hb, z, hz, _, hpt, encoded, hencoded, hp⟩ := h
  rw [hpa] at hpa'
  injection hpa' with hpa'
  injection hp with hp
  injection hp with hcke hkex
  subst hpa' hcke hkex
  have hgb : P.group b = curveSM2 := (P.generatePkey _ _ _ hb).trans hgroup
  obtain ⟨pb, hpb, hz'⟩ := P.shared (by simp) ha hgb hgroup henc hpt hz
  have hget : getPrefixed 1 encoded = some (lib.encodedPublicKey b, []) := by
    simpa using getPrefixed_append [] (orFatal_eq_ok.mp hencoded)
  refine ⟨z, { s.s3.tmp.kex with pkey := none }, rfl, ?_⟩
  simp only [tlsProcessCkeSm2dhe, except_bind_ok, orFatal_eq_ok, require_eq_ok, Prod.exists]
  exact ⟨(), by simp [putUint], _, encoded, splitFront_append encoded (by simp), _, [], hget, (),
    rfl, a, hs, pb, hpb, z, hz', rfl⟩

/-- The hybrid keys of the two ends belong together. -/
theorem Primitives.hybrid (P : Primitives lib) {r' : Bytes} {ecPk : Bytes} (ecSk : Buf 32)
    {ct : Buf 1088} {ss : Buf 32}
    (hkeys : lib.kyberKeypair r = some (pk, sk)) (hlen : ecPk.length = eccPkSize)
    (h : eccKyberHybridEncaps lib (ecPk ++ pk.1) r' = some (ct, ss)) :
    eccKyberHybridDecaps lib ct.1 (ecSk.1 ++ sk.1) = some ss := by
  simp only [eccKyberHybridEncaps, Option.bind_eq_bind, Option.bind_eq_some_iff] at h
  obtain ⟨_, _, pk', hpk', henc⟩ := h
  rw [List.drop_left' hlen, asBuf_eq_some_iff] at hpk'
  have hpk : pk' = pk := Subtype.ext hpk'.symm
  subst hpk
  simp only [eccKyberHybridDecaps, Option.bind_eq_bind, Option.bind_eq_some_iff]
  have hsk : (ecSk.1 ++ sk.1).length = hybridSkSize := by simp [ecSk.2, sk.2, hybridSkSize]
  refine ⟨⟨_, hsk⟩, asBuf_eq_some_iff.mpr rfl, ct, asBuf_val _ ct, sk, ?_,
    P.kyber _ _ _ _ _ _ hkeys henc⟩
  rw [List.drop_left' ecSk.2]
  exact asBuf_val _ sk

theorem agrees_ecckyber {ecPk : Bytes} {ecSk : Buf 32}
    (hkyber : lib.kyberKeypair r = some (pk, sk))
    (hs : s.s3.tmp.kex.pms = some (ecSk.1 ++ sk.1)) (hlen : ecPk.length = eccPkSize)
    (hc : c.s3.tmp.kex.pms = some (ecPk ++ pk.1)) (hkeys : EncKeys P .ecckyber s c)
    (h : tlsConstructCkeEcckyber lib crnd c = .ok (cke, kexC)) :
    ∃ pms kexS, kexC.pms = some pms ∧ tlsProcessCkeEcckyber lib heap s cke = .ok (pms, kexS) := by
  obtain ⟨priv, hpriv, hkeys⟩ := hkeys
  simp only [tlsConstructCkeEcckyber, except_bind_ok, orFatal_eq_ok, require_eq_ok,
    Option.bind_eq_some_iff, Prod.exists] at h
  obtain ⟨hybridPk, hpk, _, _, x, hx, pub, hpub, _, _, enc, ⟨ct, hct, hput⟩, kyberCt, kyberSs,
    hencaps, hp⟩ := h
  rw [hc] at hpk
  injection hpk with hpk
  injection hp with hp
  injection hp with hcke hkex
  subst hpk hcke hkex
  have hne : ct ≠ [] := P.encrypt _ _ _ _ (by simp [CkeRandom.premaster, putUint]) hct
  have hdec := P.decrypt _ _ _ _ _ (hkeys x pub hx hpub) hct
  have hdecaps := P.hybrid ecSk hkyber hlen hencaps
  have hsk : (ecSk.1 ++ sk.1).length = hybridSkSize := by simp [ecSk.2, sk.2, hybridSkSize]
  have hpms : (crnd.premaster c.clientVersion ++ kyberSs.1 ++ heap).take hybridSsSize =
      crnd.premaster c.clientVersion ++ kyberSs.1 := by
    exact List.take_left' (by simp [CkeRandom.premaster, crnd.pms.2, kyberSs.2, hybridSsSize])
  refine ⟨crnd.premaster c.clientVersion ++ kyberSs.1, s.s3.tmp.kex, rfl, ?_⟩
  simp only [tlsProcessCkeEcckyber, except_bind_ok, orFatal_eq_ok, require_eq_ok, Prod.exists]
  rw [List.append_assoc]
  refine ⟨(), ?_, ct, _, getPrefixed_append _ hput, (), hne, kyberCtSize, kyberCt.1,
    getUint_append _ (by decide), (), rfl, kyberCt.1, [], ?_, (), rfl, priv, hpriv, _, hdec, _, hs,
    (), hsk, kyberSs, hdecaps, by rw [hpms]; rfl⟩
  · obtain ⟨_, hput⟩ := putPrefixed_eq_some_iff.mp hput
    simp [hput, putUint]
  · exact splitFront_eq_some_iff.mpr ⟨(List.append_nil _).symm, kyberCt.2⟩

theorem agrees_ecdhekyber {r' : Bytes} {ecSk : Buf 32}
    (ha : lib.generatePkeyGroup curveSM2 r = some a)
    (hkyber : lib.kyberKeypair r' = some (pk, sk)) (hpkey : s.s3.tmp.kex.pkey = some a)
    (hs : s.s3.tmp.kex.pms = some (ecSk.1 ++ sk.1)) (hpoint : HasPoint P a c)
    (hc : c.s3.tmp.kex.pms = some pk.1)
    (h : tlsConstructCkeEcdhekyber lib crnd c = .ok (cke, kexC)) :
    ∃ pms kexS, kexC.pms = some pms ∧ tlsProcessCkeEcdhekyber lib s cke = .ok (pms, kexS) := by
  obtain ⟨pa, hpa, _, henc⟩ := hpoint
  simp only [tlsConstructCkeEcdhekyber, except_bind_ok, orFatal_eq_ok, require_eq_ok,
    Prod.exists] at h
  obtain ⟨pa', hpa', kyberPk, hpk, _, _, b, hb, _, _, pa'', hpa'', z, hz, _, hne, _, hpt,
    encoded, hencoded, _, _, encPkey, _, _, hlen, kyberCt, kyberSs, hencaps, hp⟩ := h
  rw [hpa] at hpa'
  injection hpa' with hpa'
  rw [hc] at hpk
  injection hpk with hpk
  injection hp with hp
  injection hp with hcke hkex
  subst hpa' hpk hcke hkex
  have hgb : P.group b = curveSM2 := P.generatePkeyGroup _ _ _ hb
  have hgpa : P.group pa'' = curveSM2 := (P.setEncodedPublicKey _ _ _ hpa'').trans hgb
  have henc' : lib.encodedPublicKey pa'' = lib.encodedPublicKey a :=
    (P.encoded _ _ _ hpa'').trans henc
  obtain ⟨pb, hpb, hz'⟩ := P.shared (by simp) ha hgb hgpa henc' hpt hz
  have hdecaps := P.hybrid ecSk hkyber hlen hencaps
  have hsk : (ecSk.1 ++ sk.1).length = hybridSkSize := by simp [ecSk.2, sk.2, hybridSkSize]
  refine ⟨z ++ kyberSs.1, { s.s3.tmp.kex with pkey := none, pms := some (z ++ kyberSs.1) }, rfl, ?_⟩
  simp only [tlsProcessCkeEcdhekyber, except_bind_ok, orFatal_eq_ok, require_eq_ok, Prod.exists]
  refine ⟨(), by simp [putUint], _, hs, (), hsk, putUint 1 namedCurveType ++ putUint 2 tls1SharedGroup,
    _, ?_, _, _, getPrefixed_append _ (orFatal_eq_ok.mp hencoded), a, hpkey, pb, hpb, z, hz', (), hne,
    kyberCtSize, kyberCt.1, getUint_append _ (by decide), (), rfl, kyberCt.1, [], ?_, (), rfl,
    kyberSs, hdecaps, rfl⟩
  · simp only [List.append_assoc]
    rw [← List.append_assoc]
    exact splitFront_append _ (by simp)
  · exact splitFront_eq_some_iff.mpr ⟨(List.append_nil _).symm, kyberCt.2⟩

theorem encapsulateTo_ok {pkey : Pkey} {ct ss : Bytes}
    (h : encapsulateTo lib pkey r = .ok (ct, ss)) :
    lib.encapsulate pkey r = some (ct, ss) ∧ ss ≠ [] := by
  simp only [encapsulateTo, except_bind_ok, orFatal_eq_ok, require_eq_ok, Prod.exists] at h
  obtain ⟨ct', ss', henc, _, ⟨_, hss⟩, hp⟩ := h
  injection hp with hp
  injection hp with hct hss'
  subst hct hss'
  exact ⟨henc, hss⟩

theorem agrees_kyber (hkeys : EncKeys P .kyber s c)
    (h : tlsConstructCkeKyberDilithium lib crnd c = .ok (cke, kexC)) :
    ∃ pms kexS, kexC.pms = some pms ∧ tlsProcessCkeKyberDilithium lib s cke = .ok (pms, kexS) := by
  obtain ⟨priv, hpriv, hkeys⟩ := hkeys
  simp only [tlsConstructCkeKyberDilithium, except_bind_ok, orFatal_eq_ok, Prod.exists] at h
  obtain ⟨x, hx, pub, hpub, ct, ss, henc, encoded, hencoded, hp⟩ := h
  obtain ⟨henc, hss⟩ := encapsulateTo_ok henc
  injection hp with hp
  injection hp with hcke hkex
  subst hcke hkex
  have hdec := P.decapsulate _ _ _ _ _ (hkeys x pub hx hpub) henc
  have hget : getPrefixed 2 encoded = some (ct, []) := by
    simpa using getPrefixed_append [] (orFatal_eq_ok.mp hencoded)
  refine ⟨ss, s.s3.tmp.kex, rfl, ?_⟩
  simp only [tlsProcessCkeKyberDilithium, except_bind_ok, orFatal_eq_ok, require_eq_ok, Prod.exists]
  exact ⟨ct, [], hget, (), rfl, priv, hpriv, ss, hdec, (), hss, rfl⟩

theorem agrees_kyberAigisEnc {kp aigisPub : Pkey}
    (hs : s.s3.tmp.kex.aigisKemPkey = some kp) (hc : c.s3.tmp.kex.aigisKemPkey = some aigisPub)
    (hpair : P.pair kp aigisPub) (hkeys : EncKeys P .kyberAigisEnc s c)
    (h : tlsConstructCkeKyberAigisEncDilithium lib crnd c = .ok (cke, kexC)) :
    ∃ pms kexS, kexC.pms = some pms ∧
      tlsProcessCkeKyberAigisEncDilithium lib s cke = .ok (pms, kexS) := by
  obtain ⟨priv, hpriv, hkeys⟩ := hkeys
  simp only [tlsConstructCkeKyberAigisEncDilithium, except_bind_ok, orFatal_eq_ok, Prod.exists] at h
  obtain ⟨x, hx, pub, hpub, aigisPub', haigis, ctK, ssK, hencK, ctA, ssA, hencA, outK, houtK, outA,
    houtA, hp⟩ := h
  obtain ⟨hencK, hssK⟩ := encapsulateTo_ok hencK
  obtain ⟨hencA, hssA⟩ := encapsulateTo_ok hencA
  rw [hc] at haigis
  injection haigis with haigis
  injection hp with hp
  injection hp with hcke hkex
  subst haigis hcke hkex
  have hdecK := P.decapsulate _ _ _ _ _ (hkeys x pub hx hpub) hencK
  have hdecA := P.decapsulate _ _ _ _ _ hpair hencA
  have hget : getPrefixed 2 outA = some (ctA, []) := by
    simpa using getPrefixed_append [] (orFatal_eq_ok.mp houtA)
  refine ⟨ssK ++ ssA, s.s3.tmp.kex, rfl, ?_⟩
  simp only [tlsProcessCkeKyberAigisEncDilithium, except_bind_ok, orFatal_eq_ok, require_eq_ok,
    Prod.exists]
  exact ⟨ctK, outA, getPrefixed_append _ (orFatal_eq_ok.mp houtK), ctA, [], hget, (), rfl, priv,
    hpriv, kp, hs, ssK, hdecK, (), hssK, ssA, hdecA, (), hssA, rfl⟩

theorem tlsProcessKeyExchange_ok (h : tlsProcessKeyExchange lib c body = .ok c') :
    ∃ r lu, processSkeParams lib c body = .ok r ∧ verifySkeSignature lib c body r.rest = .ok lu ∧
      c' = { c with
        s3.tmp.kex := r.kex, s3.tmp.peerSigalg := some lu, session.kexGroup := r.kexGroup } := by
  simp only [tlsProcessKeyExchange, except_bind_ok] at h
  obtain ⟨r, hr, lu, hlu, hc'⟩ := h
  injection hc' with hc'
  exact ⟨r, lu, hr, hlu, hc'.symm⟩

/-- **One premaster secret.**  When the client reads the ServerKeyExchange that
the server built, the server accepts all of the ClientKeyExchange that the
client builds then, and both hand the same bytes to the derivation of the
master secret. -/
theorem premaster_agrees (h : Paired lib k s c) (hkeys : EncKeys P k s c)
    (heap : Bytes) (hske : tlsConstructServerKeyExchange lib rnd s = .ok (body, s'))
    (hread : tlsProcessKeyExchange lib c body = .ok c')
    (hcke : tlsConstructClientKeyExchange lib crnd c' = .ok (cke, kexC)) :
    ∃ pms kexS, kexC.pms = some pms ∧
      tlsProcessClientKeyExchange lib heap s' cke = .ok (pms, kexS) := by
  obtain ⟨p, _, _, sig, hp, _, _, _, hbody, hs'⟩ := tlsConstructServerKeyExchange_ok h.sigalg hske
  obtain ⟨r, lu, hr, _, hc'⟩ := tlsProcessKeyExchange_ok hread
  have hserver : s'.mkey = k.mkey := by rw [hs']; exact h.server
  have hclient : c'.mkey = k.mkey := by rw [hc']; exact h.client
  have hkeys' : EncKeys P k s' c' := by
    rw [hs', hc']
    exact hkeys
  have hskex : s'.s3.tmp.kex = p.kex := by rw [hs']
  have hckex : c'.s3.tmp.kex = r.kex := by rw [hc']
  have hversion : c'.clientVersion = s'.clientVersion := by
    rw [hs', hc']
    exact h.clientVersion
  rw [constructSkeParams_suite h.server] at hp
  rw [processSkeParams_suite h.client] at hr
  rw [tlsConstructClientKeyExchange_suite hclient] at hcke
  rw [tlsProcessClientKeyExchange_suite hserver]
  cases k with
  | sm2 => exact agrees_pms P (.inl rfl) hserver hversion hkeys' hcke
  | rsa => exact agrees_pms P (.inr rfl) hserver hversion hkeys' hcke
  | sm2dhe =>
    obtain ⟨a, ha, halen, hp⟩ := constructSkeSm2dhe_ok hp
    obtain ⟨typ, param, pt, pa, hbody', htyp, hid, hptlen, hparam, hpa, hrkex⟩ :=
      tlsProcessSkeSm2dhe_ok hr
    simp only [hbody, hp, List.append_assoc] at hbody'
    obtain ⟨_, hbody'⟩ := putUint_inj (by decide) htyp hbody'
    obtain ⟨_, hbody'⟩ := putUint_inj (by decide) hid hbody'
    obtain ⟨hpt, _⟩ := putPrefixed_inj halen hptlen hbody'
    have hgroup : P.group pa = curveSM2 :=
      (P.setEncodedPublicKey _ _ _ hpa).trans (P.generateParamGroup _ _ hparam)
    have hpoint : HasPoint P a c' :=
      ⟨pa, by rw [hckex, hrkex], hgroup, (P.encoded _ _ _ hpa).trans hpt.symm⟩
    exact agrees_sm2dhe P ha (by rw [hskex, hp]) hpoint hcke
  | ecckyber =>
    obtain ⟨_, ecSk, pk, sk, _, _, hkyber, hp⟩ := constructSkeEcckyber_ok hp
    obtain ⟨_, _, ecPk, pk', hbody', _, _, _, hrkex, _⟩ := tlsProcessSkeEcckyber_ok hr
    simp only [hbody, hp, List.append_assoc] at hbody'
    have hpk : pk = pk' :=
      Subtype.ext (List.append_inj (List.append_cancel_left hbody') (by rw [pk.2, pk'.2])).1
    subst hpk
    exact agrees_ecckyber P hkyber (by rw [hskex, hp]) ecPk.2 (by rw [hckex, hrkex]) hkeys' hcke
  | ecdhekyber =>
    obtain ⟨a, ecSk, pk, sk, ha, halen, hkyber, hp⟩ := constructSkeEcdhekyber_ok hp
    obtain ⟨typ, param, pt, pa, pk', hbody', htyp, hid, hptlen, hparam, hpa, hrkex⟩ :=
      tlsProcessSkeEcdhekyber_ok hr
    simp only [hbody, hp, List.append_assoc] at hbody'
    obtain ⟨_, hbody'⟩ := putUint_inj (by decide) htyp hbody'
    obtain ⟨hcurve, hbody'⟩ := putUint_inj (by decide) hid hbody'
    obtain ⟨hpt, hbody'⟩ := putPrefixed_inj halen hptlen hbody'
    have hpk : pk = pk' :=
      Subtype.ext (List.append_inj (List.append_cancel_left hbody') (by rw [pk.2, pk'.2])).1
    subst hpk
    have hgroup : P.group pa = curveSM2 := (P.setEncodedPublicKey _ _ _ hpa).trans
        ((P.generateParamGroup _ _ hparam).trans hcurve.symm)
    have hpoint : HasPoint P a c' :=
      ⟨pa, by rw [hckex, hrkex], hgroup, (P.encoded _ _ _ hpa).trans hpt.symm⟩
    exact agrees_ecdhekyber P ha hkyber (by rw [hskex, hp]) (by rw [hskex, hp]) hpoint
      (by rw [hckex, hrkex]) hcke
  | kyber => exact agrees_kyber P hkeys' hcke
  | kyberAigisEnc =>
    obtain ⟨kp, pub, hkp, hpub, hlen, hp⟩ := constructSkeKyberAigisEnc_ok hp
    obtain ⟨pub', aigisPub, hbody', hlen', haigis, hrkex, _⟩ := processSkeKyberAigisEnc_ok hr
    simp only [hbody, hp, List.append_assoc] at hbody'
    obtain ⟨hpub', _⟩ := putPrefixed_inj hlen hlen' hbody'
    subst hpub'
    exact agrees_kyberAigisEnc P (by rw [hskex, hp]) (by rw [hckex, hrkex])
      (P.aigis _ _ _ _ hkp hpub haigis) hkeys' hcke

/-- The primitives of `Libcrypto.curves`, where every two keys are a pair. -/
def curvesPrimitives : Primitives Libcrypto.curves where
  toEcGroups := curvesGroups
  pair _ _ := True
  encrypt _ _ pt ct hpt h := by
    injection h with h
    rwa [← h]
  decrypt _ _ _ _ _ _ h := by
    injection h with h
    rw [h]
    rfl
  decryptTlsPadding _ _ _ _ _ _ _ h := by
    injection h with h
    rw [h]
    rfl
  decapsulate _ _ _ ct ss _ h := by
    injection h with h
    injection h with hct hss
    rw [← hct, ← hss]
    rfl
  aigis _ _ _ _ _ _ _ := trivial
  kyber _ _ _ _ ct ss _ h := by
    injection h with h
    injection h with hct hss
    rw [← hct, ← hss]
    rfl
  encoded p pt key h := by
    injection h with h
    rw [← h]
    rfl
  decodes p key _ _ := ⟨_, rfl⟩
  ecdh derive hder a b pa pb z _ _ _ hpa _ hpb h := by
    -- there is no derivation between two SM2 keys
    have hder : derive = Libcrypto.curves.derive := by
      rcases List.mem_pair.mp hder with hder | hder
      · exact hder
      · subst hder
        simp [Libcrypto.curves, Libcrypto.plain] at h
    subst hder
    injection h with h
    have ha : pa.2 = a.2 := hpa
    have hb : pb.2 = b.2 := hpb
    have hz : List.zipWith (· + ·) a.2 pb.2 = z := by
      rw [hb, ← h, ha]
      exact List.zipWith_comm_of_comm (fun x y => UInt8.add_comm x y)
    exact congrArg some hz

theorem premaster_agrees_ecdhekyber : ∃ body s' c' cke kexC pms kexS,
      tlsConstructServerKeyExchange .curves { ephemeral := [4] } ecdhekyberServer =
        .ok (body, s') ∧
      tlsProcessKeyExchange .curves ecdhekyberClient body = .ok c' ∧
      tlsConstructClientKeyExchange .curves { pms := Buf.zero 46, ephemeral := [5] } c' =
        .ok (cke, kexC) ∧ kexC.pms = some pms ∧
      tlsProcessClientKeyExchange .curves [] s' cke = .ok (pms, kexS) := by
  obtain ⟨⟨body, s'⟩, hske, c', hread, ⟨cke, kexC⟩, hcke, _⟩ := ecdhekyberKex_ok
  obtain ⟨pms, kexS, hpms, hserver⟩ := premaster_agrees curvesPrimitives ecdhekyber_paired
    ⟨_, rfl, fun _ _ _ _ => trivial⟩ [] hske hread hcke
  exact ⟨body, s', c', cke, kexC, pms, kexS, hske, hread, hcke, hpms, hserver⟩

/-! ## the shape of the premaster secret -/

/-- What the encrypted premaster secret in a ClientKeyExchange decrypts to. -/
def sm2Premaster (lib : Libcrypto X509 Pkey) (s : SSL X509 Pkey) (pkt : Bytes) : Option Bytes := do
  let (enc, _) ← getPrefixed 2 pkt
  let pkey ← s.cert.sm2Enc.privatekey
  lib.decrypt pkey enc

/-- The secret that its Kyber ciphertext carries. -/
def kyberSecret (lib : Libcrypto X509 Pkey) (s : SSL X509 Pkey) (pkt : Bytes) :
    Option (Buf 32) := do
  let (_, rest) ← getPrefixed 2 pkt
  let (_, ct) ← getUint 2 rest
  let hybridSk ← s.s3.tmp.kex.pms
  eccKyberHybridDecaps lib ct hybridSk

/-- What `kECCKyber` does with what it decrypted. -/
theorem tlsProcessCkeEcckyber_ok {pkt pms : Bytes}
    (h : tlsProcessCkeEcckyber lib heap s pkt = .ok (pms, kex)) :
    ∃ dec ss, sm2Premaster lib s pkt = some dec ∧ kyberSecret lib s pkt = some ss ∧
      pms = (dec ++ ss.1 ++ heap).take hybridSsSize := by
  simp only [tlsProcessCkeEcckyber, except_bind_ok, orFatal_eq_ok, require_eq_ok, Prod.exists] at h
  obtain ⟨_, _, enc, rest, henc, _, _, ctLen, rest', hlen, _, _, ct, rest'', hct, _, hrest, pkey,
    hpkey, dec, hdec, sk, hsk, _, _, ss, hss, hp⟩ := h
  obtain ⟨hct, _⟩ := splitFront_eq_some_iff.mp hct
  rw [hrest, List.append_nil] at hct
  injection hp with hp
  injection hp with hpms _
  subst hct
  refine ⟨dec, ss, ?_, ?_, hpms.symm⟩
  · simp only [sm2Premaster, henc, hpkey, Option.bind_eq_bind, Option.bind_some]
    exact hdec
  · simp only [kyberSecret, henc, hlen, hsk, Option.bind_eq_bind, Option.bind_some]
    exact hss

/-- **The premaster secret of `kECCKyber`.**  For a ClientKeyExchange that the
server accepts, the premaster secret is a decrypted one of 48 bytes followed by
the Kyber secret exactly if the client encrypted 48 bytes: the server does not
look at the length. -/
theorem ecckyber_premaster_iff {pkt pms : Bytes} (hs : s.mkey = KexSuite.ecckyber.mkey)
    (h : tlsProcessClientKeyExchange lib heap s pkt = .ok (pms, kex)) :
    (∃ dec ss, sm2Premaster lib s pkt = some dec ∧ kyberSecret lib s pkt = some ss ∧
        dec.length = sslMaxMasterKeyLength ∧ pms = dec ++ ss.1) ↔
      ∀ dec, sm2Premaster lib s pkt = some dec → dec.length = sslMaxMasterKeyLength := by
  rw [tlsProcessClientKeyExchange_suite hs] at h
  obtain ⟨dec, ss, hdec, hss, hpms⟩ := tlsProcessCkeEcckyber_ok h
  constructor
  · intro ⟨dec', _, hdec', _, hlen, _⟩ dec'' hdec''
    rw [hdec'] at hdec''
    injection hdec'' with hdec''
    rwa [← hdec'']
  · intro hlen
    have hlen := hlen dec hdec
    refine ⟨dec, ss, hdec, hss, hlen, hpms.trans (List.take_left' ?_)⟩
    rw [List.length_append, hlen, ss.2]
    rfl

/-- A server in a handshake with the suite of code `0xE01D`, behind its
ServerKeyExchange. -/
def ecckyberServer : SSL Bytes (String × Bytes) := { plainServer 0 with
    s3.tmp.newCipher := some (ntlsCipher 0x0300E01D Mkey.kECCKyber Auth.aSM2 .sm3)
    s3.tmp.kex.pms := some (List.replicate 2432 0) }

/-- A premaster secret of 48 bytes. -/
theorem ecckyber_premaster_48 :
    ∃ pms kex, tlsProcessClientKeyExchange .plain [] ecckyberServer ecckyberCke = .ok (pms, kex) ∧
      ∃ dec ss, sm2Premaster .plain ecckyberServer ecckyberCke = some dec ∧
        kyberSecret .plain ecckyberServer ecckyberCke = some ss ∧
        dec.length = sslMaxMasterKeyLength ∧ pms = dec ++ ss.1 := by
  obtain ⟨⟨pms, kex⟩, hcke, dec, hdec, hlen⟩ : ∃ p,
      tlsProcessClientKeyExchange .plain [] ecckyberServer ecckyberCke = .ok p ∧
      ∃ dec, sm2Premaster .plain ecckyberServer ecckyberCke = some dec ∧
        dec.length = sslMaxMasterKeyLength := by decide +kernel
  have hs : ecckyberServer.mkey = KexSuite.ecckyber.mkey := by decide
  refine ⟨pms, kex, hcke, (ecckyber_premaster_iff hs hcke).mpr fun dec' hdec' => ?_⟩
  have heq : dec = dec' := Option.some.inj (hdec.symm.trans hdec')
  exact heq ▸ hlen

/-- One byte in the place of the premaster secret. -/
def shortCke : Bytes := [0, 1, 7, 4, 64] ++ List.replicate 1088 0

/-- The server takes it, and what the allocation held fills the rest. -/
theorem ecckyber_accepts_short :
    (tlsProcessClientKeyExchange .plain (List.replicate 80 255) ecckyberServer shortCke).toOption.map
        Prod.fst = some ([7] ++ List.replicate 32 0 ++ List.replicate 47 255) ∧
      sm2Premaster .plain ecckyberServer shortCke = some [7] ∧
      (tlsProcessCkePms .plain ecckyberServer [0, 1, 7]).toOption.map Prod.fst = none := by
  decide +kernel

end Tlcp
