import Tlcp.Ntls.KexSigned

/-!
# Tlcp.Ntls.ChooseCipher

How a server picks the cipher of an NTLS connection, and whether it can serve
what it picked.

`tls1_set_cert_validity` looks at the eleven certificate slots,
`ssl_set_masks` turns the valid ones into masks of key exchanges and
authentications, and `ssl3_choose_cipher` takes the first cipher of one list
that passes the masks and is in the other.  The messages of the handshake then
read the slots of the suite.  `choose_serves_iff` says what the masks leave
open: three suites are offered without an encryption certificate, the RSA suites
also for the slot that only other protocol versions use, and no mask looks at
the kind of a key.
-/

namespace Tlcp

open Octets

variable {X509 Pkey : Type} {lib : Libcrypto X509 Pkey} {k : KexSuite}

/-! ## bits -/

/- More bits of `algorithm_mkey`. -/
namespace Mkey

def kDHE : Nat := 0x00000002
def kECDHE : Nat := 0x00000004
def kPSK : Nat := 0x00000008
def kSRP : Nat := 0x00000020
def kRSAPSK : Nat := 0x00000040
def kECDHEPSK : Nat := 0x00000080
def kDHEPSK : Nat := 0x00000100
def anyPSK : Nat := kPSK ||| kRSAPSK ||| kECDHEPSK ||| kDHEPSK

end Mkey

/- The flags of a certificate slot, `CERT_PKEY_*`. -/
namespace PkeyFlag

def valid : Nat := 0x1
def sign : Nat := 0x2
def eeParam : Nat := 0x40
def caParam : Nat := 0x80
def explicitSign : Nat := 0x100
def issuerName : Nat := 0x200
def certType : Nat := 0x400
def suiteb : Nat := 0x800

end PkeyFlag

/-! ## the certificate slots -/

/-- `SSL_PKEY_*` -/
inductive PkeyIdx where
  | rsa
  | rsaPssSign
  | dsaSign
  | ecc
  | ed25519
  | ed448
  | sm2
  | sm2Sign
  | sm2Enc
  | rsaSign
  | rsaEnc
  deriving DecidableEq, Repr

/-- `CERT`, with all its slots. -/
structure CertSlots (X509 Pkey : Type) where
  pkeys : PkeyIdx → CertPkey X509 Pkey := fun _ => {}
  chain : PkeyIdx → List X509 := fun _ => []
  /-- a temporary DH key is set, by a callback, or automatic -/
  dhTmp : Bool := false
  /-- `SSL_CERT_FLAGS_CHECK_TLS_STRICT` -/
  strict : Bool := false

/-- The slots that the NTLS messages read. -/
def CertSlots.ntls (cert : CertSlots X509 Pkey) : Cert X509 Pkey where
  sm2Sign := cert.pkeys .sm2Sign
  sm2Enc := cert.pkeys .sm2Enc
  rsaSign := cert.pkeys .rsaSign
  rsaEnc := cert.pkeys .rsaEnc

/-- `ssl_has_cert` -/
def CertSlots.has (cert : CertSlots X509 Pkey) (idx : PkeyIdx) : Bool :=
  (cert.pkeys idx).x509.isSome && (cert.pkeys idx).privatekey.isSome

/-! ## ciphers -/

/-- The fields of `SSL_CIPHER` that `ssl3_choose_cipher` reads.  An entry of the
table that an NTLS connection may use is one of the NTLS suites. -/
structure TableCipher where
  id : Nat
  algorithmMkey : Nat
  algorithmAuth : Nat
  algorithmEnc : Nat
  minTls : Nat
  maxTls : Nat
  ntls : minTls ≤ ntlsVersion →
    ∃ c ∈ ntlsCiphers, c.id = id ∧ c.algorithmMkey = algorithmMkey ∧ c.algorithmAuth = algorithmAuth
  deriving DecidableEq

/-- `SSL_CHACHA20POLY1305` -/
def chacha20Poly1305 : Nat := 0x00080000

/-- `SSL_SM4` and `SSL_SM4GCM` -/
def sm4Cbc : Nat := 0x04000000
def sm4Gcm : Nat := 0x02000000

/-- `TLS1_3_CK_SM4_GCM_SM3` and `TLS1_3_CK_SM4_CCM_SM3` -/
def sm4GcmSm3 : Nat := 0x030000C6
def sm4CcmSm3 : Nat := 0x030000C7

/-! ## what the choice depends on -/

/-- The settings of the connection, and what other parts of the library answer. -/
structure ChooseEnv (X509 : Type) where
  enableNtls : Bool := true
  suiteb : Bool := false
  /-- `SSL_OP_CIPHER_SERVER_PREFERENCE` -/
  serverPreference : Bool := false
  /-- `SSL_OP_PRIORITIZE_CHACHA` -/
  prioritizeChacha : Bool := false
  /-- the library is built with its variant of that option -/
  optimizeChacha : Bool := false
  enableSmTls13Strict : Bool := false
  enableGmTls13DualCert : Bool := false
  pskServerCallback : Bool := false
  /-- `srp_Mask & SSL_kSRP` -/
  srp : Bool := false
  isProbablySafari : Bool := false
  /-- `X509_chain_check_suiteb` -/
  chainCheckSuiteb : X509 → List X509 → Bool := fun _ _ => true
  /-- `tls1_check_cert_param`; the flag is `check_ee_md` -/
  checkCertParam : X509 → Bool → Bool := fun _ _ => true
  /-- the key usage allows digital signatures -/
  digitalSignature : X509 → Bool := fun _ => true
  /-- `tls1_check_ec_tmp_key` -/
  checkEcTmpKey : Nat → Bool := fun _ => true
  /-- `ssl_security` for `SSL_SECOP_CIPHER_SHARED` -/
  security : TableCipher → Bool := fun _ => true

variable {env : ChooseEnv X509} {cert : CertSlots X509 Pkey} {flags : PkeyIdx → Nat}

/-! ## the masks -/

/-- `tls1_check_chain` for a slot of the server, with the flags it had before: on
an NTLS connection no signature algorithms are checked. -/
def tls1CheckChain (env : ChooseEnv X509) (cert : CertSlots X509 Pkey) (flags : PkeyIdx → Nat)
    (idx : PkeyIdx) : Nat :=
  let invalid := flags idx &&& (PkeyFlag.explicitSign ||| PkeyFlag.sign)
  match (cert.pkeys idx).x509, (cert.pkeys idx).privatekey with
  | some x, some _ =>
    if env.suiteb ∧ env.chainCheckSuiteb x (cert.chain idx) = false then invalid
    else if env.checkCertParam x true = false then invalid
    else if cert.strict ∧ (cert.chain idx).any (fun ca => !env.checkCertParam ca false) then invalid
    else
      (if env.suiteb then PkeyFlag.suiteb else 0) ||| PkeyFlag.eeParam |||
        (if cert.strict then PkeyFlag.caParam else 0) |||
        (PkeyFlag.issuerName ||| PkeyFlag.certType) ||| PkeyFlag.valid |||
        (PkeyFlag.sign ||| PkeyFlag.explicitSign)
  | _, _ => invalid

/-- `tls1_set_cert_validity` -/
def tls1SetCertValidity (env : ChooseEnv X509) (cert : CertSlots X509 Pkey)
    (flags : PkeyIdx → Nat) : PkeyIdx → Nat :=
  tls1CheckChain env cert flags

/-- What a condition adds to a mask. -/
def bitsIf (p : Prop) [Decidable p] (bits : Nat) : Nat := if p then bits else 0

/-- `mask_k` of `ssl_set_masks` -/
def maskK (env : ChooseEnv X509) (cert : CertSlots X509 Pkey) (pvalid : PkeyIdx → Nat) : Nat :=
  let valid idx := hasBit (pvalid idx) PkeyFlag.valid
  let mask := bitsIf (valid .rsa) Mkey.kRSA ||| bitsIf (cert.dhTmp = true) Mkey.kDHE |||
    bitsIf (valid .sm2Enc) (Mkey.kSM2 ||| Mkey.kSM2DHE ||| Mkey.kECCKyber ||| Mkey.kECDHEKyber |||
      Mkey.kKyber ||| Mkey.kKyberAigisEnc) |||
    bitsIf (env.enableNtls = true) (Mkey.kECDHEKyber ||| Mkey.kKyber ||| Mkey.kKyberAigisEnc) |||
    bitsIf (valid .rsaEnc) Mkey.kRSA ||| Mkey.kECDHE ||| Mkey.kPSK
  mask ||| bitsIf (hasBit mask Mkey.kRSA) Mkey.kRSAPSK |||
    bitsIf (hasBit mask Mkey.kDHE) Mkey.kDHEPSK ||| bitsIf (hasBit mask Mkey.kECDHE) Mkey.kECDHEPSK

/-- `mask_a` of `ssl_set_masks`; the cases for TLS 1.2 alone are left out. -/
def maskA (env : ChooseEnv X509) (cert : CertSlots X509 Pkey) (pvalid : PkeyIdx → Nat) : Nat :=
  let valid idx := hasBit (pvalid idx) PkeyFlag.valid
  bitsIf (valid .rsa) Auth.aRSA ||| bitsIf (valid .dsaSign) Auth.aDSS ||| Auth.aNULL |||
    bitsIf (valid .ecc ∧ (cert.pkeys .ecc).x509.any env.digitalSignature = true ∧
      hasBit (pvalid .ecc) PkeyFlag.sign) Auth.aECDSA |||
    bitsIf (valid .sm2Sign) Auth.aSM2 ||| bitsIf (valid .rsaSign) Auth.aRSA ||| Auth.aPSK

/-! ## the choice -/

/-- The masks of a connection, with SRP if it is set up. -/
def shared (env : ChooseEnv X509) (cert : CertSlots X509 Pkey) (flags : PkeyIdx → Nat)
    (c : TableCipher) : Prop :=
  let pvalid := tls1SetCertValidity env cert flags
  hasBit c.algorithmMkey (maskK env cert pvalid ||| bitsIf (env.srp = true) Mkey.kSRP) ∧
    hasBit c.algorithmAuth (maskA env cert pvalid ||| bitsIf (env.srp = true) Auth.aSRP)

instance (c : TableCipher) : Decidable (shared env cert flags c) :=
  inferInstanceAs (Decidable (_ ∧ _))

/-- A cipher that the loop of `ssl3_choose_cipher` passes over; `skipChacha` is
set in the first round of the variant that leaves ChaCha20 to the second. -/
def passedOver (env : ChooseEnv X509) (cert : CertSlots X509 Pkey) (flags : PkeyIdx → Nat)
    (skipChacha : Bool) (c : TableCipher) : Prop :=
  (ntlsVersion < c.minTls ∨ c.maxTls < ntlsVersion) ∨
    (skipChacha = true ∧ c.algorithmEnc = chacha20Poly1305) ∨
    (env.enableSmTls13Strict = true ∧ (c.id = sm4GcmSm3 ∨ c.id = sm4CcmSm3) ∧
      cert.has .sm2 = false ∧ ¬ (env.enableGmTls13DualCert = true ∧ cert.has .sm2Sign = true)) ∨
    (hasBit c.algorithmMkey Mkey.anyPSK ∧ env.pskServerCallback = false) ∨
    ¬ shared env cert flags c ∨
    (hasBit c.algorithmMkey Mkey.kECDHE ∧ env.checkEcTmpKey c.id = false)

instance (skipChacha : Bool) (c : TableCipher) :
    Decidable (passedOver env cert flags skipChacha c) :=
  inferInstanceAs (Decidable (_ ∨ _))

/-- The loop of `ssl3_choose_cipher`; `ret` is what it falls back to. -/
def chooseLoop (env : ChooseEnv X509) (cert : CertSlots X509 Pkey) (flags : PkeyIdx → Nat)
    (skipChacha : Bool) (allow : List TableCipher) (ret : Option TableCipher) :
    List TableCipher → Option TableCipher
  | [] => ret
  | c :: prio =>
    if passedOver env cert flags skipChacha c then
      chooseLoop env cert flags skipChacha allow ret prio
    else if c ∉ allow then chooseLoop env cert flags skipChacha allow ret prio
    else if env.security c = false then chooseLoop env cert flags skipChacha allow ret prio
    else if hasBit c.algorithmMkey Mkey.kECDHE ∧ hasBit c.algorithmAuth Auth.aECDSA ∧
        env.isProbablySafari = true then
      chooseLoop env cert flags skipChacha allow (ret.or (some c)) prio
    else some c

/-- The server's list with the ChaCha20 ciphers first, if the client's first
cipher is one and the server has any. -/
def prioChacha (env : ChooseEnv X509) (clnt srvr : List TableCipher) : Option (List TableCipher) :=
  let isChacha (c : TableCipher) : Bool := c.algorithmEnc == chacha20Poly1305
  if env.prioritizeChacha ∧ clnt.head?.any isChacha ∧ srvr.any isChacha then
    some (srvr.filter isChacha ++ srvr.filter fun c => !isChacha c)
  else none

/-- `ssl3_choose_cipher` on an NTLS connection. -/
def ssl3ChooseCipher (env : ChooseEnv X509) (cert : CertSlots X509 Pkey) (flags : PkeyIdx → Nat)
    (clnt srvr : List TableCipher) : Option TableCipher :=
  let chacha := if env.suiteb = false ∧ env.serverPreference then prioChacha env clnt srvr else none
  let prio := if env.suiteb ∨ env.serverPreference then chacha.getD srvr else clnt
  let allow := if env.suiteb ∨ env.serverPreference then clnt else srvr
  let variant := env.optimizeChacha && env.prioritizeChacha && chacha.isNone
  match chooseLoop env cert flags variant allow none prio with
  | some c => some c
  | none => if variant then chooseLoop env cert flags false allow none prio else none

/-! ## what the masks let through -/

theorem hasBit_or {m a b : Nat} : hasBit m (a ||| b) ↔ hasBit m a ∨ hasBit m b := by
  simp only [hasBit, Nat.and_or_distrib_left, ne_eq, Nat.or_eq_zero_iff]
  tauto

theorem hasBit_bitsIf {p : Prop} [Decidable p] {m bits : Nat} :
    hasBit m (bitsIf p bits) ↔ p ∧ hasBit m bits := by
  by_cases hp : p
  · simp [bitsIf, hp]
  · simp [bitsIf, hp, hasBit]

/-- A slot that counts as valid holds a certificate and a key. -/
theorem valid_has {idx : PkeyIdx}
    (h : hasBit (tls1SetCertValidity env cert flags idx) PkeyFlag.valid) : cert.has idx = true := by
  have hinvalid : ¬ hasBit (flags idx &&& (PkeyFlag.explicitSign ||| PkeyFlag.sign))
      PkeyFlag.valid := by
    simp only [hasBit, Nat.and_assoc, ne_eq, not_not]
    exact Nat.and_zero _
  simp only [tls1SetCertValidity, tls1CheckChain] at h
  split at h
  · next x key hx hkey => simp [CertSlots.has, hx, hkey]
  · exact absurd h hinvalid

/-- The key exchanges that pass the mask: three suites do without a certificate
as soon as NTLS is enabled. -/
theorem maskK_suite {pvalid : PkeyIdx → Nat} {srp : Prop} [Decidable srp] :
    hasBit k.mkey (maskK env cert pvalid ||| bitsIf srp Mkey.kSRP) ↔ match k with
      | .sm2 | .sm2dhe | .ecckyber => hasBit (pvalid .sm2Enc) PkeyFlag.valid
      | .rsa => hasBit (pvalid .rsa) PkeyFlag.valid ∨ hasBit (pvalid .rsaEnc) PkeyFlag.valid
      | .ecdhekyber | .kyber | .kyberAigisEnc =>
        hasBit (pvalid .sm2Enc) PkeyFlag.valid ∨ env.enableNtls = true := by
  simp only [maskK, hasBit_or, hasBit_bitsIf]
  cases k <;> simp +decide

/-- SM2 and Dilithium pass with the SM2 signing slot. -/
theorem maskA_sm2 {pvalid : PkeyIdx → Nat} {srp : Prop} [Decidable srp] :
    hasBit Auth.aSM2 (maskA env cert pvalid ||| bitsIf srp Auth.aSRP) ↔
      hasBit (pvalid .sm2Sign) PkeyFlag.valid := by
  simp only [maskA, hasBit_or, hasBit_bitsIf]
  simp +decide

/-- What the loop returns is the fallback, or a cipher of both lists that it did
not pass over. -/
theorem chooseLoop_eq_some {skipChacha : Bool} {allow prio : List TableCipher}
    {ret : Option TableCipher} {c : TableCipher}
    (h : chooseLoop env cert flags skipChacha allow ret prio = some c) :
    ret = some c ∨ (c ∈ prio ∧ c ∈ allow ∧ ¬ passedOver env cert flags skipChacha c) := by
  induction prio generalizing ret with
  | nil => exact .inl h
  | cons d prio ih =>
    have hrest : ∀ {ret : Option TableCipher},
        chooseLoop env cert flags skipChacha allow ret prio = some c → ret = some c ∨
          (c ∈ d :: prio ∧ c ∈ allow ∧ ¬ passedOver env cert flags skipChacha c) := by
      intro ret h
      exact (ih h).imp_right fun hc => ⟨List.mem_cons_of_mem _ hc.1, hc.2⟩
    unfold chooseLoop at h
    split at h
    · exact hrest h
    · next hpass =>
      split at h
      · exact hrest h
      · next hallow =>
        have hd : d ∈ d :: prio ∧ d ∈ allow ∧ ¬ passedOver env cert flags skipChacha d :=
          ⟨List.mem_cons_self, not_not.mp hallow, hpass⟩
        split at h
        · exact hrest h
        · split at h
          · cases hrest h with
            | inr hc => exact .inr hc
            | inl hret =>
              cases ret with
              | some _ => exact .inl hret
              | none =>
                injection hret with hret
                exact .inr (hret ▸ hd)
          · injection h with h
            exact .inr (h ▸ hd)

/-- A chosen cipher is an NTLS suite that passes the masks. -/
theorem ssl3ChooseCipher_eq_some {clnt srvr : List TableCipher} {c : TableCipher}
    (h : ssl3ChooseCipher env cert flags clnt srvr = some c) :
    (∃ ci ∈ ntlsCiphers, ci.id = c.id ∧ ci.algorithmMkey = c.algorithmMkey ∧
      ci.algorithmAuth = c.algorithmAuth) ∧ shared env cert flags c := by
  have hloop : ∃ skipChacha, ¬ passedOver env cert flags skipChacha c := by
    simp only [ssl3ChooseCipher] at h
    split at h
    · next d hd =>
      injection h with h
      subst h
      exact ⟨_, ((chooseLoop_eq_some hd).resolve_left (by simp)).2.2⟩
    · rw [Option.ite_none_right_eq_some] at h
      exact ⟨_, ((chooseLoop_eq_some h.2).resolve_left (by simp)).2.2⟩
  obtain ⟨skipChacha, hpass⟩ := hloop
  simp only [passedOver, not_or, not_lt, not_not] at hpass
  exact ⟨c.ntls hpass.1.1, hpass.2.2.2.2.1⟩

/-! ## what a suite needs -/

variable (lib)

/-- The kind of key that signs for a suite. -/
def KexSuite.signKind (key : Pkey) : KexSuite → Prop
  | .rsa => lib.isA key "RSA" = true
  | k => k.signsWith lib key

/-- The kind of key that a suite decrypts or decapsulates with. -/
def KexSuite.encKind (key : Pkey) : KexSuite → Prop
  | .sm2 | .ecckyber | .ecdhekyber => lib.isA key "SM2" = true
  | .rsa => lib.isA key "RSA" = true
  | .kyber | .kyberAigisEnc => lib.isA key "ML-KEM-512-SPKI" = true ∨
      lib.isA key "id-ML-KEM-512-SPKI" = true ∨ lib.typeNameHas key "ML-KEM" = true
  | .sm2dhe => True

/-- The server has what the messages of the suite read: the key that signs the
ServerKeyExchange, the two certificates of its Certificate, and the key for the
ServerKeyExchange and the ClientKeyExchange; `kSM2DHE` alone does without the
last. -/
structure CanServe (k : KexSuite) (s : SSL X509 Pkey) : Prop where
  signKey : ∃ key, skeSignKey s = some key ∧ k.signKind lib key
  signCert : (k.sigalg.slots s.cert).1.x509.isSome = true
  encCert : (k.sigalg.slots s.cert).2.x509.isSome = true
  encKey : k ≠ .sm2dhe → ∃ key, k.encKey s = some key ∧ k.encKind lib key

/-- The slots of a suite. -/
def KexSuite.signSlot : KexSuite → PkeyIdx
  | .rsa => .rsaSign
  | _ => .sm2Sign

def KexSuite.encSlot : KexSuite → PkeyIdx
  | .rsa => .rsaEnc
  | _ => .sm2Enc

/-- What has to be there besides what the masks ask for. -/
structure Provided (k : KexSuite) (cert : CertSlots X509 Pkey) :
    Prop where
  /-- both slots of NTLS, and not just the one of other versions -/
  rsa : k = .rsa → cert.has .rsaSign = true ∧ cert.has .rsaEnc = true
  /-- the encryption slot in the suites that are offered without it -/
  enc : k = .ecdhekyber ∨ k = .kyber ∨ k = .kyberAigisEnc → cert.has .sm2Enc = true
  signKind : ∀ key, (cert.pkeys k.signSlot).privatekey = some key → k.signKind lib key
  encKind : ∀ key, (cert.pkeys k.encSlot).privatekey = some key → k.encKind lib key

variable {lib}

variable {s : SSL X509 Pkey}

theorem skeSignKey_slot (hcert : s.cert = cert.ntls) (hk : s.mkey = k.mkey) :
    skeSignKey s = (cert.pkeys k.signSlot).privatekey := by
  rw [skeSignKey_suite hk, hcert]
  cases k <;> rfl

theorem encKey_slot (hcert : s.cert = cert.ntls) :
    k.encKey s = (cert.pkeys k.encSlot).privatekey := by
  simp only [KexSuite.encKey, hcert]
  cases k <;> rfl

theorem sigalg_slots (hcert : s.cert = cert.ntls) :
    k.sigalg.slots s.cert = (cert.pkeys k.signSlot, cert.pkeys k.encSlot) := by
  rw [hcert]
  cases k <;> rfl

theorem has_iff {idx : PkeyIdx} : cert.has idx = true ↔
    (cert.pkeys idx).x509.isSome = true ∧ ∃ key, (cert.pkeys idx).privatekey = some key := by
  simp [CertSlots.has, Option.isSome_iff_exists]

/-- With the slots that the masks ask for, a suite can be served if the rest is
there. -/
theorem canServe_iff (hcert : s.cert = cert.ntls) (hk : s.mkey = k.mkey)
    (hsign : k ≠ .rsa → cert.has .sm2Sign = true)
    (henc : k = .sm2 ∨ k = .sm2dhe ∨ k = .ecckyber → cert.has .sm2Enc = true) :
    CanServe lib k s ↔ Provided lib k cert := by
  have hslots := sigalg_slots (k := k) hcert
  have hsignKey := skeSignKey_slot hcert hk
  have hencKey := encKey_slot (k := k) hcert
  constructor
  · intro ⟨⟨key, hkey, hkind⟩, hsignCert, hencCert, hdec⟩
    rw [hsignKey] at hkey
    rw [hslots] at hsignCert hencCert
    have hhas : k ≠ .sm2dhe → cert.has k.encSlot = true := by
      intro hne
      obtain ⟨ekey, hekey, _⟩ := hdec hne
      exact has_iff.mpr ⟨hencCert, ekey, hencKey ▸ hekey⟩
    constructor
    · intro hrsa
      subst hrsa
      exact ⟨has_iff.mpr ⟨hsignCert, key, hkey⟩, hhas (by simp)⟩
    · intro hsuite
      rcases hsuite with hsuite | hsuite | hsuite
      all_goals
        subst hsuite
        exact hhas (by simp)
    · intro key' hkey'
      rw [hkey] at hkey'
      injection hkey' with hkey'
      exact hkey' ▸ hkind
    · intro ekey hekey
      by_cases hne : k = .sm2dhe
      · subst hne
        trivial
      · obtain ⟨ekey', hekey', hekind⟩ := hdec hne
        rw [hencKey, hekey] at hekey'
        injection hekey' with hekey'
        exact hekey' ▸ hekind
  · intro hp
    have hhasSign : cert.has k.signSlot = true := by
      cases k with
      | rsa => exact (hp.rsa rfl).1
      | sm2 | sm2dhe | ecckyber | ecdhekyber | kyber | kyberAigisEnc => exact hsign (by simp)
    have hhasEnc : cert.has k.encSlot = true := by
      cases k with
      | rsa => exact (hp.rsa rfl).2
      | sm2 | sm2dhe | ecckyber => exact henc (by simp)
      | ecdhekyber | kyber | kyberAigisEnc => exact hp.enc (by simp)
    obtain ⟨hsignCert, key, hkey⟩ := has_iff.mp hhasSign
    obtain ⟨hencCert, ekey, hekey⟩ := has_iff.mp hhasEnc
    exact ⟨⟨key, hsignKey.trans hkey, hp.signKind key hkey⟩, by rw [hslots]; exact hsignCert,
      by rw [hslots]; exact hencCert, fun _ => ⟨ekey, hencKey.trans hekey, hp.encKind ekey hekey⟩⟩

/-- **A chosen suite can be served.**  For every configuration of the slots and
every pair of cipher lists, the server has what the messages of the suite it
chose read exactly if it has what the masks do not ask for. -/
theorem choose_serves_iff (lib : Libcrypto X509 Pkey) {clnt srvr : List TableCipher} {c : TableCipher}
    (h : ssl3ChooseCipher env cert flags clnt srvr = some c) (hcert : s.cert = cert.ntls)
    (hc : s.mkey = c.algorithmMkey) :
    ∃ k : KexSuite, c.algorithmMkey = k.mkey ∧ (CanServe lib k s ↔ Provided lib k cert) := by
  obtain ⟨⟨ci, hci, _, hmkey, hauth⟩, hshared⟩ := ssl3ChooseCipher_eq_some h
  obtain ⟨k, hk⟩ := NtlsCipher.exists_suite ⟨ci, hci⟩
  have hck : c.algorithmMkey = k.mkey := hmkey.symm.trans hk
  refine ⟨k, hck, canServe_iff hcert (hc.trans hck) ?_ ?_⟩
  · intro hne
    have hsm2 : ∀ ci ∈ ntlsCiphers, ci.algorithmMkey ≠ Mkey.kRSA → ci.algorithmAuth = Auth.aSM2 := by
      decide
    have hrsa : ci.algorithmMkey ≠ Mkey.kRSA := by
      rw [hk]
      cases k with
      | rsa => exact absurd rfl hne
      | sm2 | sm2dhe | ecckyber | ecdhekyber | kyber | kyberAigisEnc => decide
    have hmask := hshared.2
    rw [← hauth, hsm2 ci hci hrsa] at hmask
    exact valid_has (maskA_sm2.mp hmask)
  · intro hsuite
    have hmask := hshared.1
    rw [hck, maskK_suite] at hmask
    rcases hsuite with hsuite | hsuite | hsuite
    all_goals
      subst hsuite
      exact valid_has hmask

/-! ## configurations -/

/-- An NTLS suite in the table. -/
def NtlsCipher.table (c : NtlsCipher) (enc : Nat) : TableCipher where
  id := c.1.id
  algorithmMkey := c.1.algorithmMkey
  algorithmAuth := c.1.algorithmAuth
  algorithmEnc := enc
  minTls := c.1.minTls
  maxTls := c.1.maxTls
  ntls _ := ⟨c.1, c.2, rfl, rfl, rfl⟩

/-- The suite of code `0xE063`. -/
def kyberDilithium : TableCipher :=
  NtlsCipher.table ⟨ntlsCipher 0x0300E063 Mkey.kKyber Auth.aDilithium .sm3, by decide⟩ sm4Gcm

/-- The suite of code `0xE019`. -/
def rsaSm4 : TableCipher :=
  NtlsCipher.table ⟨ntlsCipher 0x0300E019 Mkey.kRSA Auth.aRSA .sm3, by decide⟩ sm4Cbc

/-- A server with the given keys in the SM2 slots, and a plain RSA certificate. -/
def slotsWith (sign enc : Option (String × Bytes)) : CertSlots Bytes (String × Bytes) where
  pkeys
    | .sm2Sign => ⟨sign.map fun _ => [2, 1], sign⟩
    | .sm2Enc => ⟨enc.map fun _ => [3, 2], enc⟩
    | .rsa => ⟨some [1, 4], some ("RSA", [4])⟩
    | _ => {}

/-- The object of the server once a suite is chosen. -/
def chosenServer (cert : CertSlots Bytes (String × Bytes)) (c : SslCipher) :
    SSL Bytes (String × Bytes) :=
  { cert := cert.ntls, s3 := { tmp := { newCipher := some c } } }

theorem choose_serves_kyber :
    ssl3ChooseCipher {} (slotsWith (some ("ML-DSA-65", [1])) (some ("ML-KEM-768", [2]))) (fun _ => 0)
        [kyberDilithium] [rsaSm4, kyberDilithium] = some kyberDilithium ∧
      CanServe .plain .kyber (chosenServer
        (slotsWith (some ("ML-DSA-65", [1])) (some ("ML-KEM-768", [2])))
        (ntlsCipher 0x0300E063 Mkey.kKyber Auth.aDilithium .sm3)) := by
  have hchosen : ssl3ChooseCipher {} (slotsWith (some ("ML-DSA-65", [1]))
      (some ("ML-KEM-768", [2]))) (fun _ => 0) [kyberDilithium] [rsaSm4, kyberDilithium] =
        some kyberDilithium := by decide +kernel
  refine ⟨hchosen, ?_⟩
  obtain ⟨k, hk, hiff⟩ := choose_serves_iff .plain (s := chosenServer
    (slotsWith (some ("ML-DSA-65", [1])) (some ("ML-KEM-768", [2])))
    (ntlsCipher 0x0300E063 Mkey.kKyber Auth.aDilithium .sm3)) hchosen rfl rfl
  have hsuite : k = .kyber := by
    cases k <;> first | rfl | exact absurd hk (by decide)
  subst hsuite
  refine hiff.mpr ⟨by simp, fun _ => rfl, ?_, ?_⟩
  · intro key hkey
    injection hkey with hkey
    subst hkey
    exact .inr (by decide)
  · intro key hkey
    injection hkey with hkey
    subst hkey
    exact .inr (.inr (by decide))

/-- Suites that are chosen and cannot be served: without an encryption
certificate, with the RSA slot of other protocol versions only, and with SM2
keys where ML-DSA and ML-KEM are needed. -/
theorem choose_not_served :
    (ssl3ChooseCipher {} (slotsWith (some ("ML-DSA-65", [1])) none) (fun _ => 0)
        [kyberDilithium] [kyberDilithium] = some kyberDilithium ∧
      ¬ CanServe .plain .kyber (chosenServer (slotsWith (some ("ML-DSA-65", [1])) none)
        (ntlsCipher 0x0300E063 Mkey.kKyber Auth.aDilithium .sm3))) ∧
    (ssl3ChooseCipher {} (slotsWith none none) (fun _ => 0) [rsaSm4] [rsaSm4] = some rsaSm4 ∧
      ¬ CanServe .plain .rsa (chosenServer (slotsWith none none)
        (ntlsCipher 0x0300E019 Mkey.kRSA Auth.aRSA .sm3))) ∧
    ssl3ChooseCipher {} (slotsWith (some ("SM2", [1])) (some ("SM2", [2]))) (fun _ => 0)
        [kyberDilithium] [kyberDilithium] = some kyberDilithium ∧
      ¬ CanServe .plain .kyber (chosenServer (slotsWith (some ("SM2", [1])) (some ("SM2", [2])))
        (ntlsCipher 0x0300E063 Mkey.kKyber Auth.aDilithium .sm3)) := by
  refine ⟨⟨by decide +kernel, ?_⟩, ⟨by decide +kernel, ?_⟩, by decide +kernel, ?_⟩
  · intro h
    exact absurd h.encCert (by decide)
  · intro h
    exact absurd h.signCert (by decide)
  · intro h
    obtain ⟨key, hkey, hkind⟩ := h.signKey
    injection hkey with hkey
    subst hkey
    exact keyKinds_plain.sm2 _ rfl hkind

end Tlcp
