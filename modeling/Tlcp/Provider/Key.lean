import Tlcp.Lib.Buffer

/-!
# Tlcp.Provider.Key

The key objects of the two providers, `pqmagic_prov.c` and `aigis_enc_prov.c`,
and the import of their halves from a parameter list.

A key object holds both halves in buffers of a fixed size, beside the lengths
that are in use; a length of 0 says that the half is absent.  Both imports copy
a half into its buffer first and look at its length afterwards, and they take
the public half before the secret one.

The two imports differ in the lengths that they know and in the
identifier, which only the pqmagic object has; `kmImport` is both.

* `kmImport_cases` lists how an import can go;
* `failed_import_keeps_iff` says when one that fails leaves its object alone.

An `OSSL_PARAM` whose data pointer is `NULL` has `data := none`; `data_size` is
the number of bytes otherwise.  Object identifiers are kept as their arcs, which
determine the dotted text that `oid_text` holds and are determined by it; the
empty text is the empty list.
-/

namespace Tlcp.Provider

open Octets

/-! ## parameters -/

/-- `OSSL_PARAM_OCTET_STRING` -/
def octetString : ℕ := 5

/-- `OSSL_PKEY_PARAM_ENCODED_PUBLIC_KEY` -/
def encodedPublicKey : String := "encoded-pub-key"

/-- `OSSL_PKEY_PARAM_PRIV_KEY` -/
def privKey : String := "priv"

/-- `OSSL_PARAM` -/
structure OsslParam where
  key : String
  dataType : ℕ
  data : Option Bytes
deriving DecidableEq

/-- `OSSL_PARAM_locate_const` -/
def osslParamLocate (params : List OsslParam) (key : String) : Option OsslParam :=
  params.find? fun p => p.key == key

/-- `OSSL_PARAM_get_octet_string` into a buffer of `maxLen` bytes: the bytes that
it copies to the front of the buffer.  A call that fails copies nothing. -/
def osslParamGetOctetString (p : OsslParam) (maxLen : ℕ) : Option Bytes :=
  if p.dataType = octetString then p.data.filter fun d => d.length ≤ maxLen else none

theorem length_le_of_get {p : OsslParam} {maxLen : ℕ} {d : Bytes}
    (h : osslParamGetOctetString p maxLen = some d) : d.length ≤ maxLen := by
  unfold osslParamGetOctetString at h
  split at h
  · simpa using (Option.filter_eq_some_iff.mp h).2
  · contradiction

theorem osslParamGetOctetString_octets {key : String} {maxLen : ℕ} {d : Bytes}
    (h : d.length ≤ maxLen) : osslParamGetOctetString ⟨key, octetString, some d⟩ maxLen = some d := by
  simp [osslParamGetOctetString, h, Option.filter]

/-! ## the import of the two halves -/

/-- What the two imports differ in: the sizes of the buffers, the lengths that a
half may have, and the identifier that each of these lengths stands for. -/
structure Format where
  pkMax : ℕ
  skMax : ℕ
  Ident : Type
  ofPkLen : ℕ → Option Ident
  ofSkLen : ℕ → Option Ident

/-- A key object: `struct pqmagic_raw_key`, `struct aigis_key`. -/
@[ext] structure KeyObject (F : Format) where
  pk : Buf F.pkMax
  pkLen : ℕ
  sk : Buf F.skMax
  skLen : ℕ
  oidText : F.Ident

/-- How the part of an import that is about one half ends. -/
inductive Outcome where
  | absent
  | refused
  | taken
deriving DecidableEq

/-- What an import copies of the half `name` into a buffer of `n` bytes. -/
def copied (n : ℕ) (name : String) (params : List OsslParam) : Option Bytes :=
  (osslParamLocate params name).bind (osslParamGetOctetString · n)

section half

variable {ι K : Type} (params : List OsslParam) (name : String) (n : ℕ) (ofLen : ℕ → Option ι)
  (wrote : Bytes → K) (took : Bytes → ι → K) (k : K)

/-- The part of an import about the half `name`, whose buffer has `n` bytes.  The
half is in the buffer, `wrote`, before its length is looked at. -/
def importHalf : Outcome × K := match osslParamLocate params name with
  | none => (.absent, k)
  | some p =>
    match osslParamGetOctetString p n with
    | none => (.refused, k)
    | some d =>
      match ofLen d.length with
      | none => (.refused, wrote d)
      | some oid => (.taken, took d oid)

/-- Every way a half can go. -/
inductive HalfStep : Outcome → K → Prop where
  | absent (h : osslParamLocate params name = none) : HalfStep .absent k
  | unread (h : (osslParamLocate params name).isSome) (hc : copied n name params = none) :
      HalfStep .refused k
  | refused {d : Bytes} (hc : copied n name params = some d) (hlen : ofLen d.length = none) :
      HalfStep .refused (wrote d)
  | taken {d : Bytes} {oid : ι} (hc : copied n name params = some d)
      (hlen : ofLen d.length = some oid) : HalfStep .taken (took d oid)

theorem importHalf_step :
    HalfStep params name n ofLen wrote took k (importHalf params name n ofLen wrote took k).1
      (importHalf params name n ofLen wrote took k).2 := by
  unfold importHalf
  split
  · next h => exact .absent h
  · next p h =>
    split
    · next hget => exact .unread (by simp [h]) (by simp [copied, h, hget])
    · next d hget =>
      have hc : copied n name params = some d := by simp [copied, h, hget]
      split
      · next hlen => exact .refused hc hlen
      · next hlen => exact .taken hc hlen

end half

section halves

variable {F : Format}

/-- The part of an import about the public half. -/
def importPk (params : List OsslParam) (k : KeyObject F) : Outcome × KeyObject F :=
  importHalf params encodedPublicKey F.pkMax F.ofPkLen (fun d => { k with pk := k.pk.write 0 d })
    (fun d oid => { k with pk := k.pk.write 0 d, oidText := oid, pkLen := d.length }) k

/-- The part of an import about the secret half. -/
def importSk (params : List OsslParam) (k : KeyObject F) : Outcome × KeyObject F :=
  importHalf params privKey F.skMax F.ofSkLen (fun d => { k with sk := k.sk.write 0 d })
    (fun d oid => { k with sk := k.sk.write 0 d, oidText := oid, skLen := d.length }) k

/-- An import: what it returns and the object it leaves.  The selection is not
looked at. -/
def kmImport (k : KeyObject F) (_selection : ℕ) (params : List OsslParam) : Bool × KeyObject F :=
  match importPk params k with
  | (.refused, k) => (false, k)
  | (pub, k) =>
    match importSk params k with
    | (.refused, k) => (false, k)
    | (priv, k) => (pub = .taken ∨ priv = .taken, k)

abbrev PkStep (params : List OsslParam) (k : KeyObject F) : Outcome → KeyObject F → Prop :=
  HalfStep params encodedPublicKey F.pkMax F.ofPkLen (fun d => { k with pk := k.pk.write 0 d })
    (fun d oid => { k with pk := k.pk.write 0 d, oidText := oid, pkLen := d.length }) k

abbrev SkStep (params : List OsslParam) (k : KeyObject F) : Outcome → KeyObject F → Prop :=
  HalfStep params privKey F.skMax F.ofSkLen (fun d => { k with sk := k.sk.write 0 d })
    (fun d oid => { k with sk := k.sk.write 0 d, oidText := oid, skLen := d.length }) k

/-- **How an import goes**: the public half ends it, or the secret half does, or
both halves pass. -/
theorem kmImport_cases (k : KeyObject F) (selection : ℕ) (params : List OsslParam) :
    (∃ k₁, PkStep params k .refused k₁ ∧ kmImport k selection params = (false, k₁)) ∨
    (∃ pub k₁ k₂, pub ≠ .refused ∧ PkStep params k pub k₁ ∧ SkStep params k₁ .refused k₂ ∧
      kmImport k selection params = (false, k₂)) ∨
    (∃ pub priv k₁ k₂, pub ≠ .refused ∧ PkStep params k pub k₁ ∧ priv ≠ .refused ∧
      SkStep params k₁ priv k₂ ∧
      kmImport k selection params = (decide (pub = .taken ∨ priv = .taken), k₂)) := by
  have hpk : PkStep params k (importPk params k).1 (importPk params k).2 := importHalf_step ..
  unfold kmImport
  generalize importPk params k = r at hpk
  obtain ⟨pub, k₁⟩ := r
  by_cases hpub : pub = .refused
  · subst hpub
    exact .inl ⟨k₁, hpk, rfl⟩
  · have hsk : SkStep params k₁ (importSk params k₁).1 (importSk params k₁).2 := importHalf_step ..
    generalize hr : importSk params k₁ = r at hsk
    obtain ⟨priv, k₂⟩ := r
    refine .inr ?_
    by_cases hpriv : priv = .refused
    · subst hpriv
      refine .inl ⟨pub, k₁, k₂, hpub, hpk, hsk, ?_⟩
      cases pub <;> simp [hr] at hpub ⊢
    · refine .inr ⟨pub, priv, k₁, k₂, hpub, hpk, hpriv, hsk, ?_⟩
      cases pub <;> cases priv <;> simp [hr] at hpub hpriv ⊢

/-- The public half is there and is not taken. -/
def PkRefused (F : Format) (params : List OsslParam) : Prop :=
  (osslParamLocate params encodedPublicKey).isSome ∧
    ∀ d ∈ copied F.pkMax encodedPublicKey params, F.ofPkLen d.length = none

/-- Whatever an import copies before it fails is in the object already: the
bytes of the public half, with its length and identifier if they are accepted,
and the bytes of the secret half, if the public one is not refused. -/
structure HoldsCopies (params : List OsslParam) (k : KeyObject F) : Prop where
  pk : ∀ d ∈ copied F.pkMax encodedPublicKey params, k.pk.slice 0 d.length = d ∧
    ∀ oid ∈ F.ofPkLen d.length, k.oidText = oid ∧ k.pkLen = d.length
  sk : ¬PkRefused F params → ∀ d ∈ copied F.skMax privKey params, k.sk.slice 0 d.length = d

theorem copied_le {n : ℕ} {name : String} {params : List OsslParam} {d : Bytes}
    (h : copied n name params = some d) : 0 + d.length ≤ n := by
  obtain ⟨p, -, hp⟩ := Option.bind_eq_some_iff.mp h
  rw [Nat.zero_add]
  exact length_le_of_get hp

variable {params : List OsslParam} {k k₁ k₂ : KeyObject F} {o : Outcome}

theorem PkStep.refused_iff (h : PkStep params k o k₁) : o = .refused ↔ PkRefused F params := by
  cases h with
  | absent h => simp [PkRefused, h]
  | unread h hc => simp [PkRefused, h, hc]
  | refused hc hlen =>
    obtain ⟨p, hp, -⟩ := Option.bind_eq_some_iff.mp hc
    simp [PkRefused, hc, hlen, hp]
  | taken hc hlen => simp [PkRefused, hc, hlen]

/-- The public half leaves the object alone exactly if what it writes is there. -/
theorem PkStep.keeps_iff (h : PkStep params k o k₁) :
    k₁ = k ↔ ∀ d ∈ copied F.pkMax encodedPublicKey params, k.pk.slice 0 d.length = d ∧
      ∀ oid ∈ F.ofPkLen d.length, k.oidText = oid ∧ k.pkLen = d.length := by
  cases h with
  | absent h => simp [copied, h]
  | unread h hc => simp [hc]
  | refused hc hlen =>
    simp [KeyObject.ext_iff, hc, hlen, Buf.write_eq_self_iff (copied_le hc)]
  | taken hc hlen =>
    simp [KeyObject.ext_iff, hc, hlen, Buf.write_eq_self_iff (copied_le hc)]
    tauto

/-- A secret half that is refused writes to its buffer only. -/
theorem SkStep.refused_sk (h : SkStep params k .refused k₂) : ∃ sk, k₂ = { k with sk } ∧
      (sk = k.sk ↔ ∀ d ∈ copied F.skMax privKey params, k.sk.slice 0 d.length = d) := by
  cases h with
  | unread h hc => exact ⟨k.sk, rfl, by simp [hc]⟩
  | refused hc hlen =>
    exact ⟨_, rfl, by simp [hc, Buf.write_eq_self_iff (copied_le hc)]⟩

theorem PkStep.sk_eq (h : PkStep params k o k₁) : k₁.sk = k.sk := by
  cases h <;> rfl

/-- **An import that fails** leaves the object alone exactly if what it copies is
there already. -/
theorem kmImport_keeps_iff {selection : ℕ} (hfail : (kmImport k selection params).1 = false) :
    (kmImport k selection params).2 = k ↔ HoldsCopies params k := by
  obtain ⟨k₁, hpk, h⟩ | ⟨pub, k₁, k₂, hpub, hpk, hsk, h⟩ | ⟨pub, priv, k₁, k₂, hpub, hpk, hpriv, hsk, h⟩ :=
    kmImport_cases k selection params
  · rw [h, hpk.keeps_iff]
    exact ⟨fun hpk' => ⟨hpk', fun hno => absurd (hpk.refused_iff.mp rfl) hno⟩, fun hc => hc.pk⟩
  · obtain ⟨sk, rfl, hsk'⟩ := hsk.refused_sk
    rw [hpk.sk_eq] at hsk'
    have hno := mt hpk.refused_iff.mpr hpub
    rw [h]
    constructor
    · intro heq
      have hk₁ : k₁ = k := by
        simp only [KeyObject.ext_iff] at heq ⊢
        exact ⟨heq.1, heq.2.1, hpk.sk_eq, heq.2.2.2⟩
      exact ⟨hpk.keeps_iff.mp hk₁, fun _ => hsk'.mp (congrArg KeyObject.sk heq)⟩
    · intro hc
      have hk₁ := hpk.keeps_iff.mpr hc.pk
      rw [hsk'.mpr (hc.sk hno), hk₁]
  · rw [h] at hfail
    -- no half was taken, so neither is there
    cases hpk with
    | absent hp =>
      cases hsk with
      | absent hs =>
        rw [h]
        refine iff_of_true rfl ⟨?_, fun _ => ?_⟩
        · simp [copied, hp]
        · simp [copied, hs]
      | unread => exact absurd rfl hpriv
      | refused => exact absurd rfl hpriv
      | taken => simp at hfail
    | unread => exact absurd rfl hpub
    | refused => exact absurd rfl hpub
    | taken => simp at hfail

/-- The parameters of an import of one half. -/
def oneHalf (name : String) (d : Bytes) : List OsslParam := [⟨name, octetString, some d⟩]

theorem kmImport_pk {d : Bytes} {oid : F.Ident} (hle : d.length ≤ F.pkMax)
    (hlen : F.ofPkLen d.length = some oid) (k : KeyObject F) (selection : ℕ) :
    kmImport k selection (oneHalf encodedPublicKey d) =
      (true, { k with pk := k.pk.write 0 d, oidText := oid, pkLen := d.length }) := by
  have hne : (encodedPublicKey == privKey) = false := by decide
  simp [kmImport, importPk, importSk, importHalf, oneHalf, osslParamLocate, hne, hlen,
    osslParamGetOctetString_octets hle]

theorem kmImport_sk {d : Bytes} {oid : F.Ident} (hle : d.length ≤ F.skMax)
    (hlen : F.ofSkLen d.length = some oid) (k : KeyObject F) (selection : ℕ) :
    kmImport k selection (oneHalf privKey d) =
      (true, { k with sk := k.sk.write 0 d, oidText := oid, skLen := d.length }) := by
  have hne : (privKey == encodedPublicKey) = false := by decide
  simp [kmImport, importPk, importSk, importHalf, oneHalf, osslParamLocate, hne, hlen,
    osslParamGetOctetString_octets hle]

end halves

/-! ## the two providers -/

/-- The algorithms of the pqmagic provider. -/
inductive Alg where
  | mldsa44
  | mlkem512
deriving DecidableEq, Repr

namespace Alg

/-- `OID_MLDSA44_SPKI`, `OID_MLKEM512_SPKI` -/
def oid : Alg → List ℕ
  | mldsa44 => [1, 2, 156, 10197, 1, 304, 1]
  | mlkem512 => [1, 2, 156, 10197, 1, 303, 1]

/-- `MLDSA44_PK_LEN`, `MLKEM512_PK_LEN` -/
def pkLen : Alg → ℕ
  | mldsa44 => 1312
  | mlkem512 => 800

/-- `MLDSA44_SK_LEN`, `ML_KEM_512_SECRETKEYBYTES` -/
def skLen : Alg → ℕ
  | mldsa44 => 2560
  | mlkem512 => 1632

end Alg

/-- The lengths that `pqmagic_km_import` knows. -/
abbrev pqmagic : Format where
  pkMax := 1312
  skMax := 2560
  Ident := List ℕ
  ofPkLen n := if n = Alg.mldsa44.pkLen then some Alg.mldsa44.oid
    else if n = Alg.mlkem512.pkLen then some Alg.mlkem512.oid
    else none
  ofSkLen n := if n = Alg.mldsa44.skLen then some Alg.mldsa44.oid
    else if n = Alg.mlkem512.skLen then some Alg.mlkem512.oid
    else none

/-- `struct pqmagic_raw_key` -/
abbrev RawKey := KeyObject pqmagic

/-- `pqmagic_km_new` -/
def pqmagicKmNew : RawKey where
  pk := .zero 1312
  pkLen := 0
  sk := .zero 2560
  skLen := 0
  oidText := ([] : List ℕ)

/-- `pqmagic_km_import` -/
def pqmagicKmImport (k : RawKey) (selection : ℕ) (params : List OsslParam) : Bool × RawKey :=
  kmImport k selection params

/-- The lengths that `aigis_km_import` knows: `AIGIS_PK_LEN` and `AIGIS_SK_LEN`.
The object has no identifier. -/
def aigis : Format where
  pkMax := 896
  skMax := 2208
  Ident := Unit
  ofPkLen n := if n = 896 then some () else none
  ofSkLen n := if n = 2208 then some () else none

/-- `struct aigis_key` -/
abbrev AigisKey := KeyObject aigis

/-- `aigis_km_new` -/
def aigisKmNew : AigisKey where
  pk := .zero 896
  pkLen := 0
  sk := .zero 2208
  skLen := 0
  oidText := ()

/-- `aigis_km_import` -/
def aigisKmImport (k : AigisKey) (selection : ℕ) (params : List OsslParam) : Bool × AigisKey :=
  kmImport k selection params

/-- `OSSL_KEYMGMT_SELECT_PRIVATE_KEY` -/
def selectPrivateKey : ℕ := 0x01

/-- `OSSL_KEYMGMT_SELECT_PUBLIC_KEY` -/
def selectPublicKey : ℕ := 0x02

/-- `OSSL_KEYMGMT_SELECT_DOMAIN_PARAMETERS` -/
def selectDomainParameters : ℕ := 0x04

/-- `OSSL_KEYMGMT_SELECT_OTHER_PARAMETERS` -/
def selectOtherParameters : ℕ := 0x80

/-- The selection includes the bit. -/
abbrev Selects (selection bit : ℕ) : Prop := selection &&& bit ≠ 0

/-- `pqmagic_km_has` -/
def pqmagicKmHas (k : Option RawKey) (selection : ℕ) : Bool := match k with
  | none => false
  | some k =>
    if k.pkLen = 0 ∧ k.skLen = 0 then false
    else if Selects selection selectDomainParameters ∨ Selects selection selectOtherParameters then
      true
    else if Selects selection selectPublicKey then
      k.pkLen = Alg.mldsa44.pkLen ∨ k.pkLen = Alg.mlkem512.pkLen
    else if Selects selection selectPrivateKey then
      if k.oidText = Alg.mldsa44.oid then k.skLen = Alg.mldsa44.skLen
      else if k.oidText = Alg.mlkem512.oid then k.skLen = Alg.mlkem512.skLen
      else false
    else true

theorem Alg.ofLen_eq_some {len : Alg → ℕ} {n : ℕ} {oid : List ℕ}
    (hne : len .mldsa44 ≠ len .mlkem512) :
    (if n = len .mldsa44 then some Alg.mldsa44.oid
      else if n = len .mlkem512 then some Alg.mlkem512.oid else none) = some oid ↔
      ∃ a : Alg, n = len a ∧ oid = a.oid := by
  constructor
  · intro h
    split at h
    · next hn => exact ⟨.mldsa44, hn, (Option.some.inj h).symm⟩
    · split at h
      · next hn => exact ⟨.mlkem512, hn, (Option.some.inj h).symm⟩
      · contradiction
  · rintro ⟨a, rfl, rfl⟩
    cases a with
    | mldsa44 => rw [if_pos rfl]
    | mlkem512 => rw [if_neg hne.symm, if_pos rfl]

theorem pqmagic_ofPkLen {n : ℕ} {oid : List ℕ} :
    pqmagic.ofPkLen n = some oid ↔ ∃ a : Alg, n = a.pkLen ∧ oid = a.oid :=
  Alg.ofLen_eq_some (by decide)

theorem pqmagic_ofSkLen {n : ℕ} {oid : List ℕ} :
    pqmagic.ofSkLen n = some oid ↔ ∃ a : Alg, n = a.skLen ∧ oid = a.oid :=
  Alg.ofLen_eq_some (by decide)

/-- **Failed imports of the two providers** leave the object as it was exactly if
everything that they copy is in it already. -/
theorem failed_import_keeps_iff (k : RawKey) (k' : AigisKey) (selection : ℕ) (params : List OsslParam) :
    ((pqmagicKmImport k selection params).1 = false →
        ((pqmagicKmImport k selection params).2 = k ↔ HoldsCopies params k)) ∧
      ((aigisKmImport k' selection params).1 = false →
        ((aigisKmImport k' selection params).2 = k' ↔ HoldsCopies params k')) :=
  ⟨fun h => kmImport_keeps_iff h, fun h => kmImport_keeps_iff h⟩

/-- The bytes of both halves are in the object already, so the import that fails
over a secret half of one byte leaves the object alone.  The same holds of a
public key of Aigis-Enc that is too short. -/
theorem failed_import_keeps_held : ∃ (d : Bytes) (k : RawKey) (k' : AigisKey),
    d.length = 1312 ∧ k.pkLen = 1312 ∧
      pqmagicKmImport k 0 [⟨encodedPublicKey, octetString, some d⟩, ⟨privKey, octetString, some [7]⟩] =
        (false, k) ∧
      aigisKmImport k' 0 (oneHalf encodedPublicKey [3]) = (false, k') := by
  have hne : (encodedPublicKey == privKey) = false := by decide
  obtain ⟨d, hd⟩ : ∃ d : Bytes, d.length = 1312 := ⟨(Buf.zero 1312).1, (Buf.zero 1312).2⟩
  have hgetPk : osslParamGetOctetString ⟨encodedPublicKey, octetString, some d⟩ 1312 = some d :=
    osslParamGetOctetString_octets (by omega)
  have hgetSk : osslParamGetOctetString ⟨privKey, octetString, some [7]⟩ 2560 = some [7] :=
    osslParamGetOctetString_octets (by decide)
  generalize hparams :
    [(⟨encodedPublicKey, octetString, some d⟩ : OsslParam), ⟨privKey, octetString, some [7]⟩] = params
  have hpk : copied 1312 encodedPublicKey params = some d := by
    simp [← hparams, copied, osslParamLocate, hgetPk]
  have hsk : copied 2560 privKey params = some [7] := by
    simp [← hparams, copied, osslParamLocate, hgetSk, hne]
  let k : RawKey := { pqmagicKmNew with
    pk := pqmagicKmNew.pk.write 0 d, pkLen := 1312, sk := pqmagicKmNew.sk.write 0 [7],
    oidText := Alg.mldsa44.oid }
  let k' : AigisKey := { aigisKmNew with pk := aigisKmNew.pk.write 0 [3] }
  have hfail : (pqmagicKmImport k 0 params).1 = false := by
    simp [← hparams, pqmagicKmImport, kmImport, importPk, importSk, importHalf, osslParamLocate, hne, hgetPk,
      hgetSk, hd, Alg.pkLen, Alg.skLen]
  have hheld : HoldsCopies params k := by
    constructor
    · intro d' hd'
      obtain rfl := Option.some.inj (hpk.symm.trans hd')
      refine ⟨Buf.slice_write (copied_le hpk), ?_⟩
      simp [hd, k, Alg.pkLen, eq_comm]
    · intro _ d' hd'
      obtain rfl := Option.some.inj (hsk.symm.trans hd')
      exact Buf.slice_write (by decide)
  have hfail' : (aigisKmImport k' 0 (oneHalf encodedPublicKey [3])).1 = false := by
    simp [aigisKmImport, kmImport, importPk, importHalf, oneHalf, osslParamLocate,
      osslParamGetOctetString_octets, aigis]
  have hheld' : HoldsCopies (oneHalf encodedPublicKey [3]) k' := by
    constructor
    · intro d' hd'
      have hone : d' = [3] := by
        simpa [copied, oneHalf, osslParamLocate, osslParamGetOctetString_octets, aigis] using hd'.symm
      subst hone
      exact ⟨Buf.slice_write (by decide), fun oid hoid => nomatch hoid⟩
    · intro _ d' hd'
      simp [copied, oneHalf, osslParamLocate, hne] at hd'
  have hkeeps := failed_import_keeps_iff k k' 0
  subst hparams
  exact ⟨d, k, k', hd, rfl, Prod.ext hfail (((hkeeps _).1 hfail).mpr hheld),
    Prod.ext hfail' (((hkeeps (oneHalf encodedPublicKey [3])).2 hfail').mpr hheld')⟩

/-- A public key of the right length with a secret key of one byte: the import
fails, and the object has become that public key.  An Aigis-Enc public key of
one byte is refused, and is in the buffer. -/
theorem failed_import_writes : (∃ params, (pqmagicKmImport pqmagicKmNew 0 params).1 = false ∧
      (pqmagicKmImport pqmagicKmNew 0 params).2.pkLen ≠ pqmagicKmNew.pkLen ∧
      (pqmagicKmImport pqmagicKmNew 0 params).2.oidText ≠ pqmagicKmNew.oidText) ∧
    ∃ params, (aigisKmImport aigisKmNew 0 params).1 = false ∧
      (aigisKmImport aigisKmNew 0 params).2.pk ≠ aigisKmNew.pk := by
  obtain ⟨d, hd⟩ : ∃ d : Bytes, d.length = 1312 := ⟨(Buf.zero 1312).1, (Buf.zero 1312).2⟩
  refine ⟨⟨[⟨encodedPublicKey, octetString, some d⟩, ⟨privKey, octetString, some [0]⟩], ?_⟩,
    ⟨[⟨encodedPublicKey, octetString, some [1]⟩], ?_⟩⟩
  · have hpk : osslParamGetOctetString ⟨encodedPublicKey, octetString, some d⟩ 1312 = some d :=
      osslParamGetOctetString_octets (by omega)
    have hsk : osslParamGetOctetString ⟨privKey, octetString, some [0]⟩ 2560 = some [0] :=
      osslParamGetOctetString_octets (by decide)
    have hne : (encodedPublicKey == privKey) = false := by decide
    simp [pqmagicKmImport, kmImport, importPk, importSk, importHalf, osslParamLocate, hpk, hsk, hne, hd, pqmagic,
      pqmagicKmNew, Alg.pkLen, Alg.skLen, Alg.oid]
  · have hone : aigisKmNew.pk.write 0 [1] ≠ aigisKmNew.pk := by
      rw [Ne, Buf.write_eq_self_iff (by decide)]
      decide
    simpa [aigisKmImport, kmImport, importPk, importHalf, osslParamLocate, osslParamGetOctetString_octets, aigis]
      using hone

end Tlcp.Provider
