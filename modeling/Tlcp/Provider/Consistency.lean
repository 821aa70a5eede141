import Tlcp.Provider.Decoder
import Tlcp.Provider.Signature

/-!
# Tlcp.Provider.Consistency

Which algorithm a key object of the pqmagic provider belongs to.

An object is made empty, or by one of the decoders, and halves are imported into
it one after the other; the provider generates no keys.  Each half that is
imported sets the identifier to the algorithm that its length stands for, and no
function compares the two halves.

* `keyStep_consistent_iff` : when one operation leaves a consistent object;
* `keyStep_lengths` : what lengths an object can have at all;
* `keys_consistent_iff` : the same over runs, with the answers of the query for
  the halves and the operations that run on a consistent object.
-/

namespace Tlcp.Provider

open Octets Run

variable {a b : Alg} {params : List OsslParam} {k' : RawKey} {selection : ℕ}

/-! ## operations with an ML-KEM key -/

/-- The two functions of PQMagic: a ciphertext and a secret for a public key, and
the secret of a ciphertext. -/
structure KemBackend where
  enc : Bytes → Option (Bytes × Bytes)
  dec : Bytes → Bytes → Option Bytes

/-- `pqmagic_kem_encapsulate`, with both buffers or with neither: the lengths and
what is written. -/
def pqmagicKemEncapsulate (b : KemBackend) (keys : ℕ → RawKey) (key : Option ℕ) (out : Bool) :
    Option ((ℕ × ℕ) × Option (Bytes × Bytes)) :=
  match key with
  | none => none
  | some k =>
    if (keys k).oidText ≠ Alg.mlkem512.oid ∨ (keys k).pkLen ≠ Alg.mlkem512.pkLen then none
    else if ¬out then some ((768, 32), none)
    else (b.enc ((keys k).pk.slice 0 Alg.mlkem512.pkLen)).map fun r => ((768, 32), some r)

/-- `pqmagic_kem_decapsulate`: the length of the secret and, unless `out` is
`NULL`, the secret. -/
def pqmagicKemDecapsulate (b : KemBackend) (keys : ℕ → RawKey) (key : Option ℕ) (out : Bool)
    (ct : Bytes) : Option (ℕ × Option Bytes) :=
  match key with
  | none => none
  | some k =>
    if (keys k).oidText ≠ Alg.mlkem512.oid ∨ (keys k).skLen ≠ Alg.mlkem512.skLen then none
    else if ¬out then some (32, none)
    else if ct.length ≠ 768 then none
    else (b.dec ct ((keys k).sk.slice 0 Alg.mlkem512.skLen)).map fun ss => (32, some ss)

/-! ## runs of one object -/

/-- Operations on a key object. -/
inductive KeyOp where
  | new
  | importParams (selection : ℕ) (params : List OsslParam)
  | spkiDecode (selection : ℕ) (der : Bytes)
  | pkcs8Decode (selection : ℕ) (der : Bytes)

variable (d2iPkcs8PrivKeyInfo : Bytes → Option (Bytes × Bytes))

/-- The object after an operation; a decoder that does not take its input hands
over nothing. -/
def keyStep (k : RawKey) : KeyOp → RawKey
  | .new => pqmagicKmNew
  | .importParams selection params => (pqmagicKmImport k selection params).2
  | .spkiDecode selection der => (spkiDecDecode selection der).getD k
  | .pkcs8Decode selection der => (pkcs8DecDecode d2iPkcs8PrivKeyInfo selection der).getD k

/-- The same as a step of a machine; every operation is possible in every state. -/
def keyMachine (k : RawKey) (op : KeyOp) : Option RawKey := some (keyStep d2iPkcs8PrivKeyInfo k op)

/-! ## consistency -/

/-- The halves that are present have the lengths of the algorithm that the
identifier names. -/
def Consistent (k : RawKey) : Prop := (k.pkLen = 0 ∧ k.skLen = 0) ∨
    ∃ a : Alg, k.oidText = a.oid ∧ (k.pkLen = 0 ∨ k.pkLen = a.pkLen) ∧
      (k.skLen = 0 ∨ k.skLen = a.skLen)

/-- The parameters hold a public half with the length of the algorithm. -/
def OffersPk (params : List OsslParam) (a : Alg) : Prop :=
  ∃ d, copied pqmagic.pkMax encodedPublicKey params = some d ∧ d.length = a.pkLen

/-- The parameters hold a secret half with the length of the algorithm. -/
def OffersSk (params : List OsslParam) (a : Alg) : Prop :=
  ∃ d, copied pqmagic.skMax privKey params = some d ∧ d.length = a.skLen

/-- The halves that an import offers belong to one algorithm, and a half that
comes alone belongs to that of the other half in the object.  A public half that
is refused ends the import before it does anything that counts. -/
structure OffersAgree (k : RawKey) (params : List OsslParam) : Prop where
  both : ∀ a b, OffersPk params a → OffersSk params b → a = b
  pk : ∀ a, OffersPk params a → (∀ b, ¬OffersSk params b) → k.skLen = 0 ∨ k.skLen = a.skLen
  sk : ∀ b, OffersSk params b → (∀ a, ¬OffersPk params a) → k.pkLen = 0 ∨ k.pkLen = b.pkLen

/-- What an operation has to meet; only an import can mix algorithms. -/
def Fits (k : RawKey) : KeyOp → Prop
  | .importParams _ params => PkRefused pqmagic params ∨ OffersAgree k params
  | _ => True

theorem Alg.pkLen_inj (h : a.pkLen = b.pkLen) : a = b := by
  cases a <;> cases b <;> first | rfl | exact absurd h (by decide)

theorem Alg.skLen_inj (h : a.skLen = b.skLen) : a = b := by
  cases a <;> cases b <;> first | rfl | exact absurd h (by decide)

theorem Alg.oid_inj (h : a.oid = b.oid) : a = b := by
  cases a <;> cases b <;> first | rfl | exact absurd h (by decide)

theorem Alg.pkLen_ne_zero (a : Alg) : a.pkLen ≠ 0 := by
  cases a <;> decide

theorem Alg.skLen_ne_zero (a : Alg) : a.skLen ≠ 0 := by
  cases a <;> decide

variable {k : RawKey}

/-- An object with a public half that its identifier names. -/
theorem consistent_iff_of_pk (hoid : k.oidText = a.oid) (hpk : k.pkLen = a.pkLen) :
    Consistent k ↔ k.skLen = 0 ∨ k.skLen = a.skLen := by
  constructor
  · rintro (⟨h, -⟩ | ⟨b, hb, -, hsk⟩)
    · exact absurd (hpk.symm.trans h) a.pkLen_ne_zero
    · obtain rfl := Alg.oid_inj (hoid.symm.trans hb)
      exact hsk
  · intro hsk
    exact .inr ⟨a, hoid, .inr hpk, hsk⟩

/-- An object with a secret half that its identifier names. -/
theorem consistent_iff_of_sk (hoid : k.oidText = a.oid) (hsk : k.skLen = a.skLen) :
    Consistent k ↔ k.pkLen = 0 ∨ k.pkLen = a.pkLen := by
  constructor
  · rintro (⟨-, h⟩ | ⟨b, hb, hpk, -⟩)
    · exact absurd (hsk.symm.trans h) a.skLen_ne_zero
    · obtain rfl := Alg.oid_inj (hoid.symm.trans hb)
      exact hpk
  · intro hpk
    exact .inr ⟨a, hoid, hpk, .inr hsk⟩

/-- Consistency looks at the lengths and the identifier only. -/
theorem consistent_congr (hpk : k'.pkLen = k.pkLen) (hsk : k'.skLen = k.skLen)
    (hoid : k'.oidText = k.oidText) : Consistent k' ↔ Consistent k := by
  simp only [Consistent, hpk, hsk, hoid]

/-- The lengths and the identifier of two objects are the same. -/
structure SameKind (k k' : RawKey) : Prop where
  pkLen : k'.pkLen = k.pkLen
  skLen : k'.skLen = k.skLen
  oidText : k'.oidText = k.oidText

theorem SameKind.refl (k : RawKey) : SameKind k k := ⟨rfl, rfl, rfl⟩

theorem SameKind.consistent (h : SameKind k k') : Consistent k' ↔ Consistent k :=
  consistent_congr h.pkLen h.skLen h.oidText

/-- A half is taken exactly if it has the length of an algorithm, which is then
that of the object. -/
theorem HalfStep.kind {name : String} {n : ℕ} {ofLen : ℕ → Option (List ℕ)} {len : Alg → ℕ}
    {wrote : Bytes → RawKey} {took : Bytes → List ℕ → RawKey} {o : Outcome} {k₁ : RawKey}
    (hof : ∀ {n oid}, ofLen n = some oid ↔ ∃ a : Alg, n = len a ∧ oid = a.oid)
    (hinj : ∀ {a b}, len a = len b → a = b)
    (h : HalfStep params name n ofLen wrote took k o k₁) :
    ((∀ a, ¬∃ d, copied n name params = some d ∧ d.length = len a) ∧
        (k₁ = k ∨ ∃ d, k₁ = wrote d)) ∨
      ∃ a, (∃ d, copied n name params = some d ∧ d.length = len a) ∧
        (∀ b, (∃ d, copied n name params = some d ∧ d.length = len b) → b = a) ∧
        ∃ d, d.length = len a ∧ k₁ = took d a.oid := by
  cases h with
  | absent h =>
    refine .inl ⟨?_, .inl rfl⟩
    rintro a ⟨d, hc, -⟩
    simp [copied, h] at hc
  | unread h hc =>
    refine .inl ⟨?_, .inl rfl⟩
    rintro a ⟨d, hc', -⟩
    rw [hc] at hc'
    contradiction
  | @refused d hc hlen =>
    refine .inl ⟨?_, .inr ⟨d, rfl⟩⟩
    rintro a ⟨d', hc', hd'⟩
    obtain rfl := Option.some.inj (hc.symm.trans hc')
    rw [hof.mpr ⟨a, hd', rfl⟩] at hlen
    contradiction
  | @taken d _ hc hlen =>
    obtain ⟨a, hd, rfl⟩ := hof.mp hlen
    refine .inr ⟨a, ⟨d, hc, hd⟩, ?_, d, hd, rfl⟩
    rintro b ⟨d', hc', hd'⟩
    obtain rfl := Option.some.inj (hc.symm.trans hc')
    exact hinj (hd'.symm.trans hd)

/-- What the public half does to the lengths and the identifier. -/
theorem pkStep_kind {o : Outcome} {k₁ : RawKey} (h : PkStep params k o k₁) :
    ((∀ a, ¬OffersPk params a) ∧ SameKind k k₁) ∨
      ∃ a, OffersPk params a ∧ (∀ b, OffersPk params b → b = a) ∧
        k₁.oidText = a.oid ∧ k₁.pkLen = a.pkLen ∧ k₁.skLen = k.skLen := by
  obtain ⟨hno, rfl | ⟨d, rfl⟩⟩ | ⟨a, ha, ha', d, hd, rfl⟩ := h.kind pqmagic_ofPkLen Alg.pkLen_inj
  · exact .inl ⟨hno, .refl _⟩
  · exact .inl ⟨hno, ⟨rfl, rfl, rfl⟩⟩
  · exact .inr ⟨a, ha, ha', rfl, hd, rfl⟩

/-- What the secret half does to the lengths and the identifier. -/
theorem skStep_kind {o : Outcome} {k₁ : RawKey} (h : SkStep params k o k₁) :
    ((∀ a, ¬OffersSk params a) ∧ SameKind k k₁) ∨
      ∃ a, OffersSk params a ∧ (∀ b, OffersSk params b → b = a) ∧
        k₁.oidText = a.oid ∧ k₁.skLen = a.skLen ∧ k₁.pkLen = k.pkLen := by
  obtain ⟨hno, rfl | ⟨d, rfl⟩⟩ | ⟨a, ha, ha', d, hd, rfl⟩ := h.kind pqmagic_ofSkLen Alg.skLen_inj
  · exact .inl ⟨hno, .refl _⟩
  · exact .inl ⟨hno, ⟨rfl, rfl, rfl⟩⟩
  · exact .inr ⟨a, ha, ha', rfl, hd, rfl⟩

/-- An import stops at a public half that is refused, or goes through both. -/
theorem pqmagicKmImport_steps (k : RawKey) (selection : ℕ) (params : List OsslParam) :
    (PkRefused pqmagic params ∧ SameKind k (pqmagicKmImport k selection params).2) ∨
      (¬PkRefused pqmagic params ∧ ∃ o₁ k₁ o₂, PkStep params k o₁ k₁ ∧
        SkStep params k₁ o₂ (pqmagicKmImport k selection params).2) := by
  obtain ⟨k₁, hpk, h⟩ | ⟨pub, k₁, k₂, hpub, hpk, hsk, h⟩ | ⟨pub, priv, k₁, k₂, hpub, hpk, -, hsk, h⟩ :=
    kmImport_cases k selection params
  · refine .inl ⟨hpk.refused_iff.mp rfl, ?_⟩
    rw [pqmagicKmImport, h]
    cases hpk <;> exact ⟨rfl, rfl, rfl⟩
  · refine .inr ⟨mt hpk.refused_iff.mpr hpub, pub, k₁, .refused, hpk, ?_⟩
    rw [pqmagicKmImport, h]
    exact hsk
  · refine .inr ⟨mt hpk.refused_iff.mpr hpub, pub, k₁, priv, hpk, ?_⟩
    rw [pqmagicKmImport, h]
    exact hsk

/-- **Imports**: from a consistent object, exactly those whose halves agree lead
to a consistent one. -/
theorem pqmagicKmImport_consistent_iff (hk : Consistent k) :
    Consistent (pqmagicKmImport k selection params).2 ↔
      PkRefused pqmagic params ∨ OffersAgree k params := by
  obtain ⟨href, hsame⟩ | ⟨hno, o₁, k₁, o₂, hpk, hsk⟩ := pqmagicKmImport_steps k selection params
  · exact iff_of_true (hsame.consistent.mpr hk) (.inl href)
  · generalize (pqmagicKmImport k selection params).2 = k₂ at hsk
    rw [or_iff_right hno]
    obtain ⟨hpk0, hsame₁⟩ | ⟨a, ha, ha', hoid₁, hpk₁, hsk₁⟩ := pkStep_kind hpk
    · obtain ⟨hsk0, hsame₂⟩ | ⟨b, hb, hb', hoid₂, hsk₂, hpk₂⟩ := skStep_kind hsk
      · -- neither half is taken
        refine iff_of_true (hsame₂.consistent.mpr (hsame₁.consistent.mpr hk)) ⟨?_, ?_, ?_⟩
        · exact fun a _ ha => absurd ha (hpk0 a)
        · exact fun a ha => absurd ha (hpk0 a)
        · exact fun b hb => absurd hb (hsk0 b)
      · -- the secret half only
        rw [consistent_iff_of_sk hoid₂ hsk₂, hpk₂, hsame₁.pkLen]
        constructor
        · intro h
          refine ⟨fun a _ ha => absurd ha (hpk0 a), fun a ha => absurd ha (hpk0 a), ?_⟩
          intro c hc _
          exact (hb' c hc) ▸ h
        · exact fun h => h.sk b hb hpk0
    · obtain ⟨hsk0, hsame₂⟩ | ⟨b, hb, hb', hoid₂, hsk₂, hpk₂⟩ := skStep_kind hsk
      · -- the public half only
        rw [hsame₂.consistent, consistent_iff_of_pk hoid₁ hpk₁, hsk₁]
        constructor
        · intro h
          refine ⟨fun _ b _ hb => absurd hb (hsk0 b), ?_, fun b hb => absurd hb (hsk0 b)⟩
          intro c hc _
          exact (ha' c hc) ▸ h
        · exact fun h => h.pk a ha hsk0
      · -- both halves
        rw [consistent_iff_of_sk hoid₂ hsk₂, hpk₂, hpk₁, or_iff_right a.pkLen_ne_zero]
        constructor
        · intro h
          refine ⟨?_, fun _ _ h => absurd hb (h b), fun _ _ h => absurd ha (h a)⟩
          intro c d hc hd
          rw [ha' c hc, hb' d hd]
          exact Alg.pkLen_inj h
        · intro h
          rw [h.both a b ha hb]

/-! ## the decoders -/

theorem consistent_new : Consistent pqmagicKmNew := .inl ⟨rfl, rfl⟩

theorem consistent_spki {der : Bytes}
    (h : spkiDecDecode selection der = some k') : Consistent k' := by
  obtain ⟨-, a, pk, -, rfl⟩ := spkiDecDecode_key h
  exact .inr ⟨a, rfl, .inr rfl, .inl rfl⟩

variable {d2iPkcs8PrivKeyInfo}

/-- What the PKCS#8 decoder hands over is a secret key of one of the algorithms. -/
theorem pkcs8DecDecode_kind {der : Bytes}
    (h : pkcs8DecDecode d2iPkcs8PrivKeyInfo selection der = some k') :
    ∃ a : Alg, k'.oidText = a.oid ∧ k'.pkLen = 0 ∧ k'.skLen = a.skLen := by
  unfold pkcs8DecDecode at h
  split at h
  · contradiction
  · split at h
    · contradiction
    · split at h
      · contradiction
      · split at h
        · contradiction
        · split at h
          · split at h
            · contradiction
            · next hlen =>
              injection h with h
              subst h
              exact ⟨.mlkem512, rfl, rfl, not_not.mp hlen⟩
          · split at h
            · split at h
              · contradiction
              · next hlen =>
                injection h with h
                subst h
                exact ⟨.mldsa44, rfl, rfl, not_not.mp hlen⟩
            · contradiction

/-- **One operation** on a consistent object. -/
theorem keyStep_consistent_iff {op : KeyOp} (hk : Consistent k) :
    Consistent (keyStep d2iPkcs8PrivKeyInfo k op) ↔ Fits k op := by
  cases op with
  | new => exact iff_of_true consistent_new trivial
  | importParams selection params => exact pqmagicKmImport_consistent_iff hk
  | spkiDecode selection der =>
    refine iff_of_true ?_ trivial
    cases h : spkiDecDecode selection der with
    | none => simpa [keyStep, h] using hk
    | some k' => simpa [keyStep, h] using consistent_spki h
  | pkcs8Decode selection der =>
    refine iff_of_true ?_ trivial
    cases h : pkcs8DecDecode d2iPkcs8PrivKeyInfo selection der with
    | none => simpa [keyStep, h] using hk
    | some k' =>
      obtain ⟨a, hoid, hpk, hsk⟩ := pkcs8DecDecode_kind h
      simpa [keyStep, h] using .inr ⟨a, hoid, .inl hpk, .inr hsk⟩

/-! ## the query for the halves -/

/-- The lengths of the halves are those of an algorithm. -/
structure KnownLengths (k : RawKey) : Prop where
  pk : k.pkLen = 0 ∨ ∃ a : Alg, k.pkLen = a.pkLen
  sk : k.skLen = 0 ∨ ∃ a : Alg, k.skLen = a.skLen

theorem SameKind.knownLengths (h : SameKind k k') (hk : KnownLengths k) : KnownLengths k' := by
  constructor
  · rw [h.pkLen]
    exact hk.pk
  · rw [h.skLen]
    exact hk.sk

theorem pqmagicKmImport_lengths (hk : KnownLengths k) :
    KnownLengths (pqmagicKmImport k selection params).2 := by
  obtain ⟨-, hsame⟩ | ⟨-, o₁, k₁, o₂, hpk, hsk⟩ := pqmagicKmImport_steps k selection params
  · exact hsame.knownLengths hk
  · generalize (pqmagicKmImport k selection params).2 = k₂ at hsk
    have hk₁ : KnownLengths k₁ := by
      obtain ⟨-, hsame⟩ | ⟨a, -, -, -, hlen, hother⟩ := pkStep_kind hpk
      · exact hsame.knownLengths hk
      · exact ⟨.inr ⟨a, hlen⟩, by rw [hother]; exact hk.sk⟩
    obtain ⟨-, hsame⟩ | ⟨a, -, -, -, hlen, hother⟩ := skStep_kind hsk
    · exact hsame.knownLengths hk₁
    · exact ⟨by rw [hother]; exact hk₁.pk, .inr ⟨a, hlen⟩⟩

theorem keyStep_lengths {op : KeyOp} (hk : KnownLengths k) :
    KnownLengths (keyStep d2iPkcs8PrivKeyInfo k op) := by
  cases op with
  | new => exact ⟨.inl rfl, .inl rfl⟩
  | importParams selection params => exact pqmagicKmImport_lengths hk
  | spkiDecode selection der =>
    cases h : spkiDecDecode selection der with
    | none => simpa [keyStep, h] using hk
    | some k' =>
      obtain ⟨-, a, pk, -, rfl⟩ := spkiDecDecode_key h
      simpa [keyStep, h] using ⟨.inr ⟨a, rfl⟩, .inl rfl⟩
  | pkcs8Decode selection der =>
    cases h : pkcs8DecDecode d2iPkcs8PrivKeyInfo selection der with
    | none => simpa [keyStep, h] using hk
    | some k' =>
      obtain ⟨a, -, hpk, hsk⟩ := pkcs8DecDecode_kind h
      simpa [keyStep, h] using ⟨.inl hpk, .inr ⟨a, hsk⟩⟩

theorem knownLengths_run {ops : List KeyOp}
    (hrun : run (keyMachine d2iPkcs8PrivKeyInfo) pqmagicKmNew ops = some k) : KnownLengths k := by
  refine invariant (C := fun _ _ => True) (fun k op k' hk _ hstep => ?_) ⟨.inl rfl, .inl rfl⟩
    (meets_of_forall (fun _ _ => trivial) _ _) hrun
  obtain rfl := Option.some.inj hstep
  exact keyStep_lengths hk

/-- The selection includes one of the parameter bits. -/
def SelectsParameters (selection : ℕ) : Prop :=
  Selects selection selectDomainParameters ∨ Selects selection selectOtherParameters

/-- Exactly one half is there, and the query does not look for it. -/
theorem has_both_iff (hk : KnownLengths k) (hpub : Selects selection selectPublicKey) :
    (pqmagicKmHas (some k) selection = true → k.pkLen ≠ 0 ∧ k.skLen ≠ 0) ↔
      (k.pkLen = 0 ↔ k.skLen = 0) ∨ (k.pkLen = 0 ∧ ¬SelectsParameters selection) := by
  have hknown : k.pkLen ≠ 0 → k.pkLen = Alg.mldsa44.pkLen ∨ k.pkLen = Alg.mlkem512.pkLen := by
    intro hne
    obtain hzero | ⟨a, ha⟩ := hk.pk
    · exact absurd hzero hne
    · cases a
      · exact .inl ha
      · exact .inr ha
  have hzero : k.pkLen = 0 → ¬(k.pkLen = Alg.mldsa44.pkLen ∨ k.pkLen = Alg.mlkem512.pkLen) := by
    intro h
    rw [h]
    decide
  have hhas : pqmagicKmHas (some k) selection = true ↔
      ¬(k.pkLen = 0 ∧ k.skLen = 0) ∧ (SelectsParameters selection ∨ k.pkLen ≠ 0) := by
    simp only [pqmagicKmHas, SelectsParameters]
    split_ifs
    · tauto
    · tauto
    · rw [decide_eq_true_eq]
      tauto
  rw [hhas]
  tauto

/-! ## operations on a key -/

/-- No operation of one algorithm runs on a key with a half of the other. -/
structure OperatesOnOne (k : RawKey) : Prop where
  sign : ∀ b keys ctx i sig r, keys i = k → ctx.key = some i →
    pqmagicSigDigestSignFinal b keys ctx sig = some r → k.pkLen ≠ Alg.mlkem512.pkLen
  decapsulate : ∀ b keys i out ct r, keys i = k →
    pqmagicKemDecapsulate b keys (some i) out ct = some r → k.pkLen ≠ Alg.mldsa44.pkLen
  encapsulate : ∀ b keys i out r, keys i = k →
    pqmagicKemEncapsulate b keys (some i) out = some r → k.skLen ≠ Alg.mldsa44.skLen

/-- A secret half decides what the public half can be. -/
theorem Consistent.pkLen_ne (hk : Consistent k) (hsk : k.skLen = a.skLen) (hab : a ≠ b) :
    k.pkLen ≠ b.pkLen := by
  obtain ⟨-, h⟩ | ⟨c, -, hpk, hsk'⟩ := hk
  · exact absurd (hsk.symm.trans h) a.skLen_ne_zero
  · intro hb
    have hca : c = a := by
      obtain h | h := hsk'
      · exact absurd (hsk.symm.trans h) a.skLen_ne_zero
      · exact Alg.skLen_inj (h.symm.trans hsk)
    obtain h | h := hpk
    · exact b.pkLen_ne_zero (hb.symm.trans h)
    · exact hab (hca ▸ Alg.pkLen_inj (h.symm.trans hb))

theorem Consistent.operatesOnOne (hk : Consistent k) : OperatesOnOne k := by
  constructor
  · intro b keys ctx i sig r hi hctx h
    have hsk : k.skLen = Alg.mldsa44.skLen := by
      unfold pqmagicSigDigestSignFinal at h
      split at h
      · contradiction
      · next j m hin =>
        obtain rfl := Option.some.inj (hctx.symm.trans (SigCtx.finalInput_key hin))
        split at h
        · contradiction
        · next hlen =>
          rw [← hi]
          exact not_not.mp hlen
    exact hk.pkLen_ne hsk (by decide)
  · intro b keys i out ct r hi h
    unfold pqmagicKemDecapsulate at h
    simp only [hi] at h
    split at h
    · contradiction
    · next hguard =>
      have hsk : k.skLen = Alg.mlkem512.skLen := by tauto
      exact hk.pkLen_ne hsk (by decide)
  · intro b keys i out r hi h hsk
    unfold pqmagicKemEncapsulate at h
    simp only [hi] at h
    split at h
    · contradiction
    · next hguard =>
      have hpk : k.pkLen = Alg.mlkem512.pkLen := by tauto
      exact hk.pkLen_ne hsk (by decide) hpk

/-- **Key objects over runs.**  All objects of a run are consistent exactly if
every import offers halves that agree; the query for both halves is right exactly
if both or neither are there, or the secret one alone and no parameters are asked
for; and on a consistent object no operation meets a half of the other
algorithm. -/
theorem keys_consistent_iff {ops : List KeyOp}
    (hrun : run (keyMachine d2iPkcs8PrivKeyInfo) pqmagicKmNew ops = some k) :
    (Always (keyMachine d2iPkcs8PrivKeyInfo) Consistent pqmagicKmNew ops ↔
      Meets (keyMachine d2iPkcs8PrivKeyInfo) Fits pqmagicKmNew ops) ∧
    (∀ selection, Selects selection selectPublicKey → Selects selection selectPrivateKey →
      ((pqmagicKmHas (some k) selection = true → k.pkLen ≠ 0 ∧ k.skLen ≠ 0) ↔
        (k.pkLen = 0 ↔ k.skLen = 0) ∨ (k.pkLen = 0 ∧ ¬SelectsParameters selection))) ∧
    (Consistent k → OperatesOnOne k) := by
  refine ⟨?_, fun _ hpub _ => has_both_iff (knownLengths_run hrun) hpub, fun hk => hk.operatesOnOne⟩
  refine always_iff_meets (fun k op k' hk hstep => ?_) consistent_new hrun
  obtain rfl := Option.some.inj hstep
  exact keyStep_consistent_iff hk

theorem fits_pk {d : Bytes} (hsk : k.skLen = 0) :
    Fits k (.importParams selection (oneHalf encodedPublicKey d)) := by
  have hno : ∀ b, ¬OffersSk (oneHalf encodedPublicKey d) b := by
    have hne : (encodedPublicKey == privKey) = false := by decide
    simp [OffersSk, copied, oneHalf, osslParamLocate, hne]
  exact .inr ⟨fun _ b _ hb => absurd hb (hno b), fun _ _ _ => .inl hsk, fun b hb => absurd hb (hno b)⟩

theorem fits_sk {d : Bytes} (hd : d.length = a.skLen) (hpk : k.pkLen = a.pkLen) :
    Fits k (.importParams selection (oneHalf privKey d)) := by
  have hne : (privKey == encodedPublicKey) = false := by decide
  have hno : ∀ b, ¬OffersPk (oneHalf privKey d) b := by
    simp [OffersPk, copied, oneHalf, osslParamLocate, hne]
  refine .inr ⟨fun b _ hb => absurd hb (hno b), fun b hb => absurd hb (hno b), fun b hb _ => .inr ?_⟩
  obtain ⟨d', hc, hd'⟩ := hb
  have hdd : d' = d := by
    simp only [copied, oneHalf, osslParamLocate, List.find?_cons, beq_self_eq_true,
      Option.bind_some] at hc
    simp only [osslParamGetOctetString, if_true] at hc
    exact (Option.some.inj (Option.filter_eq_some_iff.mp hc).1).symm
  rw [hpk, Alg.skLen_inj (hd.symm.trans (hdd ▸ hd'))]

/-- The two halves of an ML-DSA key, imported one after the other. -/
theorem keys_consistent_mldsa : ∃ pk sk k, run (keyMachine fun _ => none) pqmagicKmNew
        [.importParams 0 (oneHalf encodedPublicKey pk), .importParams 0 (oneHalf privKey sk)] = some k ∧
      k.pkLen = Alg.mldsa44.pkLen ∧ k.skLen = Alg.mldsa44.skLen ∧
      Always (keyMachine fun _ => none) Consistent pqmagicKmNew
        [.importParams 0 (oneHalf encodedPublicKey pk), .importParams 0 (oneHalf privKey sk)] := by
  obtain ⟨pk, hpk⟩ : ∃ pk : Bytes, pk.length = Alg.mldsa44.pkLen := ⟨_, length_zeroKey _⟩
  obtain ⟨sk, hsk⟩ : ∃ sk : Bytes, sk.length = Alg.mldsa44.skLen :=
    ⟨(Buf.zero Alg.mldsa44.skLen).1, (Buf.zero Alg.mldsa44.skLen).2⟩
  have h₁ := kmImport_pk (hpk ▸ Alg.pkLen_le _) (pqmagic_ofPkLen.mpr ⟨.mldsa44, hpk, rfl⟩)
    pqmagicKmNew 0
  generalize hk₁ : ({ pqmagicKmNew with
    pk := pqmagicKmNew.pk.write 0 pk, oidText := Alg.mldsa44.oid, pkLen := pk.length } : RawKey) =
      k₁ at h₁
  have h₂ := kmImport_sk (hsk ▸ Nat.le_refl 2560) (pqmagic_ofSkLen.mpr ⟨.mldsa44, hsk, rfl⟩) k₁ 0
  have hpk₁ : k₁.pkLen = Alg.mldsa44.pkLen := by rw [← hk₁, ← hpk]
  have hrun : run (keyMachine fun _ => none) pqmagicKmNew
      [.importParams 0 (oneHalf encodedPublicKey pk), .importParams 0 (oneHalf privKey sk)] =
        some { k₁ with sk := k₁.sk.write 0 sk, oidText := Alg.mldsa44.oid, skLen := sk.length } := by
    simp only [run, keyMachine, keyStep, pqmagicKmImport, h₁, h₂]
  refine ⟨pk, sk, _, hrun, hpk₁, hsk, (keys_consistent_iff hrun).1.mpr ⟨fits_pk rfl, ?_⟩⟩
  simp only [keyMachine, keyStep, pqmagicKmImport, h₁]
  exact ⟨fits_sk hsk hpk₁, by simp [keyMachine, Meets]⟩

/-- A public key of ML-KEM and then a secret key of ML-DSA, imported into one
object: it is inconsistent, and signs.  After the first import the query for both
halves succeeds without a secret one. -/
theorem keys_mixed : ∃ pk sk k₁ k₂, run (keyMachine fun _ => none) pqmagicKmNew
        [.importParams 0 (oneHalf encodedPublicKey pk)] = some k₁ ∧
      pqmagicKmHas (some k₁) (selectPublicKey ||| selectPrivateKey) = true ∧ k₁.skLen = 0 ∧
      run (keyMachine fun _ => none) pqmagicKmNew [.importParams 0 (oneHalf encodedPublicKey pk),
        .importParams 0 (oneHalf privKey sk)] = some k₂ ∧
      ¬Consistent k₂ ∧ k₂.pkLen = Alg.mlkem512.pkLen ∧
      ∃ b ctx r, ctx.key = some 0 ∧
        pqmagicSigDigestSignFinal b (fun _ => k₂) ctx none = some r := by
  obtain ⟨pk, hpk⟩ : ∃ pk : Bytes, pk.length = Alg.mlkem512.pkLen := ⟨_, length_zeroKey _⟩
  obtain ⟨sk, hsk⟩ : ∃ sk : Bytes, sk.length = Alg.mldsa44.skLen :=
    ⟨(Buf.zero Alg.mldsa44.skLen).1, (Buf.zero Alg.mldsa44.skLen).2⟩
  have h₁ := kmImport_pk (hpk ▸ Alg.pkLen_le _) (pqmagic_ofPkLen.mpr ⟨.mlkem512, hpk, rfl⟩)
    pqmagicKmNew 0
  generalize hk₁ : ({ pqmagicKmNew with
    pk := pqmagicKmNew.pk.write 0 pk, oidText := Alg.mlkem512.oid, pkLen := pk.length } : RawKey) =
      k₁ at h₁
  have h₂ := kmImport_sk (hsk ▸ Nat.le_refl 2560) (pqmagic_ofSkLen.mpr ⟨.mldsa44, hsk, rfl⟩) k₁ 0
  generalize hk₂ : ({ k₁ with
    sk := k₁.sk.write 0 sk, oidText := Alg.mldsa44.oid, skLen := sk.length } : RawKey) = k₂ at h₂
  have hpk₁ : k₁.pkLen = Alg.mlkem512.pkLen := by rw [← hk₁, ← hpk]
  have hsk₁ : k₁.skLen = 0 := by rw [← hk₁]; rfl
  have hpk₂ : k₂.pkLen = Alg.mlkem512.pkLen := by rw [← hk₂, ← hpk₁]
  have hsk₂ : k₂.skLen = Alg.mldsa44.skLen := by rw [← hk₂, ← hsk]
  have hoid₂ : k₂.oidText = Alg.mldsa44.oid := by rw [← hk₂]
  refine ⟨pk, sk, k₁, k₂, ?_, ?_, hsk₁, ?_, ?_, hpk₂, ⟨some, fun _ _ => none, fun _ _ _ => true⟩,
    ⟨some 0, some [0], 1, 1⟩, (mldsa44SigLen, none), rfl, ?_⟩
  · simp only [run, keyMachine, keyStep, pqmagicKmImport, h₁]
  · simp [pqmagicKmHas, hpk₁, selectPublicKey, selectPrivateKey, selectDomainParameters,
      selectOtherParameters, Alg.pkLen]
  · simp only [run, keyMachine, keyStep, pqmagicKmImport, h₁, h₂]
  · rw [consistent_iff_of_sk hoid₂ hsk₂, hpk₂]
    decide
  · simp [pqmagicSigDigestSignFinal, SigCtx.finalInput, hsk₂]

end Tlcp.Provider
