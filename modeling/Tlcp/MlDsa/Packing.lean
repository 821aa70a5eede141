import Tlcp.Lib.Hints
import Tlcp.Lib.Packed
import Tlcp.Pqmagic.Codecs
import Tlcp.MlDsa.Rounding

/-!
# Tlcp.MlDsa.Packing

The packing of polynomials with small coefficients (the `poly*_pack` and
`poly*_unpack` functions of `poly.c`), of the two keys and of signatures
(`packing.c`).  The main result is `sig_encoding_canonical`: `unpack_sig` reads
back what `pack_sig` wrote, and it accepts nothing but what `pack_sig` writes.
-/

namespace Tlcp.MlDsa

open Octets Butterfly BitPack Packed

/-! ## polynomials -/

/-- `m - x` in an unsigned word of `w` bits. -/
def below (w : ℕ) (m x : ℤ) : ℕ := ((m - x) % 2 ^ w).toNat

/-- The packing of `polyeta_pack` and `polyeta_unpack`. -/
def etaCodec : ParamSet → Codec
  | .mode65 => eta4
  | _ => eta3

variable (p : ParamSet)

/-- `polyeta_pack`; the integers are of type `uint8_t`. -/
def polyetaPack : Poly → Bytes := packArray (etaCodec p) (below 8 p.eta)

/-- `polyeta_unpack`. -/
def polyetaUnpack : Bytes → Poly := unpackArray (etaCodec p) fun t => int32 (p.eta - t)

/-- `polyt1_pack`. -/
def polyt1Pack : Poly → Bytes := packArray t1Bits fun x => (x % 2 ^ 32).toNat

/-- `polyt1_unpack`. -/
def polyt1Unpack : Bytes → Poly := unpackArray t1Bits fun t => t

/-- `polyt0_pack`; the integers are of type `uint32_t`. -/
def polyt0Pack : Poly → Bytes := packArray t0Bits (below 32 (2 ^ (d - 1)))

/-- `polyt0_unpack`. -/
def polyt0Unpack : Bytes → Poly := unpackArray t0Bits fun t => int32 (2 ^ (d - 1) - t)

/-- The packing of `polyz_pack` and `polyz_unpack`. -/
def zCodec : ParamSet → Codec
  | .mode44 => z18
  | _ => z20

/-- `polyz_pack`; the integers are of type `uint32_t`. -/
def polyzPack : Poly → Bytes := packArray (zCodec p) (below 32 p.gamma1)

/-- `polyz_unpack`. -/
def polyzUnpack : Bytes → Poly := unpackArray (zCodec p) fun t => int32 (p.gamma1 - t)

/-- `polyw1_pack`. -/
def polyw1Pack (a : Poly) : Bytes := let c := fun i => (cell a i % 2 ^ 32).toNat
  match p with
  | .mode44 => (List.range 64).flatMap fun i =>
    [c (4 * i) ||| c (4 * i + 1) <<< 6, c (4 * i + 1) >>> 2 ||| c (4 * i + 2) <<< 4,
      c (4 * i + 2) >>> 4 ||| c (4 * i + 3) <<< 2].map UInt8.ofNat
  | _ => (List.range 128).map fun i => UInt8.ofNat (c (2 * i) ||| c (2 * i + 1) <<< 4)

/-- `POLYETA_PACKEDBYTES`. -/
def ParamSet.polyetaBytes : ParamSet → ℕ
  | mode65 => 128
  | _ => 96

/-- `POLYZ_PACKEDBYTES`. -/
def ParamSet.polyzBytes : ParamSet → ℕ
  | mode44 => 576
  | _ => 640

section

variable {p} {a : Poly}

/-- A distance that fits is stored as it is. -/
theorem below_eq {w : ℕ} {m x : ℤ} (hlo : x ≤ m) (hhi : m - x < 2 ^ w) : (below w m x : ℤ) = m - x := by
  have hmod : (m - x) % 2 ^ w = m - x := Int.emod_eq_of_lt (by omega) hhi
  rw [below, hmod, Int.toNat_of_nonneg (by omega)]

/-- The packers that store the distance of a coefficient from a constant. -/
theorem unpackArray_below {c : Codec} {w : ℕ} {m : ℤ} (hg : c.g ∣ 256) (hw : (c.bound : ℤ) ≤ 2 ^ w)
    (hm : |m| < 2 ^ 30) (hb : c.bound < 2 ^ 30) (h : ∀ i, a i ≤ m ∧ m - a i < c.bound) (rest : Bytes) :
    unpackArray c (fun t => int32 (m - t)) (packArray c (below w m) a ++ rest) = a := by
  obtain ⟨hmlo, hmhi⟩ := abs_lt.mp hm
  refine unpackArray_packArray hg (fun i => ?_) rest
  obtain ⟨hlo, hhi⟩ := h i
  have hval := below_eq hlo (hhi.trans_le hw)
  refine ⟨by omega, ?_⟩
  rw [hval, int32_of_lt (by omega) (by omega)]
  omega

theorem polyetaUnpack_pack (h : ∀ i, -p.eta ≤ a i ∧ a i ≤ p.eta) (rest : Bytes) :
    polyetaUnpack p (polyetaPack p a ++ rest) = a := by
  have hb : 2 * p.eta < (etaCodec p).bound := by cases p <;> decide
  refine unpackArray_below (by cases p <;> decide) (by cases p <;> decide) (by cases p <;> decide)
    (by cases p <;> decide) (fun i => ?_) rest
  have := h i
  omega

theorem polyt1Unpack_pack (h : ∀ i, 0 ≤ a i ∧ a i < 2 ^ 10) (rest : Bytes) :
    polyt1Unpack (polyt1Pack a ++ rest) = a := by
  refine unpackArray_packArray (by decide) (fun i => ?_) rest
  have := h i
  exact ⟨show _ < 2 ^ 10 by omega, by omega⟩

theorem polyt0Unpack_pack (h : ∀ i, -2 ^ (d - 1) < a i ∧ a i ≤ 2 ^ (d - 1)) (rest : Bytes) :
    polyt0Unpack (polyt0Pack a ++ rest) = a := by
  refine unpackArray_below (by decide) (by decide) (by decide) (by decide) (fun i => ?_) rest
  have := h i
  simp only [d, t0Bits, Nat.add_one_sub_one, Nat.cast_pow, Nat.cast_ofNat] at this ⊢
  omega

theorem zCodec_bound (p : ParamSet) : ((zCodec p).bound : ℤ) = 2 * p.gamma1 ∧ 2 * p.gamma1 ≤ 2 ^ 20 ∧
    0 < p.gamma1 := by
  cases p <;> decide

theorem polyzUnpack_pack (h : ∀ i, -p.gamma1 < a i ∧ a i ≤ p.gamma1) (rest : Bytes) :
    polyzUnpack p (polyzPack p a ++ rest) = a := by
  have hb := zCodec_bound p
  refine unpackArray_below (by cases p <;> decide) (by omega) (by cases p <;> decide)
    (by omega) (fun i => ?_) rest
  have := h i
  omega

theorem zCodec_tight (p : ParamSet) : (zCodec p).Tight := by
  cases p
  · exact z18_tight
  · exact z20_tight
  · exact z20_tight

theorem length_polyzPack (a : Poly) : (polyzPack p a).length = p.polyzBytes :=
  length_packArray.trans (by cases p <;> rfl)

/-- Every packed `z` is what its polynomial packs to. -/
theorem polyzPack_unpack {b : Bytes} (hb : p.polyzBytes ≤ b.length) :
    polyzPack p (polyzUnpack p b) = b.take p.polyzBytes := by
  have hbound := zCodec_bound p
  have hsize : p.polyzBytes = (zCodec p).m * (256 / (zCodec p).g) := by cases p <;> rfl
  have hmap : ∀ t < (zCodec p).bound, below 32 p.gamma1 (int32 (p.gamma1 - t)) = t := by
    intro t ht
    have hval := below_eq (w := 32) (m := p.gamma1) (x := p.gamma1 - t) (by omega) (by omega)
    rw [int32_of_lt (by omega) (by omega)]
    omega
  rw [hsize] at hb ⊢
  exact packArray_unpackArray (zCodec_tight p) (by cases p <;> decide) (by cases p <;> decide) hmap hb

/-- What `polyz_unpack` gives is packable, whatever the bytes. -/
theorem polyzUnpack_range (b : Bytes) (i : Fin 256) :
    -p.gamma1 < polyzUnpack p b i ∧ polyzUnpack p b i ≤ p.gamma1 := by
  have hbound := zCodec_bound p
  have hlt := unpack_lt (zCodec_tight p) (by cases p <;> decide) b i
  simp only [polyzUnpack, unpackArray]
  rw [int32_of_lt (by omega) (by omega)]
  omega

end

/-! ## keys -/

/-- `pack_pk`. -/
def packPk (rho : Bytes) (t1 : Fin p.k → Poly) : Bytes := rho ++ packVec polyt1Pack t1

/-- `unpack_pk`. -/
def unpackPk (pk : Bytes) : Bytes × (Fin p.k → Poly) :=
  (pk.take 32, unpackVec polyt1Unpack 320 (pk.drop 32))

/-- What `pack_sk` writes and `unpack_sk` reads. -/
structure SkParts where
  rho : Bytes
  tr : Bytes
  key : Bytes
  t0 : Fin p.k → Poly
  s1 : Fin p.l → Poly
  s2 : Fin p.k → Poly

/-- `pack_sk`. -/
def packSk (s : SkParts p) : Bytes :=
  s.rho ++ s.key ++ s.tr ++ packVec (polyetaPack p) s.s1 ++ packVec (polyetaPack p) s.s2 ++
    packVec polyt0Pack s.t0

/-- `unpack_sk`. -/
def unpackSk (sk : Bytes) : SkParts p := let rho := sk.take 32
  let sk := sk.drop 32
  let key := sk.take 32
  let sk := sk.drop 32
  let tr := sk.take 64
  let sk := sk.drop 64
  let s1 := unpackVec (polyetaUnpack p) p.polyetaBytes sk
  let sk := sk.drop (p.l * p.polyetaBytes)
  let s2 := unpackVec (polyetaUnpack p) p.polyetaBytes sk
  let sk := sk.drop (p.k * p.polyetaBytes)
  ⟨rho, tr, key, unpackVec polyt0Unpack 416 sk, s1, s2⟩

section

variable {p} {rho : Bytes} {t1 : Fin p.k → Poly} {s : SkParts p}

theorem unpackPk_pack (hrho : rho.length = 32) (h : ∀ i j, 0 ≤ t1 i j ∧ t1 i j < 2 ^ 10) :
    unpackPk p (packPk p rho t1) = (rho, t1) := by
  have hsize : ∀ a, (polyt1Pack a).length = 320 := fun _ => length_packArray
  have hvec := unpackVec_packVec hsize (v := t1) (fun i rest => polyt1Unpack_pack (h i) rest) []
  rw [List.append_nil] at hvec
  rw [unpackPk, packPk, List.take_left' hrho, List.drop_left' hrho]
  exact Prod.ext rfl hvec

theorem unpackSk_pack (hrho : s.rho.length = 32) (hkey : s.key.length = 32) (htr : s.tr.length = 64)
    (h1 : ∀ i j, -p.eta ≤ s.s1 i j ∧ s.s1 i j ≤ p.eta) (h2 : ∀ i j, -p.eta ≤ s.s2 i j ∧ s.s2 i j ≤ p.eta)
    (h0 : ∀ i j, -2 ^ (d - 1) < s.t0 i j ∧ s.t0 i j ≤ 2 ^ (d - 1)) :
    unpackSk p (packSk p s) = s := by
  have hsize : ∀ a, (polyetaPack p a).length = p.polyetaBytes := fun _ =>
    length_packArray.trans (by cases p <;> rfl)
  have hsize0 : ∀ a, (polyt0Pack a).length = 416 := fun _ => length_packArray
  have hs1 := unpackVec_packVec hsize (v := s.s1) (fun i rest => polyetaUnpack_pack (h1 i) rest)
  have hs2 := unpackVec_packVec hsize (v := s.s2) (fun i rest => polyetaUnpack_pack (h2 i) rest)
  have ht0 := unpackVec_packVec hsize0 (v := s.t0) (fun i rest => polyt0Unpack_pack (h0 i) rest) []
  have hl1 : (packVec (polyetaPack p) s.s1).length = p.l * p.polyetaBytes := by
    rw [length_packVec hsize, Nat.mul_comm]
  have hl2 : (packVec (polyetaPack p) s.s2).length = p.k * p.polyetaBytes := by
    rw [length_packVec hsize, Nat.mul_comm]
  rw [List.append_nil] at ht0
  simp only [unpackSk, packSk, List.append_assoc, List.take_left' hrho, List.drop_left' hrho,
    List.take_left' hkey, List.drop_left' hkey, List.take_left' htr, List.drop_left' htr,
    List.drop_left' hl1, List.drop_left' hl2, hs1, hs2, ht0]

end

/-! ## signatures -/

/-- `CRYPTO_BYTES`. -/
def ParamSet.cryptoBytes : ℕ := p.ctildebytes + p.l * p.polyzBytes + (p.omega + p.k)

/-- The test of `pack_sig` for a hint. -/
def isSet (x : ℤ) : Bool := x != 0

/-- `pack_sig`. -/
def packSig (c : Bytes) (z : Fin p.l → Poly) (h : Fin p.k → Poly) : Bytes :=
  c ++ packVec (polyzPack p) z ++ Hints.packHints isSet p.omega h

/-- What `unpack_sig` writes. -/
@[ext] structure SigParts where
  c : Bytes
  z : Fin p.l → Poly
  h : Fin p.k → Poly

/-- `unpack_sig`: nothing is returned for bytes that it refuses. -/
def unpackSig (sig : Bytes) : Option (SigParts p) := do
  let c := sig.take p.ctildebytes
  let sig := sig.drop p.ctildebytes
  let z := unpackVec (polyzUnpack p) p.polyzBytes sig
  let sig := sig.drop (p.l * p.polyzBytes)
  let h ← Hints.unpackHints p.omega p.k (byteAt sig)
  some ⟨c, z, h⟩

section

variable {p} {c sig : Bytes} {z : Fin p.l → Poly} {h : Fin p.k → Poly}

theorem isSet_tells : Hints.Tells isSet := ⟨rfl, rfl⟩

/-- The weight of hints is their sum. -/
theorem weight_eq (h01 : ∀ i j, h i j = 0 ∨ h i j = 1) :
    (Hints.weight isSet h : ℤ) = ∑ i, ∑ j, h i j := by
  have hentry : ∀ i j, ((if isSet (h i j) then 1 else 0 : ℕ) : ℤ) = h i j := by
    intro i j
    rcases h01 i j with hj | hj <;> simp [isSet, hj]
  rw [Hints.weight_eq_sum]
  push_cast at hentry ⊢
  simp only [hentry]

theorem length_packVec_polyz : (packVec (polyzPack p) z).length = p.l * p.polyzBytes := by
  rw [length_packVec length_polyzPack, Nat.mul_comm]

theorem length_packSig (hc : c.length = p.ctildebytes) (h01 : ∀ i j, h i j = 0 ∨ h i j = 1)
    (hω : ∑ i, ∑ j, h i j ≤ p.omega) : (packSig p c z h).length = p.cryptoBytes := by
  have hweight : Hints.weight isSet h ≤ p.omega := by rw [← weight_eq h01] at hω; exact_mod_cast hω
  rw [packSig, List.length_append, List.length_append, hc, length_packVec_polyz,
    Hints.length_packHints hweight, ParamSet.cryptoBytes]

/-- **Signature round trip**. -/
theorem unpackSig_pack (hc : c.length = p.ctildebytes)
    (hz : ∀ i j, -p.gamma1 < z i j ∧ z i j ≤ p.gamma1) (h01 : ∀ i j, h i j = 0 ∨ h i j = 1)
    (hω : ∑ i, ∑ j, h i j ≤ p.omega) : unpackSig p (packSig p c z h) = some ⟨c, z, h⟩ := by
  have hvec := unpackVec_packVec length_polyzPack (v := z) fun i rest => polyzUnpack_pack (hz i) rest
  have homega : p.omega < 256 := by cases p <;> decide
  have hweight : Hints.weight isSet h ≤ p.omega := by rw [← weight_eq h01] at hω; exact_mod_cast hω
  have hhints := Hints.unpackHints_pack isSet_tells le_rfl homega h01 hweight []
  rw [List.append_nil] at hhints
  simp only [unpackSig, packSig, List.append_assoc, List.take_left' hc, List.drop_left' hc, hvec,
    List.drop_left' length_packVec_polyz, hhints, Option.bind_eq_bind, Option.bind_some]

/-- What is accepted is what its values pack to. -/
theorem packSig_unpack {s : SigParts p} (hlen : sig.length = p.cryptoBytes) (hs : unpackSig p sig = some s) :
    packSig p s.c s.z s.h = sig := by
  simp only [unpackSig, Option.bind_eq_bind, Option.bind_eq_some_iff, Option.some.injEq] at hs
  obtain ⟨h, hh, rfl⟩ := hs
  rw [ParamSet.cryptoBytes] at hlen
  have hz : packVec (polyzPack p) (unpackVec (polyzUnpack p) p.polyzBytes (sig.drop p.ctildebytes) :
      Fin p.l → Poly) = (sig.drop p.ctildebytes).take (p.polyzBytes * p.l) :=
    packVec_unpackVec (fun b hb => polyzPack_unpack hb)
      (by rw [List.length_drop, Nat.mul_comm]; omega)
  have hrest : ((sig.drop p.ctildebytes).drop (p.l * p.polyzBytes)).length = p.omega + p.k := by
    simp only [List.length_drop]
    omega
  have hhints : Hints.packHints isSet p.omega h =
      (sig.drop p.ctildebytes).drop (p.l * p.polyzBytes) := by
    rw [Hints.packHints_unpack isSet_tells (fun _ => byteAt_lt _ _) hh, range_map_byteAt hrest.ge,
      List.take_of_length_le hrest.le]
  rw [packSig, hz, hhints, Nat.mul_comm, List.append_assoc, List.take_append_drop, List.take_append_drop]

/-- **Canonical encoding**: what `pack_sig` writes reads back, and a byte string
that `unpack_sig` accepts is what its values pack to, so that no two accepted
byte strings have the same values. -/
theorem sig_encoding_canonical (p : ParamSet) :
    (∀ (c : Bytes) (z : Fin p.l → Poly) (h : Fin p.k → Poly), c.length = p.ctildebytes →
        (∀ i j, -p.gamma1 < z i j ∧ z i j ≤ p.gamma1) → (∀ i j, h i j = 0 ∨ h i j = 1) →
        ∑ i, ∑ j, h i j ≤ p.omega →
        (packSig p c z h).length = p.cryptoBytes ∧ unpackSig p (packSig p c z h) = some ⟨c, z, h⟩) ∧
      (∀ sig s, sig.length = p.cryptoBytes → unpackSig p sig = some s →
        packSig p s.c s.z s.h = sig) ∧
      ∀ sig sig' : Bytes, sig.length = p.cryptoBytes → sig'.length = p.cryptoBytes →
        (unpackSig p sig).isSome → unpackSig p sig = unpackSig p sig' → sig = sig' := by
  refine ⟨fun c z h hc hz h01 hω => ⟨length_packSig hc h01 hω, unpackSig_pack hc hz h01 hω⟩,
    fun sig s hlen hs => packSig_unpack hlen hs, fun sig sig' hlen hlen' hsome heq => ?_⟩
  obtain ⟨s, hs⟩ := Option.isSome_iff_exists.mp hsome
  rw [← packSig_unpack hlen hs, packSig_unpack hlen' (heq ▸ hs)]

/-- A vector with positive and negative coefficients. -/
def slope {n : ℕ} : Fin n → Poly := fun i j => i - j

/-- Hints at the positions `i` and `255` of the `i`-th polynomial. -/
def corners {n : ℕ} : Fin n → Poly := fun i j => if (j : ℕ) = i ∨ (j : ℕ) = 255 then 1 else 0

/-- A signature with twelve hints is packable, and the string it packs to is the
only one that is read as it. -/
theorem sig_encoding_canonical_corners :
    unpackSig .mode65 (packSig .mode65 (List.replicate 48 7) slope corners) =
        some ⟨List.replicate 48 7, slope, corners⟩ ∧
      ∀ sig', sig'.length = ParamSet.mode65.cryptoBytes →
        unpackSig .mode65 sig' = some ⟨List.replicate 48 7, slope, corners⟩ →
        sig' = packSig .mode65 (List.replicate 48 7) slope corners := by
  obtain ⟨hread, hwrite, -⟩ := sig_encoding_canonical .mode65
  have hz : ∀ (i : Fin 5) (j : Fin 256), -(2 ^ 19 : ℤ) < slope i j ∧ slope i j ≤ 2 ^ 19 := by
    intro i j
    unfold slope
    omega
  have h01 : ∀ (i : Fin 6) (j : Fin 256), corners i j = 0 ∨ corners i j = 1 := by
    intro i j
    unfold corners
    split <;> simp
  have hω : ∑ i : Fin 6, ∑ j, corners i j ≤ 55 := by decide +kernel
  have hpacked := hread (List.replicate 48 7) slope corners rfl hz h01 hω
  exact ⟨hpacked.2, fun sig' hlen hs => (hwrite sig' _ hlen hs).symm⟩

end

end Tlcp.MlDsa
