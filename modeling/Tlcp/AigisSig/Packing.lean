import Tlcp.Pqmagic.Codecs
import Tlcp.AigisSig.Rounding
import Tlcp.Lib.Packed

/-!
# Tlcp.AigisSig.Packing

The packing of polynomials with small coefficients (the `poly*_pack` and
`poly*_unpack` functions of `poly.c`) and of the two keys (`packing.c`).  Every
packer maps a coefficient to a small integer first; the round trips hold for
the coefficients for which that integer fits.
-/

namespace Tlcp.AigisSig

open Octets Butterfly BitPack

/-! ## polynomials -/

/-- The packing of `polyeta1_pack` and `polyeta1_unpack`. -/
def eta1Codec : ParamSet → Codec
  | .params3 => bits2
  | _ => bits3

/-- The packing of `polyeta2_pack` and `polyeta2_unpack`. -/
def eta2Codec : ParamSet → Codec
  | .params1 => bits3
  | _ => bits4

/-- The packing of `polyt0_pack` and `polyt0_unpack`. -/
def t0Codec : ParamSet → Codec
  | .params1 => bits13
  | _ => bits14

/-- Pack the integers that `f` makes of the coefficients. -/
def packWith (c : Codec) (f : ℕ → ℕ) (a : Poly) : Bytes := pack c (256 / c.g) fun i => f (cell a i)

/-- Unpack integers and make coefficients of them. -/
def unpackWith (c : Codec) (f : ℕ → ℕ) (b : Bytes) : Poly := fun i => f (unpack c b i)

variable (p : ParamSet)

/-- `polyeta1_pack`; the integers are of type `unsigned char`. -/
def polyeta1Pack : Poly → Bytes :=
  packWith (eta1Codec p) fun x => sub32 (p.q + p.eta1) x % 256

/-- `polyeta1_unpack`. -/
def polyeta1Unpack : Bytes → Poly :=
  unpackWith (eta1Codec p) fun t => sub32 (p.q + p.eta1) t

/-- `polyeta2_pack`; the integers are of type `unsigned char`. -/
def polyeta2Pack : Poly → Bytes :=
  packWith (eta2Codec p) fun x => sub32 (p.q + p.eta2) x % 256

/-- `polyeta2_unpack`. -/
def polyeta2Unpack : Bytes → Poly :=
  unpackWith (eta2Codec p) fun t => sub32 (p.q + p.eta2) t

/-- `polyt1_pack`. -/
def polyt1Pack : Poly → Bytes := packWith bits8 id

/-- `polyt1_unpack`. -/
def polyt1Unpack : Bytes → Poly := unpackWith bits8 id

/-- `polyt0_pack`. -/
def polyt0Pack : Poly → Bytes :=
  packWith (t0Codec p) fun x => sub32 (p.q + 2 ^ (p.d - 1)) x

/-- `polyt0_unpack`. -/
def polyt0Unpack : Bytes → Poly :=
  unpackWith (t0Codec p) fun t => sub32 (p.q + 2 ^ (p.d - 1)) t

/-- The map between the coefficients of `z` and eighteen bits, the same in both
directions. -/
def zMap (x : ℕ) : ℕ := let t := sub32 (p.gamma1 - 1) x
  add32 t (maskNeg t p.q)

/-- `polyz_pack`. -/
def polyzPack : Poly → Bytes := packWith bits18 (zMap p)

/-- `polyz_unpack`. -/
def polyzUnpack : Bytes → Poly := unpackWith bits18 (zMap p)

/-- `polyw1_pack`; the code of a group is that of `bits3`. -/
def polyw1Pack : Poly → Bytes := packWith bits3 id

section

variable {c : Codec} {f f' : ℕ → ℕ} {a : Poly}

/-- The groups of a codec fill a polynomial. -/
abbrev Codec.Fits (c : Codec) : Prop := c.g * (256 / c.g) = 256

@[simp] theorem length_packWith : (packWith c f a).length = c.m * (256 / c.g) := length_pack

/-- A polynomial reads back when the maps are inverse on its coefficients. -/
theorem unpackWith_packWith (hc : Codec.Fits c) (hf : ∀ i, f (a i) < c.bound ∧ f' (f (a i)) = a i)
    (rest : Bytes) : unpackWith c f' (packWith c f a ++ rest) = a :=
  Packed.unpackArray_packArray (Dvd.intro _ hc) hf rest

/-- The packers that store the distance of a coefficient from a constant. -/
theorem unpackWith_packWith_sub {m : ℕ} (hc : Codec.Fits c) (hm : m < 2 ^ 32)
    (h : ∀ i, a i ≤ m ∧ m - a i < c.bound) (hf : ∀ x ≤ m, m - x < c.bound → f x = m - x) (rest : Bytes) :
    unpackWith c (sub32 m) (packWith c f a ++ rest) = a := by
  refine unpackWith_packWith hc (fun i => ?_) rest
  obtain ⟨hle, hlt⟩ := h i
  rw [hf _ hle hlt, sub32_of_le (by omega) hm]
  omega

end

section

variable {p} {a : Poly} (rest : Bytes)

theorem polyeta1Unpack_pack (h : ∀ i, p.q ≤ a i + p.eta1 ∧ a i ≤ p.q + p.eta1) :
    polyeta1Unpack p (polyeta1Pack p a ++ rest) = a := by
  have hb : 2 * p.eta1 < (eta1Codec p).bound ∧ (eta1Codec p).bound ≤ 256 := by cases p <;> decide
  have hm : p.q + p.eta1 < 2 ^ 32 := by cases p <;> decide
  refine unpackWith_packWith_sub (by cases p <;> rfl) hm (fun i => ?_) (fun x hx hlt => ?_) rest
  · have := h i
    omega
  · rw [sub32_of_le hx hm, Nat.mod_eq_of_lt (by omega)]

theorem polyeta2Unpack_pack (h : ∀ i, p.q ≤ a i + p.eta2 ∧ a i ≤ p.q + p.eta2) :
    polyeta2Unpack p (polyeta2Pack p a ++ rest) = a := by
  have hb : 2 * p.eta2 < (eta2Codec p).bound ∧ (eta2Codec p).bound ≤ 256 := by cases p <;> decide
  have hm : p.q + p.eta2 < 2 ^ 32 := by cases p <;> decide
  refine unpackWith_packWith_sub (by cases p <;> rfl) hm (fun i => ?_) (fun x hx hlt => ?_) rest
  · have := h i
    omega
  · rw [sub32_of_le hx hm, Nat.mod_eq_of_lt (by omega)]

theorem polyt0Unpack_pack (h : ∀ i, p.q < a i + 2 ^ (p.d - 1) ∧ a i ≤ p.q + 2 ^ (p.d - 1)) :
    polyt0Unpack p (polyt0Pack p a ++ rest) = a := by
  have hb : 2 * 2 ^ (p.d - 1) = (t0Codec p).bound := by cases p <;> rfl
  have hm : p.q + 2 ^ (p.d - 1) < 2 ^ 32 := by cases p <;> decide
  refine unpackWith_packWith_sub (by cases p <;> rfl) hm (fun i => ?_) (fun x hx _ => sub32_of_le hx hm) rest
  have := h i
  omega

theorem polyt1Unpack_pack (h : ∀ i, a i < 256) : polyt1Unpack (polyt1Pack a ++ rest) = a :=
  unpackWith_packWith (by decide) (fun i => ⟨h i, rfl⟩) rest

theorem gamma1_lt (p : ParamSet) : 2 * p.gamma1 = 2 ^ 18 ∧ 2 ^ 18 < p.q := by cases p <;> decide

/-- `zMap` on both sides of `GAMMA1`. -/
theorem zMap_eq {x : ℕ} (hx : x < p.q) :
    zMap p x = if x < p.gamma1 then p.gamma1 - 1 - x else p.q + (p.gamma1 - 1) - x := by
  have hq := q_lt p
  have hg := gamma1_lt p
  unfold zMap add32 sub32 maskNeg
  split <;> simp only <;> split <;> omega

theorem zMap_zMap {x : ℕ} (hx : x < p.q) : zMap p (zMap p x) = x := by
  have hg := gamma1_lt p
  have hval := zMap_eq hx
  by_cases hlt : x < p.gamma1
  · rw [if_pos hlt] at hval
    rw [hval, zMap_eq (by omega), if_pos (by omega)]
    omega
  · rw [if_neg hlt] at hval
    rw [hval, zMap_eq (by omega), if_neg (by omega)]
    omega

theorem polyzUnpack_pack (h : ∀ i, a i < p.q ∧ zMap p (a i) < 2 ^ 18) :
    polyzUnpack p (polyzPack p a ++ rest) = a :=
  unpackWith_packWith (by decide) (fun i => ⟨(h i).2, zMap_zMap (h i).1⟩) rest

/-- The eighteen bits that a small coefficient takes. -/
theorem zMap_lt {x : ℕ} (hx : x < p.q) (h : centredAbs p x < p.gamma1) : zMap p x < 2 ^ 18 := by
  have hg := gamma1_lt p
  have hnorm := (centredAbs_lt_iff hx).mp h
  rw [zMap_eq hx]
  split <;> omega

/-- Every packed `z` is what its polynomial packs to. -/
theorem polyzPack_unpack {b : Bytes} (hb : 576 ≤ b.length) :
    polyzPack p (polyzUnpack p b) = b.take 576 :=
  Packed.packArray_unpackArray bits18_tight (by decide) (by decide)
    (fun _ ht => zMap_zMap (lt_trans ht (gamma1_lt p).2)) hb

end

/-! ## vectors -/

/-- Polynomials one after the other. -/
def packVec {n : ℕ} (f : Poly → Bytes) (v : Fin n → Poly) : Bytes :=
  (List.range n).flatMap fun i => f (cell v i)

/-- Polynomials of `size` bytes each. -/
def unpackVec {n : ℕ} (f : Bytes → Poly) (size : ℕ) (b : Bytes) : Fin n → Poly :=
  fun i => f (b.drop (size * i))

section

variable {n size : ℕ} {f : Poly → Bytes} {f' : Bytes → Poly} {v : Fin n → Poly}

theorem length_packVec (hf : ∀ a, (f a).length = size) : (packVec f v).length = size * n :=
  Packed.length_packVec hf

theorem unpackVec_packVec (hf : ∀ a, (f a).length = size) (h : ∀ i rest, f' (f (v i) ++ rest) = v i)
    (rest : Bytes) : unpackVec f' size (packVec f v ++ rest) = v :=
  Packed.unpackVec_packVec hf h rest

theorem packVec_unpackVec (hf : ∀ b, size ≤ b.length → f (f' b) = b.take size) {b : Bytes}
    (hb : size * n ≤ b.length) :
    packVec f (unpackVec f' size b : Fin n → Poly) = b.take (size * n) :=
  Packed.packVec_unpackVec hf hb

end

/-! ## keys -/

/-- `pack_pk`. -/
def packPk (rho : Bytes) (t1 : Fin p.k → Poly) : Bytes := rho ++ packVec polyt1Pack t1

/-- `unpack_pk`. -/
def unpackPk (pk : Bytes) : Bytes × (Fin p.k → Poly) :=
  (pk.take 32, unpackVec polyt1Unpack 256 (pk.drop 32))

/-- `POLETA1_SIZE_PACKED`. -/
def ParamSet.poleta1Size : ParamSet → ℕ
  | params3 => 64
  | _ => 96

/-- `POLETA2_SIZE_PACKED`. -/
def ParamSet.poleta2Size : ParamSet → ℕ
  | params1 => 96
  | _ => 128

/-- `POLT0_SIZE_PACKED`. -/
def ParamSet.polt0Size : ParamSet → ℕ
  | params1 => 416
  | _ => 448

/-- `pack_sk`. -/
def packSk (buf : Bytes) (s1 : Fin p.l → Poly) (s2 t0 : Fin p.k → Poly) : Bytes :=
  buf ++ packVec (polyeta1Pack p) s1 ++ packVec (polyeta2Pack p) s2 ++ packVec (polyt0Pack p) t0

/-- What `unpack_sk` gives. -/
structure SkParts where
  buf : Bytes
  s1 : Fin p.l → Poly
  s2 : Fin p.k → Poly
  t0 : Fin p.k → Poly

/-- `unpack_sk`. -/
def unpackSk (sk : Bytes) : SkParts p := let buf := sk.take 112
  let sk := sk.drop 112
  let s1 := unpackVec (polyeta1Unpack p) p.poleta1Size sk
  let sk := sk.drop (p.l * p.poleta1Size)
  let s2 := unpackVec (polyeta2Unpack p) p.poleta2Size sk
  let sk := sk.drop (p.k * p.poleta2Size)
  ⟨buf, s1, s2, unpackVec (polyt0Unpack p) p.polt0Size sk⟩

section

variable {p} {s1 : Fin p.l → Poly} {t1 s2 t0 : Fin p.k → Poly} {rho buf : Bytes}

theorem unpackPk_pack (hrho : rho.length = 32) (h : ∀ i j, t1 i j < 256) :
    unpackPk p (packPk p rho t1) = (rho, t1) := by
  have hsize : ∀ a, (polyt1Pack a).length = 256 := fun _ => length_packWith
  have hvec := unpackVec_packVec hsize (v := t1) (fun i rest => polyt1Unpack_pack rest (h i)) []
  rw [List.append_nil] at hvec
  rw [unpackPk, packPk, List.take_left' hrho, List.drop_left' hrho]
  exact Prod.ext rfl hvec

theorem unpackSk_pack (hbuf : buf.length = 112)
    (h1 : ∀ i j, p.q ≤ s1 i j + p.eta1 ∧ s1 i j ≤ p.q + p.eta1)
    (h2 : ∀ i j, p.q ≤ s2 i j + p.eta2 ∧ s2 i j ≤ p.q + p.eta2)
    (h0 : ∀ i j, p.q < t0 i j + 2 ^ (p.d - 1) ∧ t0 i j ≤ p.q + 2 ^ (p.d - 1)) :
    unpackSk p (packSk p buf s1 s2 t0) = ⟨buf, s1, s2, t0⟩ := by
  have hsize1 : ∀ a, (polyeta1Pack p a).length = p.poleta1Size := fun _ =>
    length_packWith.trans (by cases p <;> rfl)
  have hsize2 : ∀ a, (polyeta2Pack p a).length = p.poleta2Size := fun _ =>
    length_packWith.trans (by cases p <;> rfl)
  have hsize0 : ∀ a, (polyt0Pack p a).length = p.polt0Size := fun _ =>
    length_packWith.trans (by cases p <;> rfl)
  have hs1 := unpackVec_packVec hsize1 (v := s1) (fun i rest => polyeta1Unpack_pack rest (h1 i))
  have hs2 := unpackVec_packVec hsize2 (v := s2) (fun i rest => polyeta2Unpack_pack rest (h2 i))
  have ht0 := unpackVec_packVec hsize0 (v := t0) (fun i rest => polyt0Unpack_pack rest (h0 i)) []
  have hl1 : (packVec (polyeta1Pack p) s1).length = p.l * p.poleta1Size := by
    rw [length_packVec hsize1, Nat.mul_comm]
  have hl2 : (packVec (polyeta2Pack p) s2).length = p.k * p.poleta2Size := by
    rw [length_packVec hsize2, Nat.mul_comm]
  rw [List.append_nil] at ht0
  simp only [unpackSk, packSk, List.append_assoc, List.take_left' hbuf, List.drop_left' hbuf,
    List.drop_left' hl1, List.drop_left' hl2, hs1, hs2, ht0]

end

end Tlcp.AigisSig
