import Tlcp.AigisEnc.Compress

/-!
# Tlcp.AigisEnc.Polyvec

The products of `owcpa.c`: a sum of products of transforms, the inverse transform,
noise, and the correction into `[0, q)`, each within 16 bits.
-/

namespace Tlcp.AigisEnc

open Butterfly Signed

/-- `poly_add`. -/
def polyAdd (a b : Poly) : Poly := fun i => int16 (a i + b i)

/-- `poly_sub`. -/
def polySub (a b : Poly) : Poly := fun i => int16 (a i - b i)

variable {p : ParamSet}

/-- `polyvec_ntt`. -/
def polyvecNtt (a : PolyVec p) : PolyVec p := fun i => ntt (a i)

/-- `polyvec_pointwise_acc`. -/
def polyvecPointwiseAcc (a b : PolyVec p) : Poly :=
  let term := fun i j => montgomeryReduce (cell a i j * montgomeryReduce (5569 * cell b i j))
  let r := (List.range' 1 (p.k - 1)).foldl (fun r i j => int16 (r j + term i j)) (term 0)
  fun j => barrettReduce (r j)

/-- The words of a polynomial are in `[0, q)` and stand for `u`. -/
def Stands (a : Poly) (u : Fin 256 → ZMod q) : Prop := ∀ i, Canonical (a i) ∧ (a i : ZMod q) = u i

variable {a b : PolyVec p} {u v : Fin p.k → Fin 256 → ZMod q} {x y : Poly} {w w' : Fin 256 → ZMod q}

theorem Stands.reps (h : Stands x w) : Reps q q x w := fun i =>
  ⟨by have := (h i).1.1; omega, (h i).1.2.le, (h i).2⟩

theorem caddq_canonical {a c : ℤ} {u : ZMod q} (h : Rep q c a u) (hc : c < q) :
    Canonical (caddq a) ∧ ((caddq a : ℤ) : ZMod q) = u := by
  have hlo := h.lo
  have hhi := h.hi
  obtain ⟨heq, hcast⟩ := caddq_eq (h.mono (by omega))
  refine ⟨?_, hcast⟩
  rw [heq, Canonical]
  split <;> omega

/-- `caddq2` after the subtraction of a polynomial in `[0, q)`. -/
theorem caddq2_stands (hx : Reps q 5288 x w) (hy : Stands y w') :
    Stands (fun j => caddq2 (polySub x y j)) (w - w') := by
  intro l
  have hlo := (hx l).lo
  have hhi := (hx l).hi
  obtain ⟨hy₀, hyq⟩ := (hy l).1
  rw [q_eq] at hyq
  have hsub : polySub x y l = x l - y l := int16_of_lt (by omega) (by omega)
  obtain ⟨heq, hcast⟩ := caddq_eq (((hx l).sub (hy.reps l)).mono (by decide))
  rw [← hsub] at heq hcast
  refine caddq_canonical (a := caddq (polySub x y l)) (c := 7680) ⟨?_, ?_, hcast⟩ (by decide)
  all_goals
    rw [heq, hsub, q_eq]
    split <;> omega

theorem polyvecNtt_rep (ha : ∀ i, Reps q q (a i) (u i)) (i : Fin p.k) :
    Reps q q (polyvecNtt a i) (nttRes (u i)) :=
  (ntt_rep (ha i) le_rfl).mono (by decide)

/-- The two reductions of a product cancel the factor they multiply with. -/
theorem term_rep {x y : ℤ} {u v : ZMod q} (hx : Rep q q x u) (hy : Rep q q y v) :
    Rep q 4367 (montgomeryReduce (x * montgomeryReduce (5569 * y))) (u * v) := by
  have hfactor := cast_eq_zero (x := 900 * 900 * 5569 - 1) (by decide)
  have ht := montgomeryReduce_mul (x := 5569) (u := 5569) ⟨by decide, le_rfl, rfl⟩ hy (m := 1306) (b := 4493)
    (by decide) (by decide) (by decide)
  convert montgomeryReduce_mul hx ht (m := 1054) (b := 4367) (by decide) (by decide) (by decide) using 1
  push_cast at hfactor
  rw [rho]
  linear_combination -(u * v) * hfactor

theorem polyvecPointwiseAcc_rep (ha : ∀ i, Reps q q (a i) (u i)) (hb : ∀ i, Reps q q (b i) (v i)) :
    Reps q 6140 (polyvecPointwiseAcc a b) (∑ i, u i * v i) := by
  have hk : 0 < p.k ∧ p.k ≤ 4 := by cases p <;> decide
  -- up to four terms of at most 4367 each stay below 2 ^ 15
  have hsum := accumulate_reps (q := q) (w := 16) (n := p.k - 1) (c := 4367) (by decide) (by omega)
    (f := fun i j => montgomeryReduce (cell a i j * montgomeryReduce (5569 * cell b i j)))
    (u := fun i => cell u i * cell v i) fun i hi j => by
      have hlt : i < p.k := by omega
      simp only [cell_of_lt _ hlt, Pi.mul_apply]
      exact term_rep (ha _ j) (hb _ j)
  rw [Nat.sub_add_cancel hk.1, ← Fin.sum_univ_eq_sum_range (fun i => cell u i * cell v i)] at hsum
  simp only [cell_val] at hsum
  exact fun j => barrettReduce_rep (hsum j) (by omega)

/-- **Products**: for vectors of transforms, as `polyvec_ntt` leaves them, a key holds
them or the matrix is sampled, 16-bit words are enough.  With noise added, and with
a polynomial subtracted, what is packed is exact and in `[0, q)`. -/
theorem products_exact {e : Poly} {n : Fin 256 → ZMod q} (ha : ∀ i, Reps q q (a i) (nttRes (u i)))
    (hb : ∀ i, Reps q q (b i) (nttRes (v i))) (he : Reps q 8 e n) (hy : Stands y w) :
    Reps q 5280 (invntt (polyvecPointwiseAcc a b)) (∑ i, Ntt.negaMul (u i) (v i)) ∧
      Stands (fun j => caddq (polyAdd (invntt (polyvecPointwiseAcc a b)) e j))
        (∑ i, Ntt.negaMul (u i) (v i) + n) ∧
      Stands (fun j => caddq2 (polySub (polyAdd (invntt (polyvecPointwiseAcc a b)) e) y j))
        (∑ i, Ntt.negaMul (u i) (v i) + n - w) ∧
      Stands (fun j => caddq2 (polySub (invntt (polyvecPointwiseAcc a b)) y j))
        (∑ i, Ntt.negaMul (u i) (v i) - w) := by
  have hsum := invntt_rep (polyvecPointwiseAcc_rep ha hb)
  simp only [← nttRes_negaMul, ← map_sum] at hsum
  rw [invnttRes_nttRes] at hsum
  have hnoise : Reps q 5288 (polyAdd (invntt (polyvecPointwiseAcc a b)) e)
      (∑ i, Ntt.negaMul (u i) (v i) + n) :=
    fun j => Rep.int16 ((hsum j).add (he j)) (by decide)
  exact ⟨hsum, fun j => caddq_canonical (hnoise j) (by decide), caddq2_stands hnoise hy,
    caddq2_stands (hsum.mono (by decide)) hy⟩

theorem products_exact_ones :
    Stands (fun j => caddq (polyAdd (invntt (polyvecPointwiseAcc
        (polyvecNtt fun (_ : Fin ParamSet.params4.k) _ => 1) (polyvecNtt fun _ _ => 1))) (fun _ => 1) j))
      (∑ _ : Fin ParamSet.params4.k, Ntt.negaMul (residues q fun _ => 1) (residues q fun _ => 1) +
        residues q fun _ => 1) := by
  have hone : Reps q 8 (fun _ : Fin 256 => 1) (residues q fun _ => 1) := reps_residues fun _ => ⟨by omega, by omega⟩
  have hhat := polyvecNtt_rep fun (_ : Fin ParamSet.params4.k) => hone.mono (by decide)
  have hstands : Stands (fun _ => 1) (residues q fun _ => 1) := fun _ => ⟨show 0 ≤ (1 : ℤ) ∧ (1 : ℤ) < q by decide, rfl⟩
  exact (products_exact hhat hhat hone hstands).2.1

end Tlcp.AigisEnc
