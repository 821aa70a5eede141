import Mathlib.Algebra.BigOperators.GroupWithZero.Action
import Mathlib.Algebra.BigOperators.Pi
import Tlcp.Lib.Lattice
import Tlcp.MlDsa.Packing

/-!
# Tlcp.MlDsa.Polyvec

The operations of `poly.c` and `polyvec.c` on whole polynomials, and what they
compute on residues modulo `Q` as long as the words stay in range.
-/

namespace Tlcp.MlDsa

open Butterfly Signed Lattice

/-! ## polynomials -/

/-- `poly_reduce`. -/
def polyReduce (a : Poly) : Poly := fun i => reduce32 (a i)

/-- `poly_caddq`. -/
def polyCaddq (a : Poly) : Poly := fun i => caddq (a i)

/-- `poly_add`. -/
def polyAdd (a b : Poly) : Poly := fun i => int32 (a i + b i)

/-- `poly_sub`. -/
def polySub (a b : Poly) : Poly := fun i => int32 (a i - b i)

/-- `poly_shiftl`. -/
def polyShiftl (a : Poly) : Poly := fun i => int32 (a i * 2 ^ d)

/-- `poly_pointwise_montgomery`. -/
def polyPointwiseMontgomery (a b : Poly) : Poly := fun i => montgomeryReduce (a i * b i)

/-- `poly_chknorm`: whether a coefficient is not below the bound, or the bound is
too large. -/
def polyChknorm (a : Poly) (bound : ℤ) : Bool := if (q - 1) / 8 < bound then true
  else (List.finRange 256).any fun i => bound ≤ int32 (a i - if a i < 0 then int32 (2 * a i) else 0)

/-! ## vectors -/

section

variable {n : ℕ}

/-- `polyvecl_reduce` and `polyveck_reduce`. -/
def polyvecReduce (v : Fin n → Poly) : Fin n → Poly := fun i => polyReduce (v i)

/-- `polyveck_caddq`. -/
def polyveckCaddq (v : Fin n → Poly) : Fin n → Poly := fun i => polyCaddq (v i)

/-- `polyvecl_add` and `polyveck_add`. -/
def polyvecAdd (u v : Fin n → Poly) : Fin n → Poly := fun i => polyAdd (u i) (v i)

/-- `polyveck_sub`. -/
def polyveckSub (u v : Fin n → Poly) : Fin n → Poly := fun i => polySub (u i) (v i)

/-- `polyveck_shiftl`. -/
def polyveckShiftl (v : Fin n → Poly) : Fin n → Poly := fun i => polyShiftl (v i)

/-- `polyvecl_ntt` and `polyveck_ntt`. -/
def polyvecNtt (v : Fin n → Poly) : Fin n → Poly := fun i => ntt (v i)

/-- `polyvecl_invntt_tomont` and `polyveck_invntt_tomont`. -/
def polyvecInvnttTomont (v : Fin n → Poly) : Fin n → Poly := fun i => invnttTomont (v i)

/-- `polyvecl_pointwise_poly_montgomery` and `polyveck_pointwise_poly_montgomery`. -/
def polyvecPointwisePolyMontgomery (a : Poly) (v : Fin n → Poly) : Fin n → Poly :=
  fun i => polyPointwiseMontgomery a (v i)

/-- `polyvecl_chknorm` and `polyveck_chknorm`. -/
def polyvecChknorm (v : Fin n → Poly) (bound : ℤ) : Bool :=
  (List.finRange n).any fun i => polyChknorm (v i) bound

/-- `polyveck_power2round`: the high parts and the low parts. -/
def polyveckPower2round (v : Fin n → Poly) : (Fin n → Poly) × (Fin n → Poly) :=
  (fun i j => (power2round (v i j)).1, fun i j => (power2round (v i j)).2)

/-- `polyveck_decompose`: the high parts and the low parts. -/
def polyveckDecompose (p : ParamSet) (v : Fin n → Poly) : (Fin n → Poly) × (Fin n → Poly) :=
  (fun i j => (decompose p (v i j)).1, fun i j => (decompose p (v i j)).2)

/-- `polyveck_make_hint`: the hints and their number. -/
def polyveckMakeHint (p : ParamSet) (v0 v1 : Fin n → Poly) : (Fin n → Poly) × ℤ :=
  let h : Fin n → Poly := fun i j => makeHint p (v0 i j) (v1 i j)
  (h, ∑ i, ∑ j, h i j)

/-- `polyveck_use_hint`. -/
def polyveckUseHint (p : ParamSet) (u h : Fin n → Poly) : Fin n → Poly :=
  fun i j => useHint p (u i j) (h i j)

end

/-- `polyvecl_pointwise_acc_montgomery`. -/
def polyveclPointwiseAccMontgomery {n : ℕ} (u v : Fin n → Poly) : Poly :=
  (List.range' 1 (n - 1)).foldl
    (fun w i => polyAdd w (polyPointwiseMontgomery (cell u i) (cell v i)))
    (polyPointwiseMontgomery (cell u 0) (cell v 0))

/-- `polyvec_matrix_pointwise_montgomery`. -/
def polyvecMatrixPointwiseMontgomery {k l : ℕ} (mat : Fin k → Fin l → Poly) (v : Fin l → Poly) : Fin k → Poly :=
  fun i => polyveclPointwiseAccMontgomery (mat i) v

/-! ## residues -/

section

variable {c c' : ℤ} {a b : Poly} {u v : Fin 256 → ZMod q}

theorem polyAdd_rep (ha : Reps q c a u) (hb : Reps q c' b v) (hc : c + c' < 2 ^ 31) :
    Reps q (c + c') (polyAdd a b) (u + v) :=
  fun i => Rep.int32 ((ha i).add (hb i)) hc

theorem polySub_rep (ha : Reps q c a u) (hb : Reps q c' b v) (hc : c + c' < 2 ^ 31) :
    Reps q (c + c') (polySub a b) (u - v) :=
  fun i => Rep.int32 ((ha i).sub (hb i)) hc

theorem polyReduce_rep (ha : Reps q c a u) (hc : c < 2 ^ 31 - 2 ^ 22) : Reps q 6283009 (polyReduce a) u :=
  fun i => reduce32_rep (ha i) hc

/-- The words of `poly_caddq` are not negative. -/
theorem polyCaddq_spec (ha : Reps q (q - 1) a u) (i : Fin 256) :
    0 ≤ polyCaddq a i ∧ polyCaddq a i < q ∧ ((polyCaddq a i : ℤ) : ZMod q) = u i := by
  have hq := q_eq
  have hlo := (ha i).lo
  have hhi := (ha i).hi
  refine ⟨?_, ?_, (caddq_cast (by omega) (by omega)).trans (ha i).cast⟩
  all_goals
    rw [polyCaddq, caddq_eq (by omega) (by omega)]
    split <;> omega

/-- The factors are as `ntt` leaves them. -/
theorem polyPointwise_rep (ha : Reps q (9 * q) a u) (hb : Reps q (9 * q) b v) :
    Reps q (q - 1) (polyPointwiseMontgomery a b) (rho • (u * v)) := by
  intro i
  have h := montgomeryReduce_mul (ha i) (hb i) (by decide)
  rwa [mul_assoc] at h

theorem polyveclPointwiseAcc_rep {n : ℕ} {a b : Fin n → Poly} {u v : Fin n → Fin 256 → ZMod q}
    (hn : 0 < n) (hn' : n ≤ 7) (ha : ∀ i, Reps q (9 * q) (a i) (u i)) (hb : ∀ i, Reps q (9 * q) (b i) (v i)) :
    Reps q (7 * (q - 1)) (polyveclPointwiseAccMontgomery a b) (rho • ∑ i, u i * v i) := by
  have hq := q_eq
  have hsum := accumulate_reps (w := 32) (c := q - 1) (n := n - 1) (q := q)
    (f := fun i => polyPointwiseMontgomery (cell a i) (cell b i))
    (u := fun i => rho • (cell u i * cell v i)) (by omega)
    (by push_cast [Nat.cast_sub hn]; rw [hq]; omega) fun i hi => by
      have hlt : i < n := by omega
      simp only [cell_of_lt _ hlt]
      exact polyPointwise_rep (ha _) (hb _)
  rw [Nat.sub_add_cancel hn, ← Fin.sum_univ_eq_sum_range (fun i => rho • (cell u i * cell v i)),
    ← Finset.smul_sum] at hsum
  simp only [cell_val] at hsum
  exact hsum.mono (by push_cast [Nat.cast_sub hn]; rw [hq]; omega)

theorem polyShiftl_eq (h : ∀ i, 0 ≤ a i ∧ a i < 2 ^ 10) (i : Fin 256) :
    polyShiftl a i = a i * 2 ^ d ∧ 0 ≤ polyShiftl a i ∧ polyShiftl a i < q := by
  have hi := h i
  have hq := q_eq
  have hd : (2 : ℤ) ^ d = 8192 := by decide
  have hfit : polyShiftl a i = a i * 2 ^ d := int32_of_lt (by rw [hd]; omega) (by rw [hd]; omega)
  rw [hfit, hd]
  omega

/-- Whether a polynomial passes `poly_chknorm`. -/
theorem polyvecChknorm_eq_false {n : ℕ} {w : Fin n → Poly} {bound : ℤ} (hb : bound ≤ (q - 1) / 8)
    (hw : ∀ i j, -2 ^ 30 ≤ w i j ∧ w i j < 2 ^ 30) :
    polyvecChknorm w bound = false ↔ ∀ i j, -bound < w i j ∧ w i j < bound := by
  have habs : ∀ x : ℤ, -2 ^ 30 ≤ x ∧ x < 2 ^ 30 →
      (int32 (x - if x < 0 then int32 (2 * x) else 0) < bound ↔ -bound < x ∧ x < bound) := by
    intro x hx
    split
    · rw [int32_of_lt (x := 2 * x) (by omega) (by omega), int32_of_lt (by omega) (by omega)]
      omega
    · rw [int32_of_lt (by omega) (by omega)]
      omega
  simp only [polyvecChknorm, polyChknorm, if_neg (not_lt.mpr hb), List.any_eq_false, List.mem_finRange,
    true_implies, decide_eq_true_eq, not_le, Bool.not_eq_true]
  exact forall_congr' fun i => forall_congr' fun j => habs _ (hw i j)

end

end Tlcp.MlDsa
