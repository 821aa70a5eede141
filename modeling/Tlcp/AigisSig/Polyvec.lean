import Mathlib.Algebra.BigOperators.GroupWithZero.Action
import Mathlib.Algebra.BigOperators.Pi
import Tlcp.AigisSig.SigBytes

/-!
# Tlcp.AigisSig.Polyvec

The operations of `poly.c` and `polyvec.c` on whole polynomials.  What one of
them computes is said on residues: the words it is given stand for a vector
over the integers modulo `PARAM_Q`, and so do those it returns.
-/

namespace Tlcp.AigisSig

open Butterfly

/-! ## polynomials -/

variable (p : ParamSet)

/-- `poly_freeze4q`. -/
def polyFreeze4q (a : Poly) : Poly := fun i => freeze4q p (a i)

/-- `poly_freeze2q`, which calls `freeze4q` too. -/
def polyFreeze2q (a : Poly) : Poly := fun i => freeze4q p (a i)

/-- `poly_add`. -/
def polyAdd (a b : Poly) : Poly := fun i => add32 (a i) (b i)

/-- `poly_sub`. -/
def polySub (a b : Poly) : Poly := fun i => sub32 (add32 (a i) (2 * p.q)) (b i)

/-- `poly_neg`. -/
def polyNeg (a : Poly) : Poly := fun i => sub32 (2 * p.q) (a i)

/-- `poly_shiftl`. -/
def polyShiftl (a : Poly) (k : ℕ) : Poly := fun i => a i <<< k % 2 ^ 32

/-- `poly_pointwise_invmontgomery`. -/
def polyPointwiseInvmontgomery (a b : Poly) : Poly :=
  fun i => montgomeryReduce p (a i * b i)

/-- `poly_chknorm`: whether a coefficient is not below the bound. -/
def polyChknorm (a : Poly) (bound : ℕ) : Bool :=
  (List.finRange 256).any fun i => bound ≤ centredAbs p (a i)

/-! ## vectors -/

section

variable {n : ℕ}

/-- `polyvecl_freeze4q` and `polyveck_freeze4q`. -/
def polyvecFreeze4q (v : Fin n → Poly) : Fin n → Poly := fun i => polyFreeze4q p (v i)

/-- `polyveck_freeze2q`. -/
def polyveckFreeze2q (v : Fin n → Poly) : Fin n → Poly := fun i => polyFreeze2q p (v i)

/-- `polyvecl_add` and `polyveck_add`. -/
def polyvecAdd (u v : Fin n → Poly) : Fin n → Poly := fun i => polyAdd (u i) (v i)

/-- `polyveck_sub`. -/
def polyveckSub (u v : Fin n → Poly) : Fin n → Poly := fun i => polySub p (u i) (v i)

/-- `polyveck_neg`. -/
def polyveckNeg (v : Fin n → Poly) : Fin n → Poly := fun i => polyNeg p (v i)

/-- `polyveck_shiftl`. -/
def polyveckShiftl (v : Fin n → Poly) (k : ℕ) : Fin n → Poly := fun i => polyShiftl (v i) k

/-- `polyvecl_ntt` and `polyveck_ntt`. -/
def polyvecNtt (v : Fin n → Poly) : Fin n → Poly := fun i => ntt p (v i)

/-- `polyveck_invntt_montgomery`. -/
def polyveckInvnttMontgomery (v : Fin n → Poly) : Fin n → Poly :=
  fun i => invnttFrominvmont p (v i)

/-- `polyvecl_chknorm` and `polyveck_chknorm`. -/
def polyvecChknorm (v : Fin n → Poly) (bound : ℕ) : Bool :=
  (List.finRange n).any fun i => polyChknorm p (v i) bound

end

/-- `polyvecl_pointwise_acc_invmontgomery`. -/
def polyveclPointwiseAccInvmontgomery (u v : Fin p.l → Poly) : Poly :=
  let w := (List.range' 1 (p.l - 1)).foldl
    (fun w i => polyAdd w (polyPointwiseInvmontgomery p (cell u i) (cell v i)))
    (polyPointwiseInvmontgomery p (cell u 0) (cell v 0))
  fun i => barratReduce p (w i)

/-- `polyveck_power2round`: the high parts and the low parts. -/
def polyveckPower2round (v : Fin p.k → Poly) : (Fin p.k → Poly) × (Fin p.k → Poly) :=
  (fun i j => (power2round p (v i j)).1, fun i j => (power2round p (v i j)).2)

/-- `polyveck_decompose`: the high parts and the low parts. -/
def polyveckDecompose (v : Fin p.k → Poly) : (Fin p.k → Poly) × (Fin p.k → Poly) :=
  (fun i j => (decompose p (v i j)).1, fun i j => (decompose p (v i j)).2)

/-- `polyveck_make_hint`: the hints and their number. -/
def polyveckMakeHint (u v : Fin p.k → Poly) : (Fin p.k → Poly) × ℕ :=
  let h : Fin p.k → Poly := fun i j => makeHint p (u i j) (v i j)
  (h, ((List.finRange p.k).map fun i => ((List.finRange 256).map (h i)).sum).sum)

/-- `polyveck_use_hint`. -/
def polyveckUseHint (u h : Fin p.k → Poly) : Fin p.k → Poly :=
  fun i j => useHint p (u i j) (h i j)

/-! ## residues -/

section

variable {p} {c c' : ℕ} {a b : Poly} {u v : Fin 256 → ZMod p.q}

theorem PolyRep.mono (h : PolyRep p c a u) (hc : c ≤ c') : PolyRep p c' a u :=
  fun i => (h i).mono hc

theorem polyAdd_rep (ha : PolyRep p c a u) (hb : PolyRep p c' b v) (hc : c + c' ≤ 1024) :
    PolyRep p (c + c') (polyAdd a b) (u + v) :=
  fun i => add32_rep (ha i) (hb i) hc

theorem polySub_rep (ha : PolyRep p 2 a u) (hb : PolyRep p 2 b v) :
    PolyRep p 4 (polySub p a b) (u - v) :=
  fun i => sub32_rep (ha i) (hb i) (by omega)

theorem polyFreeze4q_rep (ha : PolyRep p 4 a u) : PolyRep p 1 (polyFreeze4q p a) u :=
  fun i => freeze4q_rep (ha i)

theorem polyFreeze2q_rep (ha : PolyRep p 2 a u) : PolyRep p 1 (polyFreeze2q p a) u :=
  fun i => freeze4q_rep ((ha i).mono (by omega))

/-- The factors are as `ntt` leaves them. -/
theorem polyPointwise_rep (ha : PolyRep p 18 a u) (hb : PolyRep p 18 b v) :
    PolyRep p 2 (polyPointwiseInvmontgomery p a b) (rho p • (u * v)) := by
  intro i
  have h := montgomeryReduce_prod (ha i) (hb i) (by omega)
  rwa [mul_comm (u i * v i)] at h

/-- Words below `PARAM_Q` are determined by what they stand for. -/
theorem PolyRep.unique (ha : PolyRep p 1 a u) (hb : PolyRep p 1 b u) : a = b := by
  funext i
  have hcast : ((a i : ℕ) : ZMod p.q) = b i := (ha i).2.trans (hb i).2.symm
  rw [ZMod.natCast_eq_natCast_iff'] at hcast
  have hai := (ha i).1
  have hbi := (hb i).1
  rwa [Nat.mod_eq_of_lt (by omega), Nat.mod_eq_of_lt (by omega)] at hcast

/-- The sum that `polyvecl_pointwise_acc_invmontgomery` accumulates. -/
theorem accumulate_rep {f : ℕ → Poly} {w : ℕ → Fin 256 → ZMod p.q} {n : ℕ} (hn : n < 5)
    (h : ∀ i ≤ n, PolyRep p 2 (f i) (w i)) :
    PolyRep p (2 * (n + 1)) ((List.range' 1 n).foldl (fun a i => polyAdd a (f i)) (f 0))
      (∑ i ∈ Finset.range (n + 1), w i) := by
  induction n with
  | zero => simpa using h 0 le_rfl
  | succ n ih =>
    have hlast := h (n + 1) le_rfl
    rw [List.range'_concat, List.foldl_append, Finset.sum_range_succ, Nat.one_mul, Nat.add_comm 1 n]
    have hinit := ih (by omega) fun i hi => h i (by omega)
    exact polyAdd_rep hinit hlast (show 2 * (n + 1) + 2 ≤ 1024 by omega)

theorem polyveclPointwiseAcc_rep {a b : Fin p.l → Poly} {u v : Fin p.l → Fin 256 → ZMod p.q}
    (ha : ∀ i, PolyRep p 18 (a i) (u i)) (hb : ∀ i, PolyRep p 18 (b i) (v i)) :
    PolyRep p 2 (polyveclPointwiseAccInvmontgomery p a b) (rho p • ∑ i, u i * v i) := by
  have hl : 0 < p.l ∧ p.l ≤ 5 := by cases p <;> decide
  have hsum := accumulate_rep (p := p) (n := p.l - 1) (by omega)
    (f := fun i => polyPointwiseInvmontgomery p (cell a i) (cell b i))
    (w := fun i => rho p • (cell u i * cell v i)) fun i hi => by
      have hlt : i < p.l := by omega
      simp only [cell_of_lt _ hlt]
      exact polyPointwise_rep (ha _) (hb _)
  rw [Nat.sub_add_cancel hl.1, ← Fin.sum_univ_eq_sum_range (fun i => rho p • (cell u i * cell v i)),
    ← Finset.smul_sum] at hsum
  simp only [cell_val] at hsum
  intro i
  exact barratReduce_rep ((hsum i).mono (by omega))

theorem polyvecChknorm_eq_false {n bound : ℕ} {v : Fin n → Poly} :
    polyvecChknorm p v bound = false ↔ ∀ i j, centredAbs p (v i j) < bound := by
  simp [polyvecChknorm, polyChknorm]

/-! ## hints -/

theorem makeHint_zero_or_one (p : ParamSet) (x y : ℕ) : makeHint p x y = 0 ∨ makeHint p x y = 1 := by
  unfold makeHint
  split <;> simp

theorem hintWeight_eq {h : Fin p.k → Poly} (h01 : ∀ i j, h i j = 0 ∨ h i j = 1) :
    hintWeight h = ((List.finRange p.k).map fun i => ((List.finRange 256).map (h i)).sum).sum := by
  have hentry : ∀ i j, (if isOne (h i j) then 1 else 0) = h i j := by
    intro i j
    rcases h01 i j with hj | hj <;> simp [isOne, hj]
  rw [hintWeight_weight, Hints.weight_eq_sum, ← Fin.sum_univ_def]
  simp only [hentry, Fin.sum_univ_def]

/-- The number that `polyveck_make_hint` returns is that of the hints. -/
theorem polyveckMakeHint_count (u v : Fin p.k → Poly) :
    hintWeight (polyveckMakeHint p u v).1 = (polyveckMakeHint p u v).2 :=
  hintWeight_eq fun _ _ => makeHint_zero_or_one p _ _

end

end Tlcp.AigisSig
