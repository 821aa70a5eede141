import Mathlib.Algebra.Module.LinearMap.Basic
import Mathlib.Algebra.BigOperators.GroupWithZero.Action
import Mathlib.Tactic.LinearCombination

/-!
# Lattice

A lattice scheme multiplies in a ring `V` of transformed polynomials: a product
of two polynomials is the inverse transform of the product of their
transforms, up to a scalar that the reductions of the implementation leave.
The transforms enter only as linear maps `N` and `I` that are inverse to each
other up to that scalar, `N (ρ • I v) = v`.
-/

namespace Lattice

open Finset

variable {R V W ι : Type*} [CommRing R] [CommRing V] [Module R V] [AddCommGroup W]
  [Module R W] [Fintype ι]

/-- The product of two polynomials, of which the first is given transformed. -/
def mulHat (N : W →ₗ[R] V) (I : V →ₗ[R] W) (ρ : R) (a : V) (x : W) : W := I (ρ • (a * N x))

/-- The product of a row of transformed polynomials with a vector. -/
def rowHat (N : W →ₗ[R] V) (I : V →ₗ[R] W) (ρ : R) (a : ι → V) (x : ι → W) : W :=
  I (ρ • ∑ j, a j * N (x j))

variable {N : W →ₗ[R] V} {I : V →ₗ[R] W} {ρ : R}

section

variable [Finite W] (hNI : ∀ v, N (I (ρ • v)) = v) (e : V ≃ W) {mul : W → W → W}
  (hmul : ∀ a b, N (mul a b) = N a * N b)

include hNI e in
theorem inverse_eq {v : V} {w : W} (h : N w = v) : I (ρ • v) = w := by
  have hsurj : Function.Surjective N := fun v => ⟨_, hNI v⟩
  apply (Finite.injective_iff_surjective_of_equiv e.symm).mpr hsurj
  rw [hNI, h]

include hNI e hmul

/-- **Products**: the transform of a product is the product of the transforms. -/
theorem mulHat_eq (a x : W) : mulHat N I ρ (N a) x = mul a x := inverse_eq hNI e (hmul a x)

theorem rowHat_eq (a : ι → V) (x : ι → W) : rowHat N I ρ a x = ∑ j, mul (I (ρ • a j)) (x j) := by
  refine inverse_eq hNI e ?_
  rw [map_sum]
  exact sum_congr rfl fun j _ => by rw [hmul, hNI]

end

/-- **The verifier's value**: for `z = c s₁ + y` and `T + t₀ = A s₁ + s₂`, the
difference `A z - c T` is `A y - c s₂ + c t₀`. -/
theorem verifier_value (hNI : ∀ v, N (I (ρ • v)) = v) {a : ι → V} {c : V} {s₁ y z : ι → W} {s₂ t₀ T : W}
    (hz : ∀ j, z j = mulHat N I ρ c (s₁ j) + y j) (hT : T + t₀ = rowHat N I ρ a s₁ + s₂) :
    I (ρ • ∑ j, a j * N (z j) - ρ • (c * N T)) =
      rowHat N I ρ a y - mulHat N I ρ c s₂ + mulHat N I ρ c t₀ := by
  have hNz : ∀ j, N (z j) = c * N (s₁ j) + N (y j) := by
    intro j
    rw [hz j, map_add, mulHat, hNI]
  have hNT : N T = ∑ j, a j * N (s₁ j) + N s₂ - N t₀ := by
    rw [eq_sub_iff_add_eq, ← map_add, hT, map_add, rowHat, hNI]
  have hsum : ∑ j, a j * N (z j) = c * ∑ j, a j * N (s₁ j) + ∑ j, a j * N (y j) := by
    rw [mul_sum, ← sum_add_distrib]
    exact sum_congr rfl fun j _ => by rw [hNz j]; ring
  have hinner : ρ • ∑ j, a j * N (z j) - ρ • (c * N T) =
      ρ • (∑ j, a j * N (y j)) - ρ • (c * N s₂) + ρ • (c * N t₀) := by
    rw [hsum, hNT, ← smul_sub, ← smul_sub, ← smul_add]
    congr 1
    ring
  rw [hinner, map_add, map_sub]
  rfl

end Lattice
