import Mathlib.Algebra.BigOperators.Group.Finset.Basic
import Mathlib.Data.ZMod.Basic
import Mathlib.Tactic.LinearCombination
import Mathlib.Tactic.Linarith
import Mathlib.Tactic.Positivity
import Mathlib.Tactic.Ring

/-!
# Signed

Two's complement words as integers: `wrap w x` is what a signed word of `w`
bits holds after `x` is stored into it.  Code that computes modulo an odd `q`
in such words keeps every value small enough not to wrap; `Rep q c x u` says
that `x` is at most `c` in absolute value and stands for the residue `u`, and
each operation has a rule for the bound and the residue of its result.
-/

namespace Signed

/-! ## words -/

/-- The value of a signed word of `w` bits into which `x` is stored. -/
def wrap (w : ℕ) (x : ℤ) : ℤ := x.bmod (2 ^ w)

section

variable {w : ℕ} {x y : ℤ}

theorem wrap_of_fits (hlo : -2 ^ w ≤ 2 * x) (hhi : 2 * x < 2 ^ w) : wrap w x = x :=
  Int.bmod_eq_of_le_mul_two (by push_cast; omega) (by push_cast; omega)

theorem wrap_range (w : ℕ) (x : ℤ) : -2 ^ w ≤ 2 * wrap w x ∧ 2 * wrap w x < 2 ^ w := by
  have hpos : 0 < 2 ^ w := Nat.two_pow_pos w
  have hlo := Int.le_bmod (x := x) hpos
  have hhi := Int.bmod_lt (x := x) hpos
  push_cast at hlo hhi
  unfold wrap
  omega

theorem dvd_sub_wrap (w : ℕ) (x : ℤ) : (2 : ℤ) ^ w ∣ x - wrap w x := by
  have h := Int.dvd_self_sub_bmod (x := x) (m := 2 ^ w)
  push_cast at h
  exact h

theorem wrap_wrap_mul : wrap w (wrap w x * y) = wrap w (x * y) := Int.bmod_mul_bmod

end

/-! ## residues -/

/-- The integer `x` is at most `c` in absolute value and stands for `u`. -/
structure Rep (q : ℕ) (c x : ℤ) (u : ZMod q) : Prop where
  lo : -c ≤ x
  hi : x ≤ c
  cast : (x : ZMod q) = u

section

variable {q w : ℕ} {c c' x y : ℤ} {u v : ZMod q}

theorem Rep.mono (h : Rep q c x u) (hc : c ≤ c') : Rep q c' x u :=
  ⟨by have := h.lo; omega, by have := h.hi; omega, h.cast⟩

theorem Rep.wrap (h : Rep q c x u) (hc : 2 * c < 2 ^ w) : Rep q c (wrap w x) u := by
  have hlo := h.lo
  have hhi := h.hi
  rw [wrap_of_fits (by omega) (by omega)]
  exact h

theorem Rep.add (hx : Rep q c x u) (hy : Rep q c' y v) : Rep q (c + c') (x + y) (u + v) :=
  ⟨by have := hx.lo; have := hy.lo; omega, by have := hx.hi; have := hy.hi; omega,
    by rw [Int.cast_add, hx.cast, hy.cast]⟩

theorem Rep.sub (hx : Rep q c x u) (hy : Rep q c' y v) : Rep q (c + c') (x - y) (u - v) :=
  ⟨by have := hx.lo; have := hy.hi; omega, by have := hx.hi; have := hy.lo; omega,
    by rw [Int.cast_sub, hx.cast, hy.cast]⟩

theorem Rep.mul (hx : Rep q c x u) (hy : Rep q c' y v) : Rep q (c * c') (x * y) (u * v) := by
  have hx' : |x| ≤ c := abs_le.mpr ⟨hx.lo, hx.hi⟩
  have hy' : |y| ≤ c' := abs_le.mpr ⟨hy.lo, hy.hi⟩
  have hmul : |x * y| ≤ c * c' := by
    rw [abs_mul]
    exact mul_le_mul hx' hy' (abs_nonneg y) ((abs_nonneg x).trans hx')
  obtain ⟨hlo, hhi⟩ := abs_le.mp hmul
  exact ⟨hlo, hhi, by rw [Int.cast_mul, hx.cast, hy.cast]⟩

/-- Two integers for one residue, too close to each other to differ. -/
theorem eq_of_cast_eq (h : (x : ZMod q) = y) (hlo : -q < x - y) (hhi : x - y < q) : x = y := by
  have hdvd : (q : ℤ) ∣ x - y := (ZMod.intCast_eq_intCast_iff_dvd_sub _ _ _).mp h.symm
  have hzero := Int.eq_zero_of_abs_lt_dvd hdvd (abs_lt.mpr ⟨hlo, hhi⟩)
  omega

end

/-! ## arrays -/

section

variable {ι : Type*} {q : ℕ} {c c' : ℤ} {a : ι → ℤ} {u : ι → ZMod q}

/-- The residues of an array. -/
def residues (q : ℕ) (a : ι → ℤ) : ι → ZMod q := fun i => a i

/-- The entries of an array are at most `c` in absolute value and stand for `u`. -/
def Reps (q : ℕ) (c : ℤ) (a : ι → ℤ) (u : ι → ZMod q) : Prop := ∀ i, Rep q c (a i) (u i)

theorem reps_residues (h : ∀ i, -c ≤ a i ∧ a i ≤ c) : Reps q c a (residues q a) :=
  fun i => ⟨(h i).1, (h i).2, rfl⟩

theorem Reps.mono (h : Reps q c a u) (hc : c ≤ c') : Reps q c' a u := fun i => (h i).mono hc

theorem Reps.residues_eq (h : Reps q c a u) : residues q a = u := funext fun i => (h i).cast

/-- An entry of a table. -/
theorem rep_getD {l : List ℤ} (hc : 0 ≤ c) (h : ∀ x ∈ l, -c ≤ x ∧ x ≤ c) (k : ℕ) :
    Rep q c (l.getD k 0) ((l.getD k 0 : ℤ) : ZMod q) := by
  have hk : -c ≤ l.getD k 0 ∧ l.getD k 0 ≤ c := by
    rw [List.getD_eq_getElem?_getD]
    cases hk : l[k]? with
    | none => exact ⟨by simpa using hc, hc⟩
    | some x => exact h x (List.mem_of_getElem? hk)
  exact ⟨hk.1, hk.2, rfl⟩

/-- A sum that is accumulated in words of `w` bits. -/
theorem accumulate_reps {w n : ℕ} {f : ℕ → ι → ℤ} {u : ℕ → ι → ZMod q} (hc₀ : 0 ≤ c)
    (hc : 2 * ((n + 1) * c) < 2 ^ w) (h : ∀ i ≤ n, Reps q c (f i) (u i)) :
    Reps q ((n + 1) * c) ((List.range' 1 n).foldl (fun a i j => wrap w (a j + f i j)) (f 0))
      (∑ i ∈ Finset.range (n + 1), u i) := by
  induction n with
  | zero => simpa using h 0 le_rfl
  | succ n ih =>
    push_cast at hc ⊢
    have hstep : ((n : ℤ) + 1) * c + c = (n + 1 + 1) * c := by ring
    have hinit := ih (by nlinarith) fun i hi => h i (by omega)
    rw [List.range'_concat, List.foldl_append, Finset.sum_range_succ, Nat.one_mul, Nat.add_comm 1 n]
    intro j
    have hsum := (hinit j).add (h (n + 1) le_rfl j)
    rw [hstep] at hsum
    exact hsum.wrap hc

end

/-! ## the reduction of Montgomery -/

/-- A multiple of `q` cancels the low word of `a`, which is then shifted out. -/
def montgomery (w : ℕ) (q qinv a : ℤ) : ℤ := (a - wrap w (a * qinv) * q) / 2 ^ w

section

variable {q w : ℕ} {qinv a b c m : ℤ} {ρ u : ZMod q}

theorem two_pow_mul_montgomery (hinv : (2 : ℤ) ^ w ∣ qinv * q - 1) (a : ℤ) :
    2 ^ w * montgomery w q qinv a = a - wrap w (a * qinv) * q := by
  refine Int.mul_ediv_cancel' ?_
  have hlow := (dvd_sub_wrap w (a * qinv)).mul_right (q : ℤ)
  have hword := hinv.mul_left a
  have hsplit : a - wrap w (a * qinv) * q =
      (a * qinv - wrap w (a * qinv)) * q - a * (qinv * q - 1) := by ring
  rw [hsplit]
  exact dvd_sub hlow hword

/-- **Montgomery reduction** divides the residue by `2 ^ w`; the result is
about half the sum of `q` and of the bound in units of `2 ^ (w - 1)`. -/
theorem montgomery_rep (hinv : (2 : ℤ) ^ w ∣ qinv * q - 1) (hρ : (2 : ZMod q) ^ w * ρ = 1)
    (ha : Rep q c a u) (hc : 2 * c ≤ 2 ^ w * m) (hb : m + q < 2 * (b + 1)) :
    Rep q b (montgomery w q qinv a) (ρ * u) := by
  have hmul := two_pow_mul_montgomery hinv a
  obtain ⟨htlo, hthi⟩ := wrap_range w (a * qinv)
  have hpos : (0 : ℤ) < 2 ^ w := by positivity
  have hq : (0 : ℤ) ≤ q := Int.natCast_nonneg q
  have hlo := ha.lo
  have hhi := ha.hi
  refine ⟨?_, ?_, ?_⟩
  · have hle : 2 ^ w * (-(m + q)) ≤ 2 ^ w * (2 * montgomery w q qinv a) := by nlinarith
    have := le_of_mul_le_mul_left hle hpos
    omega
  · have hle : 2 ^ w * (2 * montgomery w q qinv a) ≤ 2 ^ w * (m + q) := by nlinarith
    have := le_of_mul_le_mul_left hle hpos
    omega
  · have hcast : (2 : ZMod q) ^ w * (montgomery w q qinv a : ZMod q) = u := by
      have h := congrArg (Int.cast : ℤ → ZMod q) hmul
      push_cast at h
      rw [h, ha.cast, ZMod.natCast_self, mul_zero, sub_zero]
    linear_combination (-(montgomery w q qinv a : ZMod q)) * hρ + ρ * hcast

end

end Signed
