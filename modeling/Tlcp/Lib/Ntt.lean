import Mathlib.Algebra.Module.Pi
import Mathlib.Algebra.Module.LinearMap.Defs
import Mathlib.Algebra.BigOperators.Ring.Finset
import Mathlib.Algebra.BigOperators.Fin
import Mathlib.Data.List.GetD
import Mathlib.Data.ZMod.Basic
import Mathlib.GroupTheory.GroupAction.Ring
import Mathlib.Tactic.Ring
import Mathlib.Tactic.LinearCombination
import Tlcp.Lib.Butterfly

/-!
# Ntt

The number-theoretic transform modulo `x ^ n + 1` for `n = 2 ^ m`, as butterfly passes over a
commutative ring: passes of falling distance with the twiddle factors `γ`
forward, and passes of rising distance with the factors `γ'` backward.  When
the factors are inverse to each other the two are inverse up to the scalar `n`
(`forward_backward`).  When each factor is a square root
of the signed factor above it, the forward transform evaluates at `n` roots of
`x ^ n = -1` (`forward_apply`) and takes the negacyclic product to the product
of the values (`forward_negaMul`).
-/

namespace Ntt

open Butterfly

variable {R : Type*} [CommRing R] {n : ℕ}
variable {j i : ℕ} {w : R}

/-! ## linear passes -/

/-- The butterfly of a matrix that may depend on the block. -/
def linear (A B C D : ℕ → R) (k : ℕ) (x y : R) : R × R := (A k * x + B k * y, C k * x + D k * y)

theorem cell_add (a b : Fin n → R) (i : ℕ) : cell (a + b) i = cell a i + cell b i := by
  unfold cell
  split <;> simp

theorem cell_smul (c : R) (a : Fin n → R) (i : ℕ) : cell (c • a) i = c * cell a i := by
  unfold cell
  split <;> simp

section

variable (A B C D : ℕ → R) {len : ℕ}

theorem pass_add (k : ℕ) (hlen : 0 < len) (hn : 2 * len ∣ n) (a b : Fin n → R) :
    pass (linear A B C D) len k (a + b) =
      pass (linear A B C D) len k a + pass (linear A B C D) len k b := by
  funext i
  simp only [pass_apply _ _ hlen hn, Pi.add_apply, after, cell_add, linear]
  split <;> ring

theorem pass_smul (k : ℕ) (hlen : 0 < len) (hn : 2 * len ∣ n) (c : R) (a : Fin n → R) :
    pass (linear A B C D) len k (c • a) = c • pass (linear A B C D) len k a := by
  funext i
  simp only [pass_apply _ _ hlen hn, Pi.smul_apply, smul_eq_mul, after, cell_smul, linear]
  split <;> ring

theorem passes_add {lens : List ℕ} (k : ℕ) (hlens : ∀ len ∈ lens, 0 < len ∧ 2 * len ∣ n)
    (a b : Fin n → R) :
    passes (fun _ => linear A B C D) lens k (a + b) =
      passes (fun _ => linear A B C D) lens k a + passes (fun _ => linear A B C D) lens k b := by
  induction lens generalizing k a b with
  | nil => rfl
  | cons len lens ih =>
    obtain ⟨hlen, hn⟩ := hlens len List.mem_cons_self
    simp only [passes, pass_add A B C D k hlen hn]
    exact ih _ (fun l hl => hlens l (List.mem_cons_of_mem _ hl)) _ _

theorem passes_smul {lens : List ℕ} (k : ℕ) (hlens : ∀ len ∈ lens, 0 < len ∧ 2 * len ∣ n)
    (c : R) (a : Fin n → R) :
    passes (fun _ => linear A B C D) lens k (c • a) =
      c • passes (fun _ => linear A B C D) lens k a := by
  induction lens generalizing k a with
  | nil => rfl
  | cons len lens ih =>
    obtain ⟨hlen, hn⟩ := hlens len List.mem_cons_self
    simp only [passes, pass_smul A B C D k hlen hn]
    exact ih _ (fun l hl => hlens l (List.mem_cons_of_mem _ hl)) _

end

/-! ## the distances -/

/-- The distances `2 ^ (m - 1), …, 2, 1`. -/
def halvings : ℕ → List ℕ
  | 0 => []
  | m + 1 => 2 ^ m :: halvings m

variable {m : ℕ}

theorem mem_halvings {len : ℕ} (h : len ∈ halvings m) : ∃ j < m, len = 2 ^ j := by
  induction m with
  | zero => contradiction
  | succ m ih =>
    rcases List.mem_cons.mp h with rfl | h
    · exact ⟨m, m.lt_succ_self, rfl⟩
    · obtain ⟨j, hj, hlen⟩ := ih h
      exact ⟨j, by omega, hlen⟩

/-- Every distance cuts an array of `2 ^ m` cells into whole blocks. -/
theorem halvings_dvd {len : ℕ} (hj : j ≤ m) (h : len ∈ halvings j) :
    0 < len ∧ 2 * len ∣ 2 ^ m := by
  obtain ⟨i, hi, rfl⟩ := mem_halvings h
  refine ⟨Nat.two_pow_pos i, ?_⟩
  rw [← Nat.pow_succ']
  exact Nat.pow_dvd_pow 2 (by omega)

theorem blocks_pow (hj : j < m) : 2 ^ m / (2 * 2 ^ j) = 2 ^ (m - (j + 1)) := by
  rw [← Nat.pow_succ', Nat.pow_div hj (by omega)]

theorem next_pow (hj : j < m) : 2 ^ (m - (j + 1)) + 2 ^ (m - (j + 1)) = 2 ^ (m - j) := by
  rw [← Nat.two_mul, ← Nat.pow_succ', Nat.succ_eq_add_one, show m - (j + 1) + 1 = m - j by omega]

theorem span_halvings (hj : j ≤ m) : span (2 ^ m) (halvings j) = 2 ^ m - 2 ^ (m - j) := by
  induction j with
  | zero => simp [halvings, span]
  | succ j ih =>
    have hle : 2 ^ (m - j) ≤ 2 ^ m := Nat.pow_le_pow_right (by omega) (by omega)
    have hsum : ∀ x M : ℕ, x + x ≤ M → x + (M - (x + x)) = M - x := by omega
    have hcons : span (2 ^ m) (halvings (j + 1)) =
        2 ^ m / (2 * 2 ^ j) + span (2 ^ m) (halvings j) := by simp [halvings, span]
    rw [hcons, blocks_pow hj, ih (by omega), ← next_pow hj]
    exact hsum _ _ (by rwa [next_pow hj])

theorem span_reverse (n : ℕ) (lens : List ℕ) : span n lens.reverse = span n lens := by
  simp [span]

/-! ## forward and backward -/

section

variable (γ γ' : ℕ → R)

/-- The butterfly of the forward transform. -/
def fwd (k : ℕ) (x y : R) : R × R := (x + γ k * y, x - γ k * y)

/-- The butterfly of the backward transform. -/
def bwd (k : ℕ) (x y : R) : R × R := (x + y, γ' k * (x - y))

theorem fwd_eq : fwd γ = linear (fun _ => 1) γ (fun _ => 1) (-γ) := by
  funext k x y
  simp only [fwd, linear, Pi.neg_apply, Prod.mk.injEq]
  constructor <;> ring

theorem bwd_eq : bwd γ' = linear (fun _ => 1) (fun _ => 1) γ' (-γ') := by
  funext k x y
  simp only [bwd, linear, Pi.neg_apply, Prod.mk.injEq]
  constructor <;> ring

/-- The forward transform of `2 ^ m` cells. -/
def forward (hn : n = 2 ^ m) : (Fin n → R) →ₗ[R] (Fin n → R) where
  toFun := passes (fun _ => fwd γ) (halvings m) 1
  map_add' := by
    rw [fwd_eq]
    exact passes_add _ _ _ _ 1 fun _ h => hn ▸ halvings_dvd le_rfl h
  map_smul' := by
    rw [fwd_eq]
    exact passes_smul _ _ _ _ 1 fun _ h => hn ▸ halvings_dvd le_rfl h

/-- The backward transform of `2 ^ m` cells, not divided by their number. -/
def backward (hn : n = 2 ^ m) : (Fin n → R) →ₗ[R] (Fin n → R) where
  toFun := passes (fun _ => bwd γ') (halvings m).reverse 0
  map_add' := by
    rw [bwd_eq]
    exact passes_add _ _ _ _ 0 fun _ h => hn ▸ halvings_dvd le_rfl (List.mem_reverse.mp h)
  map_smul' := by
    rw [bwd_eq]
    exact passes_smul _ _ _ _ 0 fun _ h => hn ▸ halvings_dvd le_rfl (List.mem_reverse.mp h)

theorem forward_eq (hn : n = 2 ^ m) (a : Fin n → R) :
    forward γ hn a = passes (fun _ => fwd γ) (halvings m) 1 a := rfl

theorem backward_eq (hn : n = 2 ^ m) (a : Fin n → R) :
    backward γ' hn a = passes (fun _ => bwd γ') (halvings m).reverse 0 a := rfl

end

/-- The factors of the backward transform undo those of the forward one, in
the order in which its passes use them. -/
def Inverse (γ γ' : ℕ → R) (m : ℕ) : Prop :=
  ∀ t < m, ∀ b < 2 ^ t, γ (2 ^ t + b) * γ' (2 ^ m - 2 ^ (t + 1) + b) = 1

section

variable {γ γ' : ℕ → R} {m : ℕ}

theorem pass_scalar {bf : ℕ → R → R → R × R} {len k : ℕ} (c : R) (hlen : 0 < len) (hn : 2 * len ∣ n)
    (h : ∀ b < n / (2 * len), ∀ x y, bf (k + b) x y = (c * x, c * y)) (a : Fin n → R) :
    pass bf len k a = c • a := by
  funext i
  have hb : i.val / (2 * len) < n / (2 * len) := Nat.div_lt_div_of_lt_of_dvd hn i.isLt
  rw [pass_apply _ _ hlen hn, after, h _ hb, h _ hb]
  simp

/-- A forward pass undoes the backward pass of the same distance. -/
theorem pass_fwd_bwd (h : Inverse γ γ' m) (hj : j < m) (a : Fin (2 ^ m) → R) :
    pass (fwd γ) (2 ^ j) (2 ^ (m - (j + 1))) (pass (bwd γ') (2 ^ j) (2 ^ m - 2 ^ (m - j)) a) =
      (2 : R) • a := by
  obtain ⟨hlen, hn⟩ : 0 < 2 ^ j ∧ 2 * 2 ^ j ∣ 2 ^ m := halvings_dvd hj List.mem_cons_self
  rw [pass_pass _ _ _ hlen hn]
  refine pass_scalar _ hlen hn (fun b hb x y => ?_) a
  rw [blocks_pow hj] at hb
  have hγ := h (m - (j + 1)) (by omega) b hb
  rw [show m - (j + 1) + 1 = m - j by omega] at hγ
  simp only [Nat.zero_add, fwd, bwd, Prod.mk.injEq]
  constructor
  · linear_combination (x - y) * hγ
  · linear_combination -(x - y) * hγ

/-- Down from the distance `2 ^ j` and the way up before it. -/
theorem passes_fwd_bwd (h : Inverse γ γ' m) (hj : j ≤ m) (a : Fin (2 ^ m) → R) :
    passes (fun _ => fwd γ) (halvings j) (2 ^ (m - j))
      (passes (fun _ => bwd γ') (halvings j).reverse 0 a) = (2 : R) ^ j • a := by
  induction j generalizing a with
  | zero => simp [halvings, passes]
  | succ j ih =>
    -- the last pass up meets the first pass down
    have hmeet := pass_fwd_bwd h hj (passes (fun _ => bwd γ') (halvings j).reverse 0 a)
    have hlin := passes_smul (fun _ => 1) γ (fun _ => 1) (-γ) (2 ^ (m - j))
      (fun _ hl => halvings_dvd (by omega : j ≤ m) hl) (2 : R)
      (passes (fun _ => bwd γ') (halvings j).reverse 0 a)
    rw [← fwd_eq] at hlin
    rw [halvings, List.reverse_cons, passes_append, Nat.zero_add, span_reverse,
      span_halvings (by omega), passes, blocks_pow hj, next_pow hj, passes, passes, hmeet, hlin,
      ih (by omega), smul_smul, pow_succ']

/-- **Up and down**: the transforms are inverse up to the number of cells. -/
theorem forward_backward (h : Inverse γ γ' m) (hn : n = 2 ^ m) (a : Fin n → R) :
    forward γ hn (backward γ' hn a) = (2 : R) ^ m • a := by
  subst hn
  have hall := passes_fwd_bwd h le_rfl a
  rwa [Nat.sub_self, pow_zero] at hall

end

/-! ## evaluation -/

section

variable (γ : ℕ → R)

/-- The factor that a node of the tree of blocks multiplies its upper cell
with: the factor of its parent, with a sign by its side. -/
def signed (v : ℕ) : R := if v % 2 = 0 then γ (v / 2) else -γ (v / 2)

/-- Each factor is a square root of the signed factor of its own node, and the
first one of minus one. -/
structure RootTree (m : ℕ) : Prop where
  root : γ 1 ^ 2 = -1
  node : ∀ v, 2 ≤ v → v < 2 ^ m → γ v ^ 2 = signed γ v

/-- The point at which the cell `i` of the transform evaluates. -/
def point (m i : ℕ) : R := signed γ (2 ^ m + i)

variable {γ} {m : ℕ}

theorem signed_sq (v : ℕ) : signed γ v ^ 2 = γ (v / 2) ^ 2 := by
  unfold signed
  split <;> ring

theorem point_pow (h : RootTree γ m) (hi : i < 2 ^ m) (hj : j < m) :
    point γ m i ^ 2 ^ j = signed γ ((2 ^ m + i) / 2 ^ j) := by
  induction j with
  | zero => simp [point]
  | succ j ih =>
    have hup : (2 ^ m + i) / 2 ^ j / 2 = (2 ^ m + i) / 2 ^ (j + 1) := by
      rw [Nat.div_div_eq_div_mul, Nat.pow_succ]
    have hlo : 2 ≤ (2 ^ m + i) / 2 ^ (j + 1) := by
      rw [Nat.le_div_iff_mul_le (Nat.two_pow_pos _), ← Nat.pow_succ']
      exact le_trans (Nat.pow_le_pow_right (by omega) hj) (Nat.le_add_right _ _)
    have hhi : (2 ^ m + i) / 2 ^ (j + 1) < 2 ^ m := by
      rw [Nat.div_lt_iff_lt_mul (Nat.two_pow_pos _), Nat.pow_succ', ← Nat.mul_assoc]
      have hpos := Nat.two_pow_pos j
      have hmul := Nat.le_mul_of_pos_right (2 ^ m * 2) hpos
      omega
    have hsq : point γ m i ^ 2 ^ (j + 1) = (point γ m i ^ 2 ^ j) ^ 2 := by rw [pow_succ, pow_mul]
    rw [hsq, ih (by omega), signed_sq, hup, h.node _ hlo hhi]

theorem point_pow_card (h : RootTree γ m) (hm : 0 < m) (hi : i < 2 ^ m) :
    point γ m i ^ 2 ^ m = -1 := by
  obtain ⟨j, rfl⟩ : ∃ j, m = j + 1 := ⟨m - 1, by omega⟩
  have htop : (2 ^ (j + 1) + i) / 2 ^ j / 2 = 1 := by
    rw [Nat.div_div_eq_div_mul, ← Nat.pow_succ]
    exact Nat.div_eq_of_lt_le (by omega) (by omega)
  rw [pow_succ, pow_mul, point_pow h hi (by omega), signed_sq, htop, h.root]

theorem signed_half (h w : ℕ) :
    signed γ (2 * w + h) = if h % 2 = 0 then γ (w + h / 2) else -γ (w + h / 2) := by
  rw [signed, Nat.mul_add_mod, Nat.mul_add_div (by omega)]

/-- The node above the cell `i` in the pass of distance `2 ^ j`. -/
theorem node_eq (hj : j < m) : (2 ^ m + i) / 2 ^ j = 2 * 2 ^ (m - (j + 1)) + i / 2 ^ j := by
  have hsplit : 2 ^ m = 2 ^ j * (2 * 2 ^ (m - (j + 1))) := by
    rw [← Nat.pow_succ', ← pow_add]
    congr 1
    omega
  rw [hsplit, Nat.mul_add_div (Nat.two_pow_pos j)]

/-- The value at `w` of the block of `2 ^ j` cells around the cell `i`. -/
def blockEval (a : Fin n → R) (w : R) (j i : ℕ) : R :=
  ∑ t ∈ Finset.range (2 ^ j), cell a (2 ^ j * (i / 2 ^ j) + t) * w ^ t

/-- A forward pass folds the two halves of a block into each of them, which
keeps the value at the points of the half. -/
theorem blockEval_pass (hj : j < m) (hi : i < 2 ^ m)
    (hw : w ^ 2 ^ j = signed γ ((2 ^ m + i) / 2 ^ j)) (a : Fin (2 ^ m) → R) :
    blockEval (pass (fwd γ) (2 ^ j) (2 ^ (m - (j + 1))) a) w j i = blockEval a w (j + 1) i := by
  obtain ⟨hlen, hn⟩ : 0 < 2 ^ j ∧ 2 * 2 ^ j ∣ 2 ^ m := halvings_dvd hj List.mem_cons_self
  have hup : i / 2 ^ j / 2 = i / 2 ^ (j + 1) := by rw [Nat.div_div_eq_div_mul, Nat.pow_succ]
  have hsucc : 2 ^ (j + 1) = 2 * 2 ^ j := Nat.pow_succ'
  have hin : ∀ t < 2 ^ j, 2 ^ j * (i / 2 ^ j) + t < 2 ^ m := by
    intro t ht
    have hsplit : 2 ^ m = 2 ^ j * 2 ^ (m - j) := by rw [← pow_add]; congr 1; omega
    have hlt : i / 2 ^ j < 2 ^ (m - j) := Nat.div_lt_of_lt_mul (by rwa [← hsplit])
    have hle := Nat.mul_le_mul_left (2 ^ j) hlt
    rw [Nat.mul_succ, ← hsplit] at hle
    omega
  have hcell : ∀ t < 2 ^ j, cell (pass (fwd γ) (2 ^ j) (2 ^ (m - (j + 1))) a) (2 ^ j * (i / 2 ^ j) + t) =
      cell a (2 ^ (j + 1) * (i / 2 ^ (j + 1)) + t) +
        w ^ 2 ^ j * cell a (2 ^ (j + 1) * (i / 2 ^ (j + 1)) + (2 ^ j + t)) := by
    intro t ht
    rw [cell_pass_half _ a hn ht (hin t ht), hw, node_eq hj, signed_half, hup, hsucc, ← Nat.add_assoc]
    simp only [fwd]
    split <;> ring
  unfold blockEval
  rw [Finset.sum_congr rfl fun t ht => by rw [hcell t (Finset.mem_range.mp ht)],
    hsucc, Nat.two_mul, Finset.sum_range_add, ← Nat.two_mul, ← hsucc, ← Finset.sum_add_distrib]
  exact Finset.sum_congr rfl fun t _ => by rw [pow_add]; ring

theorem passes_fwd_apply (hj : j ≤ m) (hi : i < 2 ^ m)
    (hw : ∀ e < j, w ^ 2 ^ e = signed γ ((2 ^ m + i) / 2 ^ e)) (a : Fin (2 ^ m) → R) :
    cell (passes (fun _ => fwd γ) (halvings j) (2 ^ (m - j)) a) i = blockEval a w j i := by
  induction j generalizing a with
  | zero => simp [halvings, passes, blockEval]
  | succ j ih =>
    rw [halvings, passes, blocks_pow hj, next_pow hj, ih (by omega) (fun e he => hw e (by omega)),
      blockEval_pass hj hi (hw j (by omega))]

/-- **Evaluation**: the forward transform gives the values at the points. -/
theorem forward_apply (h : RootTree γ m) (hn : n = 2 ^ m) (a : Fin n → R) (i : Fin n) :
    forward γ hn a i = ∑ t, a t * point γ m i ^ t.val := by
  subst hn
  have hall := passes_fwd_apply le_rfl i.isLt (fun e he => point_pow h i.isLt he) a
  rw [Nat.sub_self, pow_zero, cell_val] at hall
  refine hall.trans ?_
  rw [blockEval, Nat.div_eq_of_lt i.isLt, Finset.sum_range]
  simp

end

/-! ## the negacyclic product -/

/-- The product modulo `x ^ n + 1`. -/
def negaMul (a b : Fin n → R) : Fin n → R := fun t =>
  ∑ i, ∑ j, if i.val + j.val = t.val then a i * b j
    else if i.val + j.val = t.val + n then -(a i * b j) else 0

/-- The negacyclic product multiplies values at the roots of `x ^ n = -1`. -/
theorem eval_negaMul (hw : w ^ n = -1) (a b : Fin n → R) :
    ∑ t, negaMul a b t * w ^ t.val = (∑ i, a i * w ^ i.val) * ∑ j, b j * w ^ j.val := by
  have hterm : ∀ i j : Fin n, ∑ t : Fin n, (if i.val + j.val = t.val then a i * b j
      else if i.val + j.val = t.val + n then -(a i * b j) else 0) * w ^ t.val =
      a i * w ^ i.val * (b j * w ^ j.val) := by
    intro i j
    by_cases hij : i.val + j.val < n
    · rw [Fintype.sum_eq_single ⟨i + j, hij⟩]
      · simp only [if_true, pow_add]
        ring
      · intro t ht
        have hne : i.val + j.val ≠ t.val := fun h => ht (Fin.ext h.symm)
        rw [if_neg hne, if_neg (by omega), zero_mul]
    · have hsum : i.val + j.val - n + n = i.val + j.val := by omega
      have hpow : w ^ (i.val + j.val) = -w ^ (i.val + j.val - n) := by
        rw [← hsum, pow_add, hw, Nat.add_sub_cancel]
        ring
      rw [Fintype.sum_eq_single ⟨i + j - n, by omega⟩]
      · rw [if_neg (by simp only; omega), if_pos hsum.symm]
        rw [pow_add] at hpow
        linear_combination -(a i * b j) * hpow
      · intro t ht
        have hne : i.val + j.val ≠ t.val + n := fun h => ht (Fin.ext (by simp only; omega))
        rw [if_neg (by omega), if_neg hne, zero_mul]
  rw [Finset.sum_mul_sum]
  simp only [negaMul, Finset.sum_mul]
  rw [Finset.sum_comm]
  refine Finset.sum_congr rfl fun i _ => ?_
  rw [Finset.sum_comm]
  exact Finset.sum_congr rfl fun j _ => hterm i j

/-- **Products**: the forward transform takes the negacyclic product to the
product cell by cell. -/
theorem forward_negaMul {γ : ℕ → R} (h : RootTree γ m) (hm : 0 < m) (hn : n = 2 ^ m)
    (a b : Fin n → R) : forward γ hn (negaMul a b) = forward γ hn a * forward γ hn b := by
  subst hn
  funext i
  rw [Pi.mul_apply, forward_apply h, forward_apply h, forward_apply h,
    eval_negaMul (point_pow_card h hm i.isLt)]

/-! ## tables -/

/-- Two stretches of tables that agree with `P` entry by entry. -/
def stretches {α : Type*} (P : α → α → Bool) (n i j : ℕ) (l₁ l₂ : List α) : Bool :=
  (List.zipWith P ((l₁.drop i).take n) ((l₂.drop j).take n)).all id

theorem stretches_getD {α : Type*} {P : α → α → Bool} {n b : ℕ} {l₁ l₂ : List α} (x : α)
    (h : stretches P n i j l₁ l₂ = true) (hb : b < n) (h₁ : i + n ≤ l₁.length)
    (h₂ : j + n ≤ l₂.length) : P (l₁.getD (i + b) x) (l₂.getD (j + b) x) = true := by
  have hi : ((l₁.drop i).take n)[b]? = some l₁[i + b] := by
    rw [List.getElem?_take_of_lt hb, List.getElem?_drop, List.getElem?_eq_getElem]
  have hj : ((l₂.drop j).take n)[b]? = some l₂[j + b] := by
    rw [List.getElem?_take_of_lt hb, List.getElem?_drop, List.getElem?_eq_getElem]
  have hmem : P l₁[i + b] l₂[j + b] ∈ List.zipWith P ((l₁.drop i).take n) ((l₂.drop j).take n) := by
    apply List.mem_of_getElem? (i := b)
    rw [List.getElem?_zipWith, hi, hj]
  rw [List.getD_eq_getElem _ _ (by omega), List.getD_eq_getElem _ _ (by omega)]
  exact List.all_eq_true.mp h _ hmem

/-- The square of `x` and the entry `y` above it, where an entry stands for
itself divided by `c`. -/
def squares (q : ℕ) (c x y : ℤ) : Bool := (x ^ 2 - y * c) % q == 0

/-- The entries of a table with either sign, in the order of the nodes below. -/
def bothSigns (l : List ℤ) : List ℤ := l.flatMap fun z => [z, -z]

theorem getD_bothSigns (l : List ℤ) (v : ℕ) :
    (bothSigns l).getD v 0 = if v % 2 = 0 then l.getD (v / 2) 0 else -l.getD (v / 2) 0 := by
  induction l generalizing v with
  | nil => simp [bothSigns]
  | cons z l ih =>
    match v with
    | 0 => rfl
    | 1 => rfl
    | v + 2 =>
      rw [Nat.add_mod_right, Nat.add_div_right _ (by omega)]
      exact ih v

/-- A table of square roots has the factors of an evaluation. -/
theorem rootTree_of_table {q : ℕ} {c : ℤ} {ρ : ZMod q} {l : List ℤ} (hρ : (c : ZMod q) * ρ = 1)
    (hlen : l.length = 2 ^ m) (hroot : squares q c (l.getD 1 0) (-c) = true)
    (hsq : stretches (squares q c) (2 ^ m - 2) 2 2 l (bothSigns l) = true) :
    RootTree (fun k => ρ * (l.getD k 0 : ℤ)) m := by
  have hcast : ∀ {x y : ℤ}, squares q c x y = true → (ρ * x) ^ 2 = ρ * y := by
    intro x y h
    have hzero := (ZMod.intCast_zmod_eq_zero_iff_dvd _ q).mpr (Int.dvd_of_emod_eq_zero (beq_iff_eq.mp h))
    push_cast at hzero
    linear_combination ρ ^ 2 * hzero + ρ * y * hρ
  constructor
  · rw [hcast hroot, Int.cast_neg, mul_neg, mul_comm, hρ]
  · intro v hv hv'
    have htable := stretches_getD 0 hsq (show v - 2 < 2 ^ m - 2 by omega) (by omega)
      (by simp [bothSigns]; omega)
    rw [Nat.add_sub_cancel' hv, getD_bothSigns] at htable
    rw [hcast htable, signed]
    split <;> simp

end Ntt
