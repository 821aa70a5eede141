import Tlcp.AigisSig.Arith

/-!
# Tlcp.AigisSig.Rounding

The splitting of a residue into high and low part, by a power of two for the
public key and by `ALPHA` for the commitment, and the one-bit hints with which
the verifier corrects the high part (`rounding.c`).  The main result is
`useHint_makeHint`: a hint made for a sum recovers the high part of the one
summand when the other is below `GAMMA2`.
-/

namespace Tlcp.AigisSig

/-! ## the code -/

/-- The conversion of an integer to `uint32_t`. -/
def word (x : ℤ) : ℕ := (x % 2 ^ 32).toNat

/-- The conversion of an integer to `int32_t`. -/
def int32 (x : ℤ) : ℤ := (x + 2 ^ 31) % 2 ^ 32 - 2 ^ 31

/-- `(t >> 31) & x` of an `int32_t`. -/
def ifNeg (t x : ℤ) : ℤ := if t < 0 then x else 0

/-- The three statements with which `power2round` and `decompose` centre the
remainder `t` of a division by `m`. -/
def centre (m t : ℤ) : ℤ := let t := t - (m / 2 + 1)
  let t := t + ifNeg t m
  t - (m / 2 - 1)

/-- `power2round`: the high part and what it stores in `*a0`. -/
def power2round (p : ParamSet) (a : ℕ) : ℕ × ℕ := let t := centre (2 ^ p.d) (a % 2 ^ p.d : ℕ)
  (word (a - t) / 2 ^ p.d, word (p.q + t))

/-- The shift of the division by `ALPHA`. -/
def ParamSet.alphaShift : ParamSet → ℕ
  | params1 => 20
  | _ => 21

/-- `decompose`: the high part and what it stores in `*a0`. -/
def decompose (p : ParamSet) (a : ℕ) : ℕ × ℕ :=
  let u : ℤ := (a * 3 % 2 ^ 32 / 2 ^ p.alphaShift + 1 : ℕ)
  let t := int32 (a - u * p.alpha)
  let u := u - ifNeg t 1
  let t := t + ifNeg t p.alpha
  let t := centre p.alpha t
  let a := word (u + ifNeg t 1)
  if a = 6 then (0, word (p.q + t - 1)) else (a, word (p.q + t))

/-- `make_hint`. -/
def makeHint (p : ParamSet) (a b : ℕ) : ℕ :=
  if (decompose p a).1 ≠ (decompose p (freeze4q p (add32 a b))).1 then 1 else 0

/-- `use_hint`. -/
def useHint (p : ParamSet) (a hint : ℕ) : ℕ := let a1 := (decompose p a).1
  let a0 := (decompose p a).2
  if hint = 0 then a1
  else if p.q < a0 then if a1 = (p.q - 1) / p.alpha - 1 then 0 else a1 + 1
  else if a1 = 0 then (p.q - 1) / p.alpha - 1 else a1 - 1

/-- What `poly_chknorm` compares with its bound, for one coefficient. -/
def centredAbs (p : ParamSet) (a : ℕ) : ℕ := let t := int32 ((p.q - 1) / 2 - a)
  let t := if t < 0 then -t - 1 else t
  word ((p.q - 1) / 2 - t)

/-! ## what it computes -/

section

variable {p : ParamSet} {a b : ℕ}

theorem int32_of_range {x : ℤ} (h₀ : -2 ^ 31 ≤ x) (h : x < 2 ^ 31) : int32 x = x := by
  unfold int32
  omega

/-- The centred remainder, of smallest absolute value. -/
theorem centre_spec {m t : ℤ} (hm : m % 2 = 0) (h₀ : 0 ≤ t) (h : t < m) :
    ∃ r, centre m t = r ∧ (r = t ∧ t ≤ m / 2 ∨ r = t - m ∧ m / 2 < t) := by
  refine ⟨_, rfl, ?_⟩
  simp only [centre, ifNeg]
  split <;> omega

theorem centredAbs_lt_iff {m : ℕ} (ha : a < p.q) : centredAbs p a < m ↔ a < m ∨ p.q - a < m := by
  have hq := q_lt p
  have hodd : 2 * ((p.q - 1) / 2) + 1 = p.q := by cases p <;> rfl
  have hval : centredAbs p a = if 2 * a < p.q then a else p.q - a := by
    unfold centredAbs
    simp only
    rw [int32_of_range (by omega) (by omega)]
    unfold word
    split <;> split <;> omega
  rw [hval]
  split <;> omega

/-- `power2round` splits a residue, its low part shifted by `PARAM_Q`. -/
theorem power2round_spec (ha : a < p.q) : (power2round p a).1 < 256 ∧
      (a : ℤ) = (power2round p a).1 * 2 ^ p.d + ((power2round p a).2 - p.q) ∧
      (p.q : ℤ) - 2 ^ (p.d - 1) < (power2round p a).2 ∧
      ((power2round p a).2 : ℤ) ≤ p.q + 2 ^ (p.d - 1) := by
  have hlt : a % 2 ^ p.d < 2 ^ p.d := Nat.mod_lt _ (Nat.two_pow_pos _)
  obtain ⟨r, hr, hcases⟩ := centre_spec (m := 2 ^ p.d) (t := (a % 2 ^ p.d : ℕ))
    (by cases p <;> rfl) (by omega) (by exact_mod_cast hlt)
  simp only [power2round, hr, word]
  cases p <;> simp only [ParamSet.q, ParamSet.d] at ha hcases hlt ⊢ <;> omega

/-- The fast division by `ALPHA`, corrected by the sign of the remainder. -/
theorem alphaDiv_spec {u t : ℤ} (ha : a < p.q)
    (hu : u = (a * 3 % 2 ^ 32 / 2 ^ p.alphaShift + 1 : ℕ)) (ht : t = int32 (a - u * p.alpha)) :
    u - ifNeg t 1 = (a / p.alpha : ℕ) ∧ t + ifNeg t p.alpha = (a % p.alpha : ℕ) := by
  obtain ⟨k, hk⟩ : ∃ k, a * 3 % 2 ^ 32 / 2 ^ p.alphaShift = k := ⟨_, rfl⟩
  rw [hk] at hu
  -- the shift is at most one multiple short of the quotient
  have hclose : k * p.alpha ≤ a ∧ a < k * p.alpha + 2 * p.alpha ∧ p.alpha < 2 ^ 30 := by
    rw [Nat.mod_eq_of_lt (by have := q_lt p; omega)] at hk
    cases p <;> simp only [ParamSet.q, ParamSet.alpha, ParamSet.gamma2, ParamSet.alphaShift] at ha hk ⊢ <;> omega
  have hval : t = a - k * p.alpha - p.alpha := by
    rw [ht, hu, int32_of_range] <;> push_cast <;> rw [add_mul, one_mul] <;> omega
  unfold ifNeg
  split
  · next hneg =>
    obtain ⟨hdiv, hmod⟩ := (Nat.div_mod_unique (show 0 < p.alpha by omega)).mpr
      (show a - k * p.alpha + p.alpha * k = a ∧ a - k * p.alpha < p.alpha by
        rw [Nat.mul_comm p.alpha k]; omega)
    rw [hdiv, hmod]
    omega
  · next hneg =>
    obtain ⟨hdiv, hmod⟩ := (Nat.div_mod_unique (show 0 < p.alpha by omega)).mpr
      (show a - (k + 1) * p.alpha + p.alpha * (k + 1) = a ∧ a - (k + 1) * p.alpha < p.alpha by
        rw [Nat.mul_comm p.alpha, Nat.add_mul]; omega)
    rw [hdiv, hmod, Nat.add_mul]
    omega

/-- The parts of `decompose`: a multiple of `ALPHA` and a centred remainder,
shifted by `PARAM_Q`; the residues next to `PARAM_Q` count as negative. -/
theorem decompose_spec (ha : a < p.q) :
    ∃ a₁ : ℕ, ∃ r : ℤ, (decompose p a).1 = a₁ ∧ ((decompose p a).2 : ℤ) = p.q + r ∧ a₁ < 6 ∧
      r ≤ p.gamma2 ∧ (a = a₁ * p.alpha + r ∧ -p.gamma2 < r ∨ a₁ = 0 ∧ a = p.q + r ∧ r < 0 ∧ -p.gamma2 ≤ r) := by
  obtain ⟨hu, ht⟩ := alphaDiv_spec ha rfl rfl
  obtain ⟨r, hr, hcases⟩ := centre_spec (m := p.alpha) (t := (a % p.alpha : ℕ))
    (by cases p <;> rfl) (by omega) (by exact_mod_cast Nat.mod_lt _ (by cases p <;> decide))
  have hhigh : ∃ a₁ : ℕ, word ((a / p.alpha : ℕ) + ifNeg r 1) = a₁ ∧
      (a₁ = a / p.alpha ∧ 0 ≤ r ∨ a₁ = a / p.alpha + 1 ∧ r < 0) := by
    refine ⟨_, rfl, ?_⟩
    unfold word ifNeg
    cases p <;> simp only [ParamSet.q, ParamSet.alpha, ParamSet.gamma2] at ha hcases ⊢ <;> split <;> omega
  obtain ⟨a₁, ha₁, hhigh⟩ := hhigh
  simp only [decompose, hu, ht, hr, ha₁]
  unfold word
  by_cases htop : a₁ = 6
  · rw [if_pos htop]
    refine ⟨0, r - 1, rfl, ?_, by omega, ?_, .inr ⟨rfl, ?_⟩⟩ <;> clear hu ht hr ha₁ <;>
    cases p <;> simp only [ParamSet.q, ParamSet.alpha, ParamSet.gamma2] at ha hcases hhigh ⊢ <;> omega
  · rw [if_neg htop]
    refine ⟨a₁, r, rfl, ?_⟩
    clear hu ht hr ha₁
    cases p <;> simp only [ParamSet.q, ParamSet.alpha, ParamSet.gamma2] at ha hcases hhigh ⊢ <;> omega

theorem sum_wrap {m s r c : ℕ} (hr : r < m) (hc : c < m) (hsum : s = (r + c) % m) :
    s = r + c ∨ s + m = r + c := by
  rcases Nat.lt_or_ge (r + c) m with h | h
  · exact .inl (by rw [hsum, Nat.mod_eq_of_lt h])
  · rw [Nat.mod_eq_sub_mod h, Nat.mod_eq_of_lt (by omega)] at hsum
    exact .inr (by omega)

/-- Two residues that differ by at most `GAMMA2` have the same high part or
neighbouring ones, on the side that the low part tells. -/
theorem neighbours {s r c : ℕ} (hs : s < p.q) (hr : r < p.q) (hsum : s = (r + c) % p.q)
    (hc : c < p.q) (hnorm : c ≤ p.gamma2 ∨ p.q - c ≤ p.gamma2) (hne : (decompose p s).1 ≠ (decompose p r).1) :
    (decompose p r).1 =
      if p.q < (decompose p s).2 then if (decompose p s).1 = 5 then 0 else (decompose p s).1 + 1
      else if (decompose p s).1 = 0 then 5 else (decompose p s).1 - 1 := by
  obtain ⟨s₁, x, hs₁, hs₀, hs6, hx, hscases⟩ := decompose_spec hs
  obtain ⟨r₁, y, hr₁, -, hr6, hy, hrcases⟩ := decompose_spec hr
  rw [hs₁, hr₁] at hne ⊢
  have hlow : p.q < (decompose p s).2 ↔ 0 < x := by omega
  rw [if_congr hlow rfl rfl]
  clear hs₁ hr₁ hs₀ hlow
  have hwrap := sum_wrap hr hc hsum
  clear hsum
  cases p <;> simp only [ParamSet.q, ParamSet.alpha, ParamSet.gamma2] at * <;> split <;> split <;> omega

/-- With the hint for `s` and a second summand that leads back to `r`, `use_hint`
finds the high part of `r`. -/
theorem useHint_of_back {s r c b : ℕ} (hs : s < p.q) (hr : r < p.q) (hc : c < p.q)
    (hsum : s = (r + c) % p.q) (hnorm : c ≤ p.gamma2 ∨ p.q - c ≤ p.gamma2)
    (hback : freeze4q p (add32 s b) = r) :
    useHint p s (makeHint p s b) = (decompose p r).1 := by
  have hsix : (p.q - 1) / p.alpha - 1 = 5 := by cases p <;> rfl
  unfold makeHint useHint
  rw [hback, hsix]
  by_cases hne : (decompose p s).1 = (decompose p r).1
  · simp [hne]
  · simp only [ne_eq, hne, not_false_eq_true, if_true, if_neg (show ¬ (1 : ℕ) = 0 by omega)]
    exact (neighbours hs hr hsum hc hnorm hne).symm

/-- **Hints**: with the hint that `make_hint` computes for `s` and the negated
`c`, `use_hint` finds the high part of the residue `r` that `s` is the sum of
`r` and `c` of. -/
theorem useHint_makeHint {s r c : ℕ} (hs : s < p.q) (hr : r < p.q) (hc : c < p.q)
    (hsum : s = (r + c) % p.q) (hnorm : centredAbs p c < p.gamma2) :
    useHint p s (makeHint p s (2 * p.q - c)) = (decompose p r).1 := by
  have hq := q_lt p
  refine useHint_of_back hs hr hc hsum
    (((centredAbs_lt_iff hc).mp hnorm).imp Nat.le_of_lt Nat.le_of_lt) ?_
  rw [add32, Nat.mod_eq_of_lt (by omega), freeze4q_eq (by omega)]
  rcases sum_wrap hr hc hsum with h | h
  · rw [show s + (2 * p.q - c) = r + 2 * p.q by omega, Nat.add_mul_mod_self_right, Nat.mod_eq_of_lt hr]
  · rw [show s + (2 * p.q - c) = r + p.q by omega, Nat.add_mod_right, Nat.mod_eq_of_lt hr]

/-- **Hint recovery.**  `decompose` splits a residue `r`, and for `a`, the residue
of `r + t` with `|t|` up to `GAMMA2`, the hint made with any representative of
`-t` leads `use_hint` from `a` to the high part of `r`. -/
theorem hint_recovery {r b : ℕ} {t : ℤ} (hr : r < p.q) (ht : |t| ≤ p.gamma2)
    (hb : (b : ℤ) ≡ -t [ZMOD p.q]) {a : ℕ} (ha : a = ((r + t) % p.q).toNat)
    (hlt : a + b < 4 * p.q) :
    (∃ r₁ : ℕ, ∃ r₀ : ℤ, decompose p r = (r₁, (p.q + r₀).toNat) ∧
      (r : ℤ) ≡ r₁ * p.alpha + r₀ [ZMOD p.q] ∧ r₁ ≤ 5 ∧ |r₀| ≤ p.gamma2) ∧
    useHint p a (makeHint p a b) = (decompose p r).1 := by
  have hq := q_lt p
  have hγ : 2 * p.gamma2 < p.q := by cases p <;> decide
  obtain ⟨ht₀, ht₁⟩ := abs_le.mp ht
  obtain ⟨a₁, r₀, h₁, h₀, hsix, hle, hcases⟩ := decompose_spec hr
  refine ⟨⟨a₁, r₀, Prod.ext h₁ (by omega), ?_, by omega, abs_le.mpr (by omega)⟩, ?_⟩
  · rcases hcases with ⟨h, -⟩ | ⟨rfl, h, -⟩
    · rw [h]
    · rw [h]
      simp
  · have hq0 : (0 : ℤ) < p.q := by omega
    have haz : (a : ℤ) = (r + t) % p.q := by
      rw [ha, Int.toNat_of_nonneg (Int.emod_nonneg _ hq0.ne')]
    have halt : a < p.q := by
      have := Int.emod_lt_of_pos (r + t) hq0
      omega
    -- the summand `c` is the residue of `t`
    obtain ⟨c, hct⟩ : ∃ c : ℕ, (c : ℤ) = t ∧ 0 ≤ t ∨ (c : ℤ) = t + p.q ∧ t < 0 := by
      rcases lt_or_ge t 0 with h | h
      · exact ⟨(t + p.q).toNat, .inr ⟨by omega, h⟩⟩
      · exact ⟨t.toNat, .inl ⟨by omega, h⟩⟩
    have hsum : (a : ℤ) = (r + c : ℤ) % p.q := by
      rcases hct with ⟨h, -⟩ | ⟨h, -⟩
      · rw [haz, h]
      · rw [haz, h, ← add_assoc, Int.add_emod_right]
    refine useHint_of_back (c := c) halt hr (by omega) (by exact_mod_cast hsum) (by omega) ?_
    rw [add32, Nat.mod_eq_of_lt (by omega), freeze4q_eq hlt]
    have hback : ((a + b : ℕ) : ℤ) % p.q = r := by
      rw [Nat.cast_add, Int.add_emod, haz, Int.emod_emod, hb, ← Int.add_emod, add_neg_cancel_right,
        Int.emod_eq_of_lt (by omega) (by omega)]
    exact_mod_cast hback

/-- The residue next to the modulus, moved by `GAMMA2`. -/
theorem hint_recovery_top : useHint .params1 168447 (makeHint .params1 168447 (4042754 - 168448)) =
      (decompose .params1 2021376).1 :=
  (hint_recovery (p := .params1) (r := 2021376) (t := 168448) (b := 4042754 - 168448) (by decide)
    (by decide) (by decide) rfl (by decide)).2

end

end Tlcp.AigisSig
