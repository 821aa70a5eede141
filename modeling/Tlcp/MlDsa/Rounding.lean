import Tlcp.MlDsa.Arith

/-!
# Tlcp.MlDsa.Rounding

The splitting of a coefficient into high and low part, by `2 ^ D` for the
public key and by twice `GAMMA2` for the commitment, and the hints
(`rounding.c`).  The two divisions by twice `GAMMA2` are multiplications and
shifts; `decompose_eq` says what they compute.  A hint is made from a low part
that left its range and from the high part it belongs to, while the verifier
only has the sum: `useHint_makeHint` is what makes the two agree.
-/

namespace Tlcp.MlDsa

open Signed

/-! ## the code -/

/-- `power2round`: the high part and what it stores in `*a0`. -/
def power2round (a : ℤ) : ℤ × ℤ := let a1 := int32 (a + 2 ^ (d - 1) - 1) / 2 ^ d
  (a1, int32 (a - a1 * 2 ^ d))

/-- The high part that `decompose` returns. -/
def highBits (p : ParamSet) (a : ℤ) : ℤ := let a1 := int32 (a + 127) / 2 ^ 7
  match p with
  | .mode44 =>
    let a1 := int32 (a1 * 11275 + 2 ^ 23) / 2 ^ 24
    if 43 - a1 < 0 then 0 else a1
  | _ => int32 (a1 * 1025 + 2 ^ 21) / 2 ^ 22 % 16

/-- `decompose`: the high part and what it stores in `*a0`. -/
def decompose (p : ParamSet) (a : ℤ) : ℤ × ℤ := let a1 := highBits p a
  let a0 := int32 (a - a1 * 2 * p.gamma2)
  (a1, int32 (a0 - if (q - 1) / 2 - a0 < 0 then (q : ℤ) else 0))

/-- `make_hint`. -/
def makeHint (p : ParamSet) (a0 a1 : ℤ) : ℤ :=
  if p.gamma2 < a0 ∨ a0 < -p.gamma2 ∨ a0 = -p.gamma2 ∧ a1 ≠ 0 then 1 else 0

/-- `use_hint`. -/
def useHint (p : ParamSet) (a hint : ℤ) : ℤ := let (a1, a0) := decompose p a
  if hint = 0 then a1
  else
    match p with
    | .mode44 =>
      if 0 < a0 then if a1 = 43 then 0 else a1 + 1
      else if a1 = 0 then 43 else a1 - 1
    | _ => if 0 < a0 then (a1 + 1) % 16 else (a1 - 1) % 16

/-! ## what it computes -/

section

variable {p : ParamSet} {a : ℤ}

/-- `power2round` on what `caddq` may leave after the error was added. -/
theorem power2round_spec (hlo : -4 ≤ a) (hhi : a < q + 4) :
    a = (power2round a).1 * 2 ^ d + (power2round a).2 ∧ 0 ≤ (power2round a).1 ∧
      (power2round a).1 < 2 ^ 10 ∧ -2 ^ (d - 1) < (power2round a).2 ∧
      (power2round a).2 ≤ 2 ^ (d - 1) := by
  rw [q_eq] at hhi
  simp only [power2round, d, Nat.add_one_sub_one]
  rw [int32_of_lt (by omega) (by omega), int32_of_lt (by omega) (by omega)]
  omega

/-- How many high parts there are. -/
def highs : ParamSet → ℤ
  | .mode44 => 44
  | _ => 16

theorem gamma2_mode44 : ParamSet.mode44.gamma2 = 95232 := by decide

theorem gamma2_mode65 : ParamSet.mode65.gamma2 = 261888 := by decide

theorem gamma2_mode87 : ParamSet.mode87.gamma2 = 261888 := by decide

/-- Twice `GAMMA2` times the number of high parts is one less than `Q`. -/
theorem gamma2_highs (p : ParamSet) : 2 * p.gamma2 * highs p = q - 1 := by cases p <;> decide

/-- A division by `128 * (2 * n)` in two steps: a shift, and then instead of the
division by `2 * n` a multiplication and a shift, near enough for the integers
that come up. -/
theorem quotient_eq {f e n : ℤ} {s : ℕ} (hlo : 0 ≤ a) (hhi : a < q)
    (hrange : ∀ b : ℤ, 0 ≤ b → b ≤ 65473 → -2 ^ 31 ≤ b * f + e ∧ b * f + e < 2 ^ 31)
    (hquot : ∀ b : ℤ, 0 ≤ b → b ≤ 65473 → (b * f + e) / 2 ^ s = (b + n - 1) / (2 * n)) :
    int32 (int32 (a + 127) / 2 ^ 7 * f + e) / 2 ^ s = (a + 128 * n - 1) / (128 * (2 * n)) := by
  have hq := q_eq
  have hb : 0 ≤ (a + 127) / 2 ^ 7 ∧ (a + 127) / 2 ^ 7 ≤ 65473 := by omega
  have hstep : (a + 128 * n - 1) / 128 = (a + 127) / 2 ^ 7 + n - 1 := by omega
  obtain ⟨hrlo, hrhi⟩ := hrange _ hb.1 hb.2
  have hword : int32 (a + 127) = a + 127 := int32_of_lt (by omega) (by omega)
  rw [hword, int32_of_lt hrlo hrhi, hquot _ hb.1 hb.2, ← hstep, Int.ediv_ediv_of_nonneg (by omega)]

theorem quotient88 (hlo : 0 ≤ a) (hhi : a < q) :
    int32 (int32 (a + 127) / 2 ^ 7 * 11275 + 2 ^ 23) / 2 ^ 24 = (a + 95232 - 1) / (2 * 95232) :=
  quotient_eq (n := 744) hlo hhi (fun b _ _ => by omega) (fun b _ _ => by omega)

theorem quotient32 (hlo : 0 ≤ a) (hhi : a < q) :
    int32 (int32 (a + 127) / 2 ^ 7 * 1025 + 2 ^ 21) / 2 ^ 22 = (a + 261888 - 1) / (2 * 261888) :=
  quotient_eq (n := 2046) hlo hhi (fun b _ _ => by omega) (fun b _ _ => by omega)

/-- The conditional that takes the 44 back to the first high part. -/
theorem ite_eq_mod {c : ℤ} (hlo : 0 ≤ c) (hhi : c ≤ 44) : (if 43 - c < 0 then 0 else c) = c % 44 := by
  split <;> omega

theorem highBits_mode44 (a : ℤ) : highBits .mode44 a =
    if 43 - int32 (int32 (a + 127) / 2 ^ 7 * 11275 + 2 ^ 23) / 2 ^ 24 < 0 then 0
    else int32 (int32 (a + 127) / 2 ^ 7 * 11275 + 2 ^ 23) / 2 ^ 24 := rfl

theorem highBits_of_ne (hp : p ≠ .mode44) (a : ℤ) :
    highBits p a = int32 (int32 (a + 127) / 2 ^ 7 * 1025 + 2 ^ 21) / 2 ^ 22 % 16 := by
  cases p with
  | mode44 => contradiction
  | mode65 => rfl
  | mode87 => rfl

/-- The multiplications and shifts divide by twice `GAMMA2`, rounding to the
nearest; past the last high part comes the first again. -/
theorem highBits_eq (hlo : 0 ≤ a) (hhi : a < q) :
    highBits p a = (a + p.gamma2 - 1) / (2 * p.gamma2) % highs p := by
  cases p with
  | mode44 =>
    rw [highBits_mode44, quotient88 hlo hhi, gamma2_mode44, highs]
    rw [q_eq] at hhi
    exact ite_eq_mod (by omega) (by omega)
  | mode65 =>
    rw [highBits_of_ne (by decide), quotient32 hlo hhi, gamma2_mode65]
    rfl
  | mode87 =>
    rw [highBits_of_ne (by decide), quotient32 hlo hhi, gamma2_mode87]
    rfl

theorem gamma2_range (p : ParamSet) : 0 < p.gamma2 ∧ p.gamma2 < 2 ^ 18 := by cases p <;> decide

/-- The high part below the last one, with a centred low part. -/
theorem decompose_of_split {c r : ℤ} (hc₀ : 0 ≤ c) (hc : c < highs p) (hr₀ : -p.gamma2 < r)
    (hr : r ≤ p.gamma2) (ha : a = 2 * p.gamma2 * c + r) (hlo : 0 ≤ a) : decompose p a = (c, r) := by
  have hg := gamma2_range p
  have hq := q_eq
  have hle : 2 * p.gamma2 * (c + 1) ≤ 2 * p.gamma2 * highs p := by gcongr <;> omega
  rw [gamma2_highs, mul_add, mul_one] at hle
  have hquot : (a + p.gamma2 - 1) / (2 * p.gamma2) = c :=
    ((Int.ediv_emod_unique (show 0 < 2 * p.gamma2 by omega)).mpr
      (show r + p.gamma2 - 1 + 2 * p.gamma2 * c = a + p.gamma2 - 1 ∧ 0 ≤ r + p.gamma2 - 1 ∧
        r + p.gamma2 - 1 < 2 * p.gamma2 by omega)).1
  have hhigh : highBits p a = c := by
    rw [highBits_eq hlo (by omega), hquot, Int.emod_eq_of_lt hc₀ hc]
  have hlow : a - c * 2 * p.gamma2 = r := by rw [ha]; ring
  have hword : int32 r = r := int32_of_lt (by omega) (by omega)
  simp only [decompose, hhigh, hlow, hword]
  rw [if_neg (by omega), sub_zero, hword]

/-- Past the last high part. -/
theorem decompose_of_top {r : ℤ} (hr₀ : -p.gamma2 ≤ r) (hr : r < 0) (ha : a = q + r) :
    decompose p a = (0, r) := by
  have hg := gamma2_range p
  have hq := q_eq
  have hall := gamma2_highs p
  have hquot : (a + p.gamma2 - 1) / (2 * p.gamma2) = highs p :=
    ((Int.ediv_emod_unique (show 0 < 2 * p.gamma2 by omega)).mpr
      (show r + p.gamma2 + 2 * p.gamma2 * highs p = a + p.gamma2 - 1 ∧ 0 ≤ r + p.gamma2 ∧
        r + p.gamma2 < 2 * p.gamma2 by omega)).1
  have hhigh : highBits p a = 0 := by
    rw [highBits_eq (by omega) (by omega), hquot, Int.emod_self]
  have hword : int32 a = a := int32_of_lt (by omega) (by omega)
  simp only [decompose, hhigh, zero_mul, sub_zero, hword]
  rw [if_pos (by omega), int32_of_lt (by omega) (by omega)]
  exact Prod.ext rfl (by simp only; omega)

/-- **Decomposition**: a residue is twice `GAMMA2` times its high part plus its
low part. -/
theorem decompose_spec (hlo : 0 ≤ a) (hhi : a < q) :
    0 ≤ (decompose p a).1 ∧ (decompose p a).1 < highs p ∧ -p.gamma2 ≤ (decompose p a).2 ∧
      (decompose p a).2 ≤ p.gamma2 ∧
      (a : ZMod q) = (2 * p.gamma2 * (decompose p a).1 + (decompose p a).2 : ℤ) := by
  have hg := gamma2_range p
  have hh : 0 < highs p := by cases p <;> decide
  have hall := gamma2_highs p
  rcases lt_or_ge a (q - p.gamma2) with hlt | hge
  · obtain ⟨c, hc⟩ : ∃ c, (a + p.gamma2 - 1) / (2 * p.gamma2) = c := ⟨_, rfl⟩
    have hpos : 0 < 2 * p.gamma2 := by omega
    have hle : 2 * p.gamma2 * c ≤ a + p.gamma2 - 1 := hc ▸ Int.mul_ediv_self_le hpos.ne'
    have hgt : a + p.gamma2 - 1 < 2 * p.gamma2 * c + 2 * p.gamma2 := hc ▸ Int.lt_mul_ediv_self_add hpos
    have hc₀ : 0 ≤ c := hc ▸ Int.ediv_nonneg (by omega) hpos.le
    have hch : c < highs p := lt_of_mul_lt_mul_left (show 2 * p.gamma2 * c < 2 * p.gamma2 * highs p by omega)
      hpos.le
    rw [decompose_of_split hc₀ hch (r := a - 2 * p.gamma2 * c) (by omega) (by omega) (by omega) hlo]
    refine ⟨hc₀, hch, by simp only; omega, by simp only; omega, by congr 1; simp only; omega⟩
  · rw [decompose_of_top (r := a - q) (by omega) (by omega) (by omega)]
    refine ⟨le_rfl, hh, by simp only; omega, by simp only; omega, ?_⟩
    simp

end

/-! ## hints -/

section

variable {p : ParamSet} {a c r : ℤ}

theorem makeHint_zero_or_one (p : ParamSet) (a0 a1 : ℤ) : makeHint p a0 a1 = 0 ∨ makeHint p a0 a1 = 1 := by
  unfold makeHint
  split <;> simp

/-- A set hint moves to the next high part, around at the ends. -/
theorem useHint_one (p : ParamSet) {a0 a1 : ℤ} (h : decompose p a = (a1, a0)) (h₀ : 0 ≤ a1)
    (hh : a1 < highs p) :
    useHint p a 1 = if 0 < a0 then if a1 = highs p - 1 then 0 else a1 + 1
      else if a1 = 0 then highs p - 1 else a1 - 1 := by
  cases p <;> simp only [useHint, h, highs] at hh ⊢ <;> grind

theorem useHint_zero (p : ParamSet) {a0 a1 : ℤ} (h : decompose p a = (a1, a0)) : useHint p a 0 = a1 := by
  simp [useHint, h]

/-- The representative of a sum of a multiple of twice `GAMMA2` and a low part
that left its range. -/
theorem representative (hc₀ : 0 ≤ c) (hc : c < highs p) (hr₀ : -(2 * p.gamma2) < r)
    (hr : r < 2 * p.gamma2) (hlo : 0 ≤ a) (hhi : a < q) (ha : (a : ZMod q) = (2 * p.gamma2 * c + r : ℤ)) :
    0 ≤ 2 * p.gamma2 * c + r ∧ a = 2 * p.gamma2 * c + r ∨ c = 0 ∧ r < 0 ∧ a = q + r := by
  have hg := gamma2_range p
  have hle : 2 * p.gamma2 * (c + 1) ≤ 2 * p.gamma2 * highs p := by gcongr <;> omega
  have hmul : 0 ≤ 2 * p.gamma2 * c := mul_nonneg (by omega) hc₀
  rw [gamma2_highs, mul_add, mul_one] at hle
  rcases lt_or_ge (2 * p.gamma2 * c + r) 0 with hneg | hpos
  · have hzero : c = 0 := by
      by_contra hne
      have hone : 2 * p.gamma2 * 1 ≤ 2 * p.gamma2 * c := by gcongr <;> omega
      omega
    subst hzero
    have hcast : (a : ZMod q) = (q + r : ℤ) := by rw [ha]; simp
    exact .inr ⟨rfl, by omega, eq_of_cast_eq hcast (by omega) (by omega)⟩
  · exact .inl ⟨hpos, eq_of_cast_eq ha (by omega) (by omega)⟩

/-- **Hints**: the hint for a low part that left its range takes the verifier
back to the high part it belongs to. -/
theorem useHint_makeHint (hc₀ : 0 ≤ c) (hc : c < highs p) (hr₀ : -(2 * p.gamma2) < r)
    (hr : r < 2 * p.gamma2) (hlo : 0 ≤ a) (hhi : a < q)
    (ha : (a : ZMod q) = (2 * p.gamma2 * c + r : ℤ)) : useHint p a (makeHint p r c) = c := by
  have hg := gamma2_range p
  have hall := gamma2_highs p
  have hnext : 2 * p.gamma2 * (c + 1) = 2 * p.gamma2 * c + 2 * p.gamma2 := by ring
  have hprev : 2 * p.gamma2 * (c - 1) = 2 * p.gamma2 * c - 2 * p.gamma2 := by ring
  have hlast : 2 * p.gamma2 * (highs p - 1) = 2 * p.gamma2 * highs p - 2 * p.gamma2 := by ring
  have hrep := representative hc₀ hc hr₀ hr hlo hhi ha
  unfold makeHint
  split
  · next hout =>
    rcases hrep with ⟨hpos, heq⟩ | ⟨rfl, hneg, heq⟩
    · rcases lt_or_ge p.gamma2 r with hup | hdown
      · -- above the range: the sum is in the next high part, or past the last one
        rcases lt_or_ge (c + 1) (highs p) with hin | htop
        · rw [useHint_one p (decompose_of_split (c := c + 1) (r := r - 2 * p.gamma2) (by omega) hin
            (by omega) (by omega) (by omega) hlo) (by omega) hin]
          rw [if_neg (by omega), if_neg (by omega)]
          omega
        · obtain rfl : c = highs p - 1 := by omega
          rw [useHint_one p (decompose_of_top (r := r - 2 * p.gamma2 - 1) (by omega) (by omega)
            (by omega)) le_rfl (by omega)]
          rw [if_neg (by omega), if_pos rfl]
      · -- below the range, or at its end
        have hne : c ≠ 0 := by rintro rfl; omega
        rw [useHint_one p (decompose_of_split (c := c - 1) (r := r + 2 * p.gamma2) (by omega) (by omega)
          (by omega) (by omega) (by omega) hlo) (by omega) (by omega)]
        rw [if_pos (by omega), if_neg (by omega)]
        omega
    · rw [useHint_one p (decompose_of_split (c := highs p - 1) (r := r + 2 * p.gamma2 + 1) (by omega)
        (by omega) (by omega) (by omega) (by omega) hlo) (by omega) (by omega)]
      rw [if_pos (by omega), if_pos rfl]
  · next hin =>
    rcases hrep with ⟨hpos, heq⟩ | ⟨rfl, hneg, heq⟩
    · have hlow : -p.gamma2 < r := by
        by_contra hle
        have hzero : c = 0 := by by_contra hne; exact hin (by omega)
        subst hzero
        omega
      exact useHint_zero p (decompose_of_split hc₀ hc hlow (by omega) heq hlo)
    · exact useHint_zero p (decompose_of_top (by omega) hneg heq)

end

end Tlcp.MlDsa
