import Mathlib.Tactic.IntervalCases
import Tlcp.Lib.Ntt
import Tlcp.Lib.Signed

/-!
# Tlcp.AigisEnc.Arith

The parameter sets of Aigis-Enc, its reductions and its number-theoretic transforms
(`params.h`, `reduce.c`, `ntt.c`).  A coefficient is a signed 16-bit integer.
The transforms reduce only in some of their passes; the bounds below say that
this is enough, and the residues are those of the transform that takes the
product modulo `x ^ 256 + 1` to the product cell by cell.
-/

namespace Tlcp.AigisEnc

open Butterfly Signed

/-! ## parameters -/

/-- The values of `PARAMS`. -/
inductive ParamSet where
  | params1
  | params2
  | params3
  | params4
  deriving DecidableEq, Repr

/-- `PARAM_Q`. -/
def q : ℕ := 7681

/-- `QINV`. -/
def qinv : ℤ := 57857

namespace ParamSet

/-- `PARAM_K`. -/
def k : ParamSet → ℕ
  | params1 => 2
  | params2 => 3
  | params3 => 3
  | params4 => 4

/-- `BITS_PK`. -/
def bitsPk : ParamSet → ℕ
  | params1 => 10
  | params2 => 9
  | params3 => 10
  | params4 => 11

/-- `BITS_C1`. -/
def bitsC1 : ParamSet → ℕ
  | params1 => 10
  | params2 => 9
  | params3 => 10
  | params4 => 11

/-- `BITS_C2`. -/
def bitsC2 : ParamSet → ℕ
  | params1 => 3
  | params2 => 4
  | params3 => 3
  | params4 => 5

end ParamSet

/-- `poly`: the coefficients, each an `int16_t`. -/
abbrev Poly := Fin 256 → ℤ

/-! ## reductions -/

/-- The conversion to `int16_t`. -/
def int16 (x : ℤ) : ℤ := wrap 16 x

/-- `montgomery_reduce`. -/
def montgomeryReduce (a : ℤ) : ℤ := let t := int16 (int16 a * qinv)
  int16 ((a - t * q) / 2 ^ 16)

/-- `barrett_reduce`. -/
def barrettReduce (a : ℤ) : ℤ := let u := int16 ((a + 2 ^ 12) / 2 ^ 13)
  let u := int16 (u * q)
  int16 (a - u)

/-- `caddq`. -/
def caddq (x : ℤ) : ℤ := int16 (x + if x < 0 then (q : ℤ) else 0)

/-- `caddq2`. -/
def caddq2 (x : ℤ) : ℤ := let r := int16 (x + if x < 0 then (q : ℤ) else 0)
  int16 (r + if r < 0 then (q : ℤ) else 0)

/-! ## transforms -/

/-- `zetas`. -/
def zetas : List ℤ :=
  [0, 3777, -3182, 3625, -3696, -1100, 2456, 2194, 121, -2250, 834, -2495, -2319, 2876, -1701,
   1414, 2816, -2088, -2237, 1986, -1599, 1993, 3706, -2006, -1525, -2557, 1296, 1483, -2830, 3364,
   617, 1921, -3689, -1738, 3266, -3600, 810, 1887, -638, -7, -438, -679, -1305, -1760, 396, -3174,
   -3555, -1881, 3772, -2535, -2440, -2555, 1535, -549, 3153, 2310, -1399, 1321, 514, -2956, -103,
   2804, -2043, -1431, -1054, 1698, -3456, 1166, 2426, 3831, 915, -2, -3417, -194, 2919, 2789,
   3405, 2385, -2113, -2732, 2175, 373, 3692, -730, -1756, 3135, -2391, 660, -1497, 2572, -3145,
   1350, -2224, -3588, -1681, 2883, -1390, 1598, 3750, 2762, 2835, 2764, -2233, 3816, -1533, 1464,
   -727, 1521, 1386, -3428, -921, -2743, -2160, 2649, -859, 2579, 1532, 1919, -486, 404, -1056,
   783, 1799, -2665, 3480, 2133, -3310, -1168, -17, 3744, 2422, 2001, 1278, 929, -1348, -2230,
   -179, -1242, -2059, -1070, 2161, 1649, 2072, 3177, -2071, 1121, -436, 236, 715, 670, -658,
   -1476, -2378, 2767, 3542, -226, 1203, 1181, -151, -3794, 1712, -222, 2786, -451, -3547, 1779,
   -1151, -434, 3568, -3693, 3581, -1586, 1509, 2918, 2339, -1407, 3434, -3550, 2340, 2891, 2998,
   -3314, 3461, -2719, -2247, -2589, 1144, 1072, 1295, -2815, -3770, 3450, 3781, -2258, 796, 3163,
   -3208, -589, 2963, -124, 3214, 3334, -3366, -3745, 3723, 1931, -429, -402, -3408, 83, -1526,
   826, -1338, 2345, -2303, 2515, -642, -1837, -2965, -791, 370, 293, 3312, 2083, -1689, -777,
   2070, 2262, -893, 2386, -188, -1519, -2874, -1404, 1012, 2130, 1441, 2532, -3335, -1084, -3343,
   2937, 509, -1403, 2812, 3763, 592, 2005, 3657, 2460, -3677, 3752, 692, 1669, 2167, -3287]

/-- `zetas_inv`. -/
def zetasInv : List ℤ :=
  [3287, -2167, -1669, -692, -3752, 3677, -2460, -3657, -2005, -592, -3763, -2812, 1403, -509,
   -2937, 3343, 1084, 3335, -2532, -1441, -2130, -1012, 1404, 2874, 1519, 188, -2386, 893, -2262,
   -2070, 777, 1689, -2083, -3312, -293, -370, 791, 2965, 1837, 642, -2515, 2303, -2345, 1338,
   -826, 1526, -83, 3408, 402, 429, -1931, -3723, 3745, 3366, -3334, -3214, 124, -2963, 589, 3208,
   -3163, -796, 2258, -3781, -3450, 3770, 2815, -1295, -1072, -1144, 2589, 2247, 2719, -3461, 3314,
   -2998, -2891, -2340, 3550, -3434, 1407, -2339, -2918, -1509, 1586, -3581, 3693, -3568, 434,
   1151, -1779, 3547, 451, -2786, 222, -1712, 3794, 151, -1181, -1203, 226, -3542, -2767, 2378,
   1476, 658, -670, -715, -236, 436, -1121, 2071, -3177, -2072, -1649, -2161, 1070, 2059, 1242,
   179, 2230, 1348, -929, -1278, -2001, -2422, -3744, 17, 1168, 3310, -2133, -3480, 2665, -1799,
   -783, 1056, -404, 486, -1919, -1532, -2579, 859, -2649, 2160, 2743, 921, 3428, -1386, -1521,
   727, -1464, 1533, -3816, 2233, -2764, -2835, -2762, -3750, -1598, 1390, -2883, 1681, 3588, 2224,
   -1350, 3145, -2572, 1497, -660, 2391, -3135, 1756, 730, -3692, -373, -2175, 2732, 2113, -2385,
   -3405, -2789, -2919, 194, 3417, 2, -915, -3831, -2426, -1166, 3456, -1698, 1054, 1431, 2043,
   -2804, 103, 2956, -514, -1321, 1399, -2310, -3153, 549, -1535, 2555, 2440, 2535, -3772, 1881,
   3555, 3174, -396, 1760, 1305, 679, 438, 7, 638, -1887, -810, 3600, -3266, 1738, 3689, -1921,
   -617, -3364, 2830, -1483, -1296, 2557, 1525, 2006, -3706, -1993, 1599, -1986, 2237, 2088, -2816,
   -1414, 1701, -2876, 2319, 2495, -834, 2250, -121, -2194, -2456, 1100, 3696, -3625, 3182, -1905]

/-- The loop body of `ntt`, which reduces in the passes of distance 64, 8 and 1. -/
def nttButterfly (len k : ℕ) (x y : ℤ) : ℤ × ℤ := let t := montgomeryReduce (zetas.getD k 0 * y)
  if len = 64 ∨ len = 8 ∨ len = 1 then (barrettReduce (int16 (x + t)), barrettReduce (int16 (x - t)))
  else (int16 (x + t), int16 (x - t))

/-- `ntt`. -/
def ntt (a : Poly) : Poly := passes nttButterfly [128, 64, 32, 16, 8, 4, 2, 1] 1 a

/-- The loop body of `invntt`: it reduces in the passes of distance 2, 8 and 32,
and the last pass also divides by the number of cells. -/
def invnttButterfly (len k : ℕ) (x y : ℤ) : ℤ × ℤ := let zeta := zetasInv.getD k 0
  if len = 128 then (montgomeryReduce (256 * int16 (x + y)), montgomeryReduce (zeta * (x - y)))
  else
    (if len = 2 ∨ len = 8 ∨ len = 32 then barrettReduce (int16 (x + y)) else int16 (x + y),
      montgomeryReduce (zeta * (x - y)))

/-- `invntt`. -/
def invntt (a : Poly) : Poly := passes invnttButterfly [1, 2, 4, 8, 16, 32, 64, 128] 0 a

/-! ## residues -/

/-- The inverse of `2 ^ 16` modulo `PARAM_Q`. -/
def rho : ZMod q := 900

theorem two_pow_mul_rho : (2 : ZMod q) ^ 16 * rho = 1 := by
  have h : ((2 ^ 16 * 900 : ℕ) : ZMod q) = (1 : ℕ) := (ZMod.natCast_eq_natCast_iff' _ _ _).mpr rfl
  simpa only [rho, Nat.cast_mul, Nat.cast_pow, Nat.cast_ofNat, Nat.cast_one] using h

theorem q_eq : (q : ℤ) = 7681 := rfl

section

variable {a b c c' m x y : ℤ} {u v : ZMod q}

theorem int16_of_lt (hlo : -2 ^ 15 ≤ x) (hhi : x < 2 ^ 15) : int16 x = x :=
  wrap_of_fits (by omega) (by omega)

theorem Rep.int16 (h : Rep q c x u) (hc : c < 2 ^ 15) : Rep q c (int16 x) u := h.wrap (by omega)

/-- `montgomery_reduce` of a product divides it by `2 ^ 16` modulo `PARAM_Q`. -/
theorem montgomeryReduce_mul (hx : Rep q c x u) (hy : Rep q c' y v) (hc : c * c' ≤ 2 ^ 15 * m)
    (hb : m + q < 2 * (b + 1)) (hfit : b < 2 ^ 15) :
    Rep q b (montgomeryReduce (x * y)) (rho * u * v) := by
  have hinv : (2 : ℤ) ^ 16 ∣ qinv * q - 1 := by decide
  have heq : montgomeryReduce (x * y) = int16 (montgomery 16 q qinv (x * y)) := by
    simp only [montgomeryReduce, AigisEnc.int16, wrap_wrap_mul, montgomery]
  rw [heq, mul_assoc]
  exact Rep.int16 (montgomery_rep hinv two_pow_mul_rho (hx.mul hy) (by omega) hb) hfit

/-- `barrett_reduce` on every word. -/
theorem barrettReduce_rep (h : Rep q c a u) (hc : c < 2 ^ 15) : Rep q 6140 (barrettReduce a) u := by
  have hlo := h.lo
  have hhi := h.hi
  have hval : barrettReduce a = a - (a + 2 ^ 12) / 2 ^ 13 * q := by
    simp only [barrettReduce, q_eq]
    rw [int16_of_lt (x := (a + 2 ^ 12) / 2 ^ 13) (by omega) (by omega),
      int16_of_lt (x := (a + 2 ^ 12) / 2 ^ 13 * 7681) (by omega) (by omega),
      int16_of_lt (by omega) (by omega)]
  rw [hval]
  refine ⟨by rw [q_eq]; omega, by rw [q_eq]; omega, ?_⟩
  rw [Int.cast_sub, Int.cast_mul, Int.cast_natCast, ZMod.natCast_self, mul_zero, sub_zero, h.cast]

/-- `caddq` adds `PARAM_Q` to a negative word. -/
theorem caddq_eq (h : Rep q (2 * q) a u) :
    caddq a = (if a < 0 then a + q else a) ∧ ((caddq a : ℤ) : ZMod q) = u := by
  have hlo := h.lo
  have hhi := h.hi
  rw [q_eq] at hlo hhi
  have heq : caddq a = a + if a < 0 then (q : ℤ) else 0 :=
    int16_of_lt (by rw [q_eq]; split <;> omega) (by rw [q_eq]; split <;> omega)
  rw [heq, Int.cast_add, h.cast]
  split <;> simp

end

/-! ## the transforms on residues -/

/-- The factor of the block `k` of `ntt`. -/
def gamma (k : ℕ) : ZMod q := rho * (zetas.getD k 0 : ℤ)

/-- The factor of the block `k` of `invntt`; that of the last pass is divided by
what the pass scales with. -/
def gammaInv (k : ℕ) : ZMod q := if k = 254 then (zetasInv.getD k 0 : ℤ) * 7651 else rho * (zetasInv.getD k 0 : ℤ)

/-- Each factor and the one that undoes it, up to the powers of `2 ^ 16` that the
reductions take out. -/
def undoes (x y : ℤ) : Bool := (x * y - (2 ^ 16) ^ 2) % q == 0

/-- What the proofs below take from the tables: the range of their entries and
their lengths, that the factors are square roots of each other, and that those
of the two tables are inverse. -/
theorem tables_checked : ((∀ x ∈ zetas, -3840 ≤ x ∧ x ≤ 3840) ∧ ∀ x ∈ zetasInv, -3840 ≤ x ∧ x ≤ 3840) ∧
    (zetas.length = 256 ∧ zetasInv.length = 255) ∧
    (Ntt.squares q (2 ^ 16) (zetas.getD 1 0) (-2 ^ 16) = true ∧
      Ntt.stretches (Ntt.squares q (2 ^ 16)) 254 2 2 zetas (Ntt.bothSigns zetas) = true) ∧
    ((zetas.getD 1 0 * zetasInv.getD 254 0 - 2 ^ 24) % q == 0) = true ∧
      ∀ t < 8, 0 < t →
        Ntt.stretches undoes (2 ^ t) (2 ^ t) (2 ^ 8 - 2 ^ (t + 1)) zetas zetasInv = true := by
  decide +kernel

theorem zetas_rep (k : ℕ) : Rep q 3840 (zetas.getD k 0) ((zetas.getD k 0 : ℤ) : ZMod q) :=
  rep_getD (by omega) tables_checked.1.1 k

theorem zetasInv_rep (k : ℕ) : Rep q 3840 (zetasInv.getD k 0) ((zetasInv.getD k 0 : ℤ) : ZMod q) :=
  rep_getD (by omega) tables_checked.1.2 k

theorem cast_eq_zero {x : ℤ} (h : (x % q == 0) = true) : (x : ZMod q) = 0 :=
  (ZMod.intCast_zmod_eq_zero_iff_dvd _ _).mpr (Int.dvd_of_emod_eq_zero (beq_iff_eq.mp h))

/-- The factors are the square roots that evaluation takes. -/
theorem gamma_rootTree : Ntt.RootTree gamma 8 :=
  Ntt.rootTree_of_table (c := 2 ^ 16) (by exact_mod_cast two_pow_mul_rho) tables_checked.2.1.1
    tables_checked.2.2.1.1 tables_checked.2.2.1.2

theorem gamma_inverse : Ntt.Inverse gamma gammaInv 8 := by
  intro t ht b hb
  rcases Nat.eq_zero_or_pos t with rfl | hpos
  · -- the last pass of `invntt`, which has one block
    obtain rfl : b = 0 := by omega
    have hlast := cast_eq_zero tables_checked.2.2.2.1
    have hscale := cast_eq_zero (x := 2 ^ 8 * 7651 - 1) (by decide)
    show gamma 1 * gammaInv 254 = 1
    rw [gamma, gammaInv, if_pos rfl]
    push_cast at hlast hscale
    linear_combination rho * 7651 * hlast + rho * 2 ^ 16 * hscale + two_pow_mul_rho
  · have hends : 2 ^ t + 2 ^ t ≤ 256 ∧ 2 ^ 8 - 2 ^ (t + 1) + 2 ^ t ≤ 254 := by
      interval_cases t <;> decide
    have htable := Ntt.stretches_getD 0 (tables_checked.2.2.2.2 t ht hpos) hb
      (by rw [tables_checked.2.1.1]; omega) (by rw [tables_checked.2.1.2]; omega)
    have hcast := cast_eq_zero htable
    unfold gamma gammaInv
    rw [if_neg (by omega)]
    push_cast at hcast ⊢
    linear_combination rho ^ 2 * hcast + ((2 : ZMod q) ^ 16 * rho + 1) * two_pow_mul_rho

theorem card_eq : 256 = 2 ^ 8 := by norm_num

/-- The transform that `ntt` computes, on residues. -/
def nttRes : (Fin 256 → ZMod q) →ₗ[ZMod q] (Fin 256 → ZMod q) := Ntt.forward gamma card_eq

/-- The transform that `invntt` computes, on residues. -/
def invnttRes : (Fin 256 → ZMod q) →ₗ[ZMod q] (Fin 256 → ZMod q) :=
  (rho * 256) • Ntt.backward gammaInv card_eq

section

variable {a : Poly} {c : ℤ} {u : Fin 256 → ZMod q}

theorem nttRes_eq (u : Fin 256 → ZMod q) :
    nttRes u = passes (fun _ => Ntt.fwd gamma) [128, 64, 32, 16, 8, 4, 2, 1] 1 u := by
  rw [nttRes, Ntt.forward_eq]
  rfl

/-- A pass adds a reduced product to the words, unless it reduces them. -/
theorem nttButterfly_rep {len k : ℕ} {c' x y : ℤ} {u v : ZMod q} (hc : c + 5760 < 2 ^ 15)
    (hc' : (if len = 64 ∨ len = 8 ∨ len = 1 then 6140 else c + 5760) = c') (hx : Rep q c x u) (hy : Rep q c y v) :
    Rep q c' (nttButterfly len k x y).1 (Ntt.fwd gamma k u v).1 ∧
      Rep q c' (nttButterfly len k x y).2 (Ntt.fwd gamma k u v).2 := by
  have ht := montgomeryReduce_mul (zetas_rep k) hy (m := 3840) (b := 5760) (by omega) (by decide) (by decide)
  have hadd := Rep.int16 (hx.add ht) hc
  have hsub := Rep.int16 (hx.sub ht) hc
  unfold nttButterfly
  subst hc'
  split
  · exact ⟨barrettReduce_rep hadd hc, barrettReduce_rep hsub hc⟩
  · exact ⟨hadd, hsub⟩

/-- The words before each pass of `ntt`, and after the last. -/
def nttBound (d : ℕ) : ℤ := [7681, 13441, 6140, 11900, 17660, 6140, 11900, 17660, 6140].getD d 0

/-- `ntt` on words up to `PARAM_Q`. -/
theorem ntt_rep (h : Reps q c a u) (hc : c ≤ q) : Reps q 6140 (ntt a) (nttRes u) := by
  have hlens : ∀ len ∈ [128, 64, 32, 16, 8, 4, 2, 1], 0 < len ∧ 2 * len ∣ 256 := by decide
  rw [nttRes_eq]
  refine passes_rel (R := fun d => Rep q (nttBound d)) hlens (fun d len hd k _ x y u v hx hy => ?_)
    fun i => (h i).mono hc
  have hd8 : d < 8 := (List.getElem?_eq_some_iff.mp hd).1
  interval_cases d <;> obtain rfl := Option.some.inj hd <;> exact nttButterfly_rep (by decide) (by decide) hx hy

theorem invnttRes_eq (u : Fin 256 → ZMod q) :
    invnttRes u = (rho * 256) • pass (Ntt.bwd gammaInv) 128 254
      (passes (fun _ => Ntt.bwd gammaInv) [1, 2, 4, 8, 16, 32, 64] 0 u) := by
  rw [invnttRes, LinearMap.smul_apply, Ntt.backward_eq]
  rfl

theorem invnttButterfly_rep {len k : ℕ} {c' x y : ℤ} {u v : ZMod q} (hlen : len ≠ 128) (hk : k ≠ 254)
    (hc : 6140 ≤ c ∧ c ≤ 12280) (hc' : (if len = 2 ∨ len = 8 ∨ len = 32 then 6140 else c + c) = c')
    (hx : Rep q c x u) (hy : Rep q c y v) :
    Rep q c' (invnttButterfly len k x y).1 (Ntt.bwd gammaInv k u v).1 ∧
      Rep q c' (invnttButterfly len k x y).2 (Ntt.bwd gammaInv k u v).2 := by
  have hmont := montgomeryReduce_mul (zetasInv_rep k) (hx.sub hy) (m := 2879) (b := 5280) (by omega)
    (by decide) (by decide)
  have hadd := Rep.int16 (hx.add hy) (by omega)
  simp only [invnttButterfly, if_neg hlen, Ntt.bwd, gammaInv, if_neg hk]
  subst hc'
  split
  · exact ⟨barrettReduce_rep hadd (by omega), hmont.mono (by omega)⟩
  · exact ⟨hadd, hmont.mono (by omega)⟩

/-- The last pass also scales. -/
theorem invnttButterfly_last {x y : ℤ} {u v : ZMod q} (hx : Rep q 12280 x u) (hy : Rep q 12280 y v) :
    Rep q 5280 (invnttButterfly 128 254 x y).1 (rho * 256 * (Ntt.bwd gammaInv 254 u v).1) ∧
      Rep q 5280 (invnttButterfly 128 254 x y).2 (rho * 256 * (Ntt.bwd gammaInv 254 u v).2) := by
  have h256 : Rep q 256 256 256 := ⟨by omega, by omega, by simp⟩
  have hscale := cast_eq_zero (x := 2 ^ 8 * 7651 - 1) (by decide)
  have hmont := montgomeryReduce_mul (zetasInv_rep 254) (hx.sub hy) (m := 2879) (b := 5280) (by decide)
    (by decide) (by decide)
  have hfactor : rho * 256 * (Ntt.bwd gammaInv 254 u v).2 =
      rho * ((zetasInv.getD 254 0 : ℤ) : ZMod q) * (u - v) := by
    push_cast at hscale
    simp only [Ntt.bwd, gammaInv, if_true]
    linear_combination rho * ((zetasInv.getD 254 0 : ℤ) : ZMod q) * (u - v) * hscale
  rw [hfactor]
  exact ⟨montgomeryReduce_mul h256 (Rep.int16 (hx.add hy) (by decide)) (m := 192) (by decide) (by decide)
    (by decide), hmont⟩

/-- The words before each pass of `invntt` but the last. -/
def invnttBound (d : ℕ) : ℤ := if d % 2 = 0 then 6140 else 12280

/-- `invntt` on the words that `polyvec_pointwise_acc` leaves. -/
theorem invntt_rep (h : Reps q 6140 a u) : Reps q 5280 (invntt a) (invnttRes u) := by
  have hlens : ∀ len ∈ [1, 2, 4, 8, 16, 32, 64], 0 < len ∧ 2 * len ∣ 256 := by decide
  have hspan : span 256 [1, 2, 4, 8, 16, 32, 64] = 254 := by decide
  have hfirst : Reps q 12280 (passes invnttButterfly [1, 2, 4, 8, 16, 32, 64] 0 a)
      (passes (fun _ => Ntt.bwd gammaInv) [1, 2, 4, 8, 16, 32, 64] 0 u) := by
    refine passes_rel (R := fun d => Rep q (invnttBound d)) hlens (fun d len hd k hk x y u v hx hy => ?_) h
    have hd7 : d < 7 := (List.getElem?_eq_some_iff.mp hd).1
    have hk254 : k ≠ 254 := by omega
    interval_cases d <;> obtain rfl := Option.some.inj hd <;>
      exact invnttButterfly_rep (by decide) hk254 (by decide) (by decide) hx hy
  have hlast : invntt a = pass (invnttButterfly 128) 128 254
      (passes invnttButterfly [1, 2, 4, 8, 16, 32, 64] 0 a) := rfl
  intro i
  rw [hlast, invnttRes_eq, Pi.smul_apply, smul_eq_mul]
  refine pass_rel (S := fun x u => Rep q 5280 x (rho * 256 * u)) (by decide) (by decide)
    (fun j hj hj' x y u v hx hy => ?_) hfirst i
  obtain rfl : j = 254 := by omega
  exact invnttButterfly_last hx hy

end

/-- **The transforms are inverse.** -/
theorem nttRes_invnttRes (u : Fin 256 → ZMod q) : nttRes (invnttRes u) = u := by
  have hscale : (rho * 256 * 2 ^ 8 : ZMod q) = 1 := by
    linear_combination two_pow_mul_rho
  rw [nttRes, invnttRes, LinearMap.smul_apply, map_smul, Ntt.forward_backward gamma_inverse, smul_smul,
    hscale, one_smul]

theorem invnttRes_nttRes (u : Fin 256 → ZMod q) : invnttRes (nttRes u) = u := by
  have : NeZero q := ⟨by decide⟩
  have hsurj : Function.Surjective nttRes := fun v => ⟨invnttRes v, nttRes_invnttRes v⟩
  exact Finite.injective_iff_surjective.mpr hsurj (nttRes_invnttRes _)

/-- **Products modulo `x ^ 256 + 1`.** -/
theorem nttRes_negaMul (u v : Fin 256 → ZMod q) : nttRes (Ntt.negaMul u v) = nttRes u * nttRes v :=
  Ntt.forward_negaMul gamma_rootTree (by omega) card_eq u v

end Tlcp.AigisEnc
