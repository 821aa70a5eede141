import Mathlib.Tactic.IntervalCases
import Tlcp.Lib.Ntt
import Tlcp.Lib.Signed

/-!
# Tlcp.MlDsa.Arith

The parameter sets of ML-DSA, its reductions and its number-theoretic transforms
(`params.h`, `reduce.c`, `ntt.c`).  A coefficient is a signed 32-bit integer
that stands for its residue modulo `Q`; the code reduces lazily, so each
specification says which bound on the inputs gives which bound on the outputs,
and what the residues are.
-/

namespace Tlcp.MlDsa

open Butterfly Signed

/-! ## parameters -/

/-- The values of `ML_DSA_MODE`. -/
inductive ParamSet where
  | mode44
  | mode65
  | mode87
  deriving DecidableEq, Repr

/-- `Q`. -/
def q : ℕ := 8380417

/-- `QINV`. -/
def qinv : ℤ := 58728449

/-- `D`. -/
def d : ℕ := 13

namespace ParamSet

/-- `K`. -/
def k : ParamSet → ℕ
  | mode44 => 4
  | mode65 => 6
  | mode87 => 8

/-- `L`. -/
def l : ParamSet → ℕ
  | mode44 => 4
  | mode65 => 5
  | mode87 => 7

/-- `ETA`. -/
def eta : ParamSet → ℤ
  | mode65 => 4
  | _ => 2

/-- `TAU`. -/
def tau : ParamSet → ℕ
  | mode44 => 39
  | mode65 => 49
  | mode87 => 60

/-- `BETA`. -/
def beta : ParamSet → ℤ
  | mode44 => 78
  | mode65 => 196
  | mode87 => 120

/-- `GAMMA1`. -/
def gamma1 : ParamSet → ℤ
  | mode44 => 2 ^ 17
  | _ => 2 ^ 19

/-- `GAMMA2`. -/
def gamma2 : ParamSet → ℤ
  | mode44 => (q - 1) / 88
  | _ => (q - 1) / 32

/-- `OMEGA`. -/
def omega : ParamSet → ℕ
  | mode44 => 80
  | mode65 => 55
  | mode87 => 75

/-- `CTILDEBYTES`. -/
def ctildebytes : ParamSet → ℕ
  | mode44 => 32
  | mode65 => 48
  | mode87 => 64

end ParamSet

/-- `poly`: the coefficients of a polynomial, `N` of them. -/
abbrev Poly := Fin 256 → ℤ

/-! ## reductions -/

/-- The conversion to `int32_t`; its arithmetic wraps. -/
def int32 (x : ℤ) : ℤ := wrap 32 x

/-- `montgomery_reduce`. -/
def montgomeryReduce (a : ℤ) : ℤ := let t := int32 (int32 a * qinv)
  int32 ((a - t * q) / 2 ^ 32)

/-- `reduce32`. -/
def reduce32 (a : ℤ) : ℤ := let t := int32 (a + 2 ^ 22) / 2 ^ 23
  int32 (a - t * q)

/-- `caddq`. -/
def caddq (a : ℤ) : ℤ := int32 (a + if a < 0 then (q : ℤ) else 0)

/-! ## transforms -/

/-- `zetas`. -/
def zetas : List ℤ :=
  [0, 25847, -2608894, -518909, 237124, -777960, -876248, 466468, 1826347, 2353451, -359251,
   -2091905, 3119733, -2884855, 3111497, 2680103, 2725464, 1024112, -1079900, 3585928, -549488,
   -1119584, 2619752, -2108549, -2118186, -3859737, -1399561, -3277672, 1757237, -19422, 4010497,
   280005, 2706023, 95776, 3077325, 3530437, -1661693, -3592148, -2537516, 3915439, -3861115,
   -3043716, 3574422, -2867647, 3539968, -300467, 2348700, -539299, -1699267, -1643818, 3505694,
   -3821735, 3507263, -2140649, -1600420, 3699596, 811944, 531354, 954230, 3881043, 3900724,
   -2556880, 2071892, -2797779, -3930395, -1528703, -3677745, -3041255, -1452451, 3475950,
   2176455, -1585221, -1257611, 1939314, -4083598, -1000202, -3190144, -3157330, -3632928, 126922,
   3412210, -983419, 2147896, 2715295, -2967645, -3693493, -411027, -2477047, -671102, -1228525,
   -22981, -1308169, -381987, 1349076, 1852771, -1430430, -3343383, 264944, 508951, 3097992,
   44288, -1100098, 904516, 3958618, -3724342, -8578, 1653064, -3249728, 2389356, -210977, 759969,
   -1316856, 189548, -3553272, 3159746, -1851402, -2409325, -177440, 1315589, 1341330, 1285669,
   -1584928, -812732, -1439742, -3019102, -3881060, -3628969, 3839961, 2091667, 3407706, 2316500,
   3817976, -3342478, 2244091, -2446433, -3562462, 266997, 2434439, -1235728, 3513181, -3520352,
   -3759364, -1197226, -3193378, 900702, 1859098, 909542, 819034, 495491, -1613174, -43260,
   -522500, -655327, -3122442, 2031748, 3207046, -3556995, -525098, -768622, -3595838, 342297,
   286988, -2437823, 4108315, 3437287, -3342277, 1735879, 203044, 2842341, 2691481, -2590150,
   1265009, 4055324, 1247620, 2486353, 1595974, -3767016, 1250494, 2635921, -3548272, -2994039,
   1869119, 1903435, -1050970, -1333058, 1237275, -3318210, -1430225, -451100, 1312455, 3306115,
   -1962642, -1279661, 1917081, -2546312, -1374803, 1500165, 777191, 2235880, 3406031, -542412,
   -2831860, -1671176, -1846953, -2584293, -3724270, 594136, -3776993, -2013608, 2432395, 2454455,
   -164721, 1957272, 3369112, 185531, -1207385, -3183426, 162844, 1616392, 3014001, 810149,
   1652634, -3694233, -1799107, -3038916, 3523897, 3866901, 269760, 2213111, -975884, 1717735,
   472078, -426683, 1723600, -1803090, 1910376, -1667432, -1104333, -260646, -3833893, -2939036,
   -2235985, -420899, -2286327, 183443, -976891, 1612842, -3545687, -554416, 3919660, -48306,
   -1362209, 3937738, 1400424, -846154, 1976782]

/-- The body of the innermost loop of `ntt`. -/
def nttButterfly (k : ℕ) (x y : ℤ) : ℤ × ℤ := let t := montgomeryReduce (zetas.getD k 0 * y)
  (int32 (x + t), int32 (x - t))

/-- `ntt`. -/
def ntt (a : Poly) : Poly := passes (fun _ => nttButterfly) [128, 64, 32, 16, 8, 4, 2, 1] 1 a

/-- The body of the innermost loop of `invntt_tomont`; the table is read from
its end. -/
def invnttButterfly (k : ℕ) (x y : ℤ) : ℤ × ℤ := let zeta := -zetas.getD (255 - k) 0
  (int32 (x + y), montgomeryReduce (zeta * int32 (x - y)))

/-- `invntt_tomont`. -/
def invnttTomont (a : Poly) : Poly :=
  let a := passes (fun _ => invnttButterfly) [1, 2, 4, 8, 16, 32, 64, 128] 0 a
  fun i => montgomeryReduce (41978 * a i)

/-! ## what the reductions compute -/

/-- The factor that `montgomery_reduce` leaves on a residue, the inverse of
`2 ^ 32`. -/
def rho : ZMod q := 8265825

theorem two_pow_mul_rho : (2 : ZMod q) ^ 32 * rho = 1 := by
  have h : ((2 ^ 32 * 8265825 : ℕ) : ZMod q) = (1 : ℕ) := (ZMod.natCast_eq_natCast_iff' _ _ _).mpr rfl
  simpa only [rho, Nat.cast_mul, Nat.cast_pow, Nat.cast_ofNat, Nat.cast_one] using h

theorem q_eq : (q : ℤ) = 8380417 := rfl

section

variable {a c c' x y : ℤ} {u v : ZMod q}

theorem int32_of_lt (hlo : -2 ^ 31 ≤ x) (hhi : x < 2 ^ 31) : int32 x = x :=
  wrap_of_fits (by omega) (by omega)

theorem Rep.int32 (h : Rep q c x u) (hc : c < 2 ^ 31) : Rep q c (int32 x) u := h.wrap (by omega)

theorem montgomeryReduce_eq (a : ℤ) : montgomeryReduce a = int32 (montgomery 32 q qinv a) := by
  simp only [montgomeryReduce, MlDsa.int32, wrap_wrap_mul, montgomery]

/-- `montgomery_reduce` divides by `2 ^ 32` modulo `Q`. -/
theorem montgomeryReduce_rep (ha : Rep q c a u) (hc : c ≤ 2 ^ 31 * (q - 1)) :
    Rep q (q - 1) (montgomeryReduce a) (rho * u) := by
  have hinv : (2 : ℤ) ^ 32 ∣ qinv * q - 1 := by decide
  rw [montgomeryReduce_eq]
  exact Rep.int32 (montgomery_rep hinv two_pow_mul_rho ha (m := q - 1) (by omega) (by omega))
    (by rw [q_eq]; omega)

/-- The product of two words. -/
theorem montgomeryReduce_mul (hx : Rep q c x u) (hy : Rep q c' y v) (hc : c * c' ≤ 2 ^ 31 * (q - 1)) :
    Rep q (q - 1) (montgomeryReduce (x * y)) (rho * u * v) := by
  rw [mul_assoc]
  exact montgomeryReduce_rep (hx.mul hy) hc

/-- `reduce32` on the words that its description allows. -/
theorem reduce32_rep (h : Rep q c a u) (hc : c < 2 ^ 31 - 2 ^ 22) : Rep q 6283009 (reduce32 a) u := by
  have hlo := h.lo
  have hhi := h.hi
  have hval : reduce32 a = a - (a + 2 ^ 22) / 2 ^ 23 * q := by
    simp only [reduce32, int32_of_lt (show -2 ^ 31 ≤ a + 2 ^ 22 by omega) (by omega), q_eq]
    rw [int32_of_lt (by omega) (by omega)]
  rw [hval]
  refine ⟨by rw [q_eq]; omega, by rw [q_eq]; omega, ?_⟩
  rw [Int.cast_sub, Int.cast_mul, Int.cast_natCast, ZMod.natCast_self, mul_zero, sub_zero, h.cast]

theorem caddq_eq (hlo : -2 ^ 31 ≤ a) (hhi : a < 2 ^ 31) : caddq a = if a < 0 then a + q else a := by
  unfold caddq
  split
  · exact int32_of_lt (by rw [q_eq]; omega) (by rw [q_eq]; omega)
  · rw [add_zero]
    exact int32_of_lt hlo hhi

theorem caddq_cast (hlo : -2 ^ 31 ≤ a) (hhi : a < 2 ^ 31) : ((caddq a : ℤ) : ZMod q) = a := by
  rw [caddq_eq hlo hhi]
  split
  · rw [Int.cast_add, Int.cast_natCast, ZMod.natCast_self, add_zero]
  · rfl

end

/-! ## what the transforms compute -/

/-- The twiddle factors of `ntt`. -/
def gamma (k : ℕ) : ZMod q := rho * (zetas.getD k 0 : ℤ)

/-- The twiddle factors of `invntt_tomont`. -/
def gammaInv (k : ℕ) : ZMod q := rho * (-zetas.getD (255 - k) 0 : ℤ)

theorem zetas_range : ∀ x ∈ zetas, -4190208 ≤ x ∧ x ≤ 4190208 := by decide +kernel

theorem zetas_rep (k : ℕ) : Rep q 4190208 (zetas.getD k 0) ((zetas.getD k 0 : ℤ) : ZMod q) :=
  rep_getD (by omega) zetas_range k

/-- Each factor and the one that undoes it, up to the powers of `2 ^ 32` that
the reductions take out. -/
def undoes (x y : ℤ) : Bool := (x * -y - (2 ^ 32) ^ 2) % q == 0

theorem table_inverse : ∀ t < 8, Ntt.stretches undoes (2 ^ t) (2 ^ t) (2 ^ 8 - 2 ^ (t + 1)) zetas
    zetas.reverse = true := by
  decide +kernel

theorem length_zetas : zetas.length = 256 := by decide +kernel

theorem table_squares : Ntt.squares q (2 ^ 32) (zetas.getD 1 0) (-2 ^ 32) = true ∧
    Ntt.stretches (Ntt.squares q (2 ^ 32)) 254 2 2 zetas (Ntt.bothSigns zetas) = true := by
  decide +kernel

/-- The factors are the square roots that evaluation takes. -/
theorem gamma_rootTree : Ntt.RootTree gamma 8 :=
  Ntt.rootTree_of_table (c := 2 ^ 32) (by exact_mod_cast two_pow_mul_rho) length_zetas table_squares.1
    table_squares.2

/-- The table undoes itself when read from its end. -/
theorem gamma_inverse : Ntt.Inverse gamma gammaInv 8 := by
  intro t ht b hb
  have hends : 2 ^ t + 2 ^ t ≤ 256 ∧ 2 ^ 8 - 2 ^ (t + 1) + 2 ^ t ≤ 255 := by
    interval_cases t <;> decide
  have htable := Ntt.stretches_getD 0 (table_inverse t ht) hb (by rw [length_zetas]; omega)
    (by rw [List.length_reverse, length_zetas]; omega)
  have hrev : zetas.reverse.getD (2 ^ 8 - 2 ^ (t + 1) + b) 0 =
      zetas.getD (255 - (2 ^ 8 - 2 ^ (t + 1) + b)) 0 := by
    rw [List.getD_eq_getElem?_getD, List.getD_eq_getElem?_getD,
      List.getElem?_reverse (by rw [length_zetas]; omega), length_zetas]
  rw [undoes, beq_iff_eq, hrev] at htable
  have hcast := (ZMod.intCast_zmod_eq_zero_iff_dvd _ _).mpr (Int.dvd_of_emod_eq_zero htable)
  unfold gamma gammaInv
  push_cast at hcast ⊢
  linear_combination rho ^ 2 * hcast + ((2 : ZMod q) ^ 32 * rho + 1) * two_pow_mul_rho

theorem card_eq : 256 = 2 ^ 8 := by norm_num

/-- The transform that `ntt` computes, on residues. -/
def nttRes : (Fin 256 → ZMod q) →ₗ[ZMod q] (Fin 256 → ZMod q) := Ntt.forward gamma card_eq

/-- The transform that `invntt_tomont` computes, on residues. -/
def invnttRes : (Fin 256 → ZMod q) →ₗ[ZMod q] (Fin 256 → ZMod q) :=
  (rho * 41978) • Ntt.backward gammaInv card_eq

section

variable {a : Poly} {c : ℤ} {u : Fin 256 → ZMod q}

theorem nttRes_eq (u : Fin 256 → ZMod q) :
    nttRes u = passes (fun _ => Ntt.fwd gamma) [128, 64, 32, 16, 8, 4, 2, 1] 1 u := by
  rw [nttRes, Ntt.forward_eq]
  rfl

/-- Every pass of `ntt` adds less than `Q`. -/
theorem ntt_rep (h : Reps q c a u) (hc : c ≤ q) : Reps q (9 * q) (ntt a) (nttRes u) := by
  have hlens : ∀ len ∈ [128, 64, 32, 16, 8, 4, 2, 1], 0 < len ∧ 2 * len ∣ 256 := by decide
  rw [nttRes_eq]
  refine passes_rel (R := fun d => Rep q ((d + 1) * q)) hlens (fun d len hd k _ x y u v hx hy => ?_)
    fun i => (h i).mono (by simpa using hc)
  have hd8 : d < 8 := (List.getElem?_eq_some_iff.mp hd).1
  have ht := montgomeryReduce_mul (zetas_rep k) hy (by rw [q_eq]; omega)
  have hadd := Rep.int32 (hx.add ht) (by rw [q_eq]; omega)
  have hsub := Rep.int32 (hx.sub ht) (by rw [q_eq]; omega)
  exact ⟨hadd.mono (by push_cast; rw [q_eq]; omega), hsub.mono (by push_cast; rw [q_eq]; omega)⟩

theorem invnttRes_eq (u : Fin 256 → ZMod q) : invnttRes u = (rho * 41978) •
      passes (fun _ => Ntt.bwd gammaInv) [1, 2, 4, 8, 16, 32, 64, 128] 0 u := by
  rw [invnttRes, LinearMap.smul_apply, Ntt.backward_eq]
  rfl

/-- Every pass of `invntt_tomont` doubles the bound, which just fits. -/
theorem invnttPasses_rep (h : Reps q (q - 1) a u) :
    Reps q (2 ^ 8 * (q - 1)) (passes (fun _ => invnttButterfly) [1, 2, 4, 8, 16, 32, 64, 128] 0 a)
      (passes (fun _ => Ntt.bwd gammaInv) [1, 2, 4, 8, 16, 32, 64, 128] 0 u) := by
  have hlens : ∀ len ∈ [1, 2, 4, 8, 16, 32, 64, 128], 0 < len ∧ 2 * len ∣ 256 := by decide
  refine passes_rel (R := fun d => Rep q (2 ^ d * (q - 1))) hlens
    (fun d len hd k _ x y u v hx hy => ?_) fun i => (h i).mono (by simp)
  have hd8 : d < 8 := (List.getElem?_eq_some_iff.mp hd).1
  have hpow : (2 : ℤ) ^ (d + 1) = 2 ^ d + 2 ^ d ∧ 1 ≤ (2 : ℤ) ^ d ∧ (2 : ℤ) ^ d ≤ 2 ^ 7 := by
    interval_cases d <;> decide
  have hadd := Rep.int32 (hx.add hy) (by rw [q_eq]; omega)
  have hsub := Rep.int32 (hx.sub hy) (by rw [q_eq]; omega)
  have hzeta : Rep q 4190208 (-zetas.getD (255 - k) 0) ((-zetas.getD (255 - k) 0 : ℤ) : ZMod q) :=
    ⟨by have := (zetas_rep (255 - k)).hi; omega, by have := (zetas_rep (255 - k)).lo; omega, rfl⟩
  have hmont := montgomeryReduce_mul hzeta hsub (by rw [q_eq]; omega)
  exact ⟨hadd.mono (by rw [hpow.1, add_mul]), hmont.mono (by rw [hpow.1, q_eq]; omega)⟩

/-- `invntt_tomont` keeps the words below `Q` in absolute value. -/
theorem invntt_rep (h : Reps q (q - 1) a u) : Reps q (q - 1) (invnttTomont a) (invnttRes u) := by
  intro i
  have hf : Rep q 41978 41978 41978 := ⟨by omega, by omega, by simp⟩
  rw [invnttRes_eq, Pi.smul_apply, smul_eq_mul]
  exact montgomeryReduce_mul hf (invnttPasses_rep h i) (by rw [q_eq]; omega)

/-- **The transforms are inverse**, up to the factor `2 ^ 32` of the scaling. -/
theorem nttRes_invnttRes (u : Fin 256 → ZMod q) : nttRes (invnttRes u) = (2 : ZMod q) ^ 32 • u := by
  have hscale : (rho * 41978 * 2 ^ 8 : ZMod q) = 2 ^ 32 := by
    have h : ((8265825 * 41978 * 2 ^ 8 : ℕ) : ZMod q) = (2 ^ 32 : ℕ) :=
      (ZMod.natCast_eq_natCast_iff' _ _ _).mpr rfl
    simpa only [rho, Nat.cast_mul, Nat.cast_pow, Nat.cast_ofNat] using h
  rw [nttRes, invnttRes, LinearMap.smul_apply, map_smul, Ntt.forward_backward gamma_inverse, smul_smul,
    hscale]

/-- The same with the factor of a product taken out. -/
theorem nttRes_invnttRes_smul (v : Fin 256 → ZMod q) : nttRes (invnttRes (rho • v)) = v := by
  rw [nttRes_invnttRes, smul_smul, two_pow_mul_rho, one_smul]

end

theorem nttRes_negaMul (u v : Fin 256 → ZMod q) : nttRes (Ntt.negaMul u v) = nttRes u * nttRes v :=
  Ntt.forward_negaMul gamma_rootTree (by omega) card_eq u v

end Tlcp.MlDsa
