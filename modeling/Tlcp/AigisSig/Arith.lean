import Mathlib.Tactic.IntervalCases
import Tlcp.Lib.Ntt

/-!
# Tlcp.AigisSig.Arith

The parameter sets of Aigis-Sig, its 32-bit modular reductions and
its number-theoretic transforms (`params.h`, `reduce.c`, `ntt.c`).  A coefficient
is an unsigned 32-bit integer that stands for its residue modulo `PARAM_Q`; the
code reduces lazily, so each specification says which multiple of `PARAM_Q` bounds
the inputs and the outputs, and what the residues are.
-/

namespace Tlcp.AigisSig

open Butterfly

/-! ## parameters -/

/-- The values of `PARAMS`. -/
inductive ParamSet where
  | params1
  | params2
  | params3
  deriving DecidableEq, Repr

variable (p : ParamSet)

namespace ParamSet

/-- `PARAM_Q`. -/
def q : ParamSet → ℕ
  | params1 => 2021377
  | _ => 3870721

/-- `QINV`. -/
def qinv : ParamSet → ℕ
  | params1 => 2849953791
  | _ => 2671448063

/-- `MONT`. -/
def mont : ParamSet → ℕ
  | params1 => 1562548
  | _ => 2337707

/-- `QBITS`. -/
def qbits : ParamSet → ℕ
  | params1 => 21
  | _ => 22

/-- `PARAM_D`. -/
def d : ParamSet → ℕ
  | params1 => 13
  | _ => 14

/-- `GAMMA1`. -/
def gamma1 (_ : ParamSet) : ℕ := 131072

/-- `GAMMA2`. -/
def gamma2 : ParamSet → ℕ
  | params1 => 168448
  | _ => 322560

/-- `ALPHA`. -/
def alpha : ℕ := 2 * p.gamma2

/-- `PARAM_K`. -/
def k : ParamSet → ℕ
  | params1 => 4
  | params2 => 5
  | params3 => 6

/-- `PARAM_L`. -/
def l : ParamSet → ℕ
  | params1 => 3
  | params2 => 4
  | params3 => 5

/-- `ETA1`. -/
def eta1 : ParamSet → ℕ
  | params3 => 1
  | _ => 2

/-- `ETA2`. -/
def eta2 : ParamSet → ℕ
  | params1 => 3
  | _ => 5

/-- `BETA1`. -/
def beta1 : ParamSet → ℕ
  | params3 => 60
  | _ => 120

/-- `BETA2`. -/
def beta2 : ParamSet → ℕ
  | params1 => 175
  | _ => 275

/-- `OMEGA`. -/
def omega : ParamSet → ℕ
  | params1 => 80
  | params2 => 96
  | params3 => 120

end ParamSet

/-- `poly`: the coefficients of a polynomial, `PARAM_N` of them. -/
abbrev Poly := Fin 256 → ℕ

/-! ## 32-bit words -/

/-- `a + b` on `uint32_t`. -/
def add32 (a b : ℕ) : ℕ := (a + b) % 2 ^ 32

/-- `a - b` on `uint32_t`. -/
def sub32 (a b : ℕ) : ℕ := (a + 2 ^ 32 - b % 2 ^ 32) % 2 ^ 32

/-- `((int32_t)a >> 31) & x`. -/
def maskNeg (a x : ℕ) : ℕ := if 2 ^ 31 ≤ a then x else 0

/-! ## reductions -/

/-- `montgomery_reduce`. -/
def montgomeryReduce (a : ℕ) : ℕ := let t := a * p.qinv % 2 ^ 64 % 2 ^ 32 * p.q
  (t + a) % 2 ^ 64 / 2 ^ 32

/-- `barrat_reduce`. -/
def barratReduce (a : ℕ) : ℕ := sub32 a (a / 2 ^ p.qbits * p.q % 2 ^ 32)

/-- `freeze4q`. -/
def freeze4q (a : ℕ) : ℕ := let a := sub32 a (2 * p.q)
  let a := add32 a (maskNeg a (2 * p.q))
  let a := sub32 a p.q
  add32 a (maskNeg a p.q)

/-! ## transforms -/

/-- `zetas` for `PARAM_Q == 2021377`. -/
def zetas2021377 : List ℕ :=
  [1562548, 518470, 697898, 862629, 1367459, 1539276, 1513857, 1662806, 929015, 1757045, 1879015,
   449873, 75689, 1125711, 1680345, 620849, 769419, 486664, 1389778, 658915, 1319993, 73499,
   1391732, 1199964, 291970, 655587, 966181, 128755, 288564, 10420, 1980158, 1011904, 1937906,
   838813, 854780, 1453936, 1704819, 1740984, 86645, 1360044, 115556, 1570480, 1655800, 272433,
   1245520, 1190005, 238406, 1726139, 1013693, 1948648, 1020399, 1544116, 1120075, 656153, 591869,
   1620799, 275832, 517427, 1601944, 1555925, 1293833, 1705829, 1357642, 142050, 739420, 1568070,
   1535360, 740638, 57925, 1038012, 65439, 1844105, 673379, 1768997, 924638, 1986117, 1394208,
   1277276, 129269, 1760277, 1173604, 1161770, 1897168, 807697, 965038, 1876057, 1963820, 1794916,
   924093, 251419, 168030, 1073286, 1902394, 347156, 1488477, 511116, 572755, 1686880, 268077,
   53223, 1268228, 579769, 1043786, 272581, 1574784, 1729984, 568576, 276296, 1095755, 282107,
   158374, 915466, 1569380, 908136, 972609, 923797, 466409, 1762448, 798650, 436051, 1275685,
   1122838, 1862, 1854194, 1432015, 1507507, 1452715, 1170924, 137295, 531590, 556763, 1442250,
   896280, 320184, 333460, 1993546, 622613, 1352919, 881664, 1176558, 1936677, 2011958, 1357750,
   534023, 142791, 40293, 638104, 1519860, 1189220, 1763667, 792470, 1813814, 830483, 1256948,
   1537350, 64760, 561409, 823180, 786453, 1106713, 1491299, 1582163, 822179, 1663832, 1269819,
   84100, 780824, 310495, 1043416, 763923, 1440072, 1308437, 1369984, 1027053, 641681, 932722,
   1248044, 318540, 1777818, 702544, 1566714, 1301662, 265980, 696370, 1576958, 449193, 1228202,
   1635455, 1143957, 1349609, 120737, 1115065, 1815624, 573533, 10820, 1911846, 533321, 1147868,
   1126927, 145151, 641139, 275750, 276830, 1257214, 988074, 1857331, 105366, 1608247, 1752751,
   817865, 294374, 1145376, 1447053, 647982, 1517128, 301974, 233775, 1669708, 1146108, 1913137,
   707228, 1147423, 349817, 1972001, 777351, 1874015, 964313, 161863, 1142539, 1331457, 1604014,
   1320129, 1103939, 1236477, 447210, 1613614, 1666811, 51306, 383284, 1573619, 677023, 994549,
   23785, 210391, 461525, 1779756, 430663, 84620, 1731642, 1784991, 147098, 942182, 1953450,
   1853187, 1567373, 1541031]

/-- `zetas_inv` for `PARAM_Q == 2021377`. -/
def zetasInv2021377 : List ℕ :=
  [480346, 454004, 168190, 67927, 1079195, 1874279, 236386, 289735, 1936757, 1590714, 241621,
   1559852, 1810986, 1997592, 1026828, 1344354, 447758, 1638093, 1970071, 354566, 407763, 1574167,
   784900, 917438, 701248, 417363, 689920, 878838, 1859514, 1057064, 147362, 1244026, 49376,
   1671560, 873954, 1314149, 108240, 875269, 351669, 1787602, 1719403, 504249, 1373395, 574324,
   876001, 1727003, 1203512, 268626, 413130, 1916011, 164046, 1033303, 764163, 1744547, 1745627,
   1380238, 1876226, 894450, 873509, 1488056, 109531, 2010557, 1447844, 205753, 906312, 1900640,
   671768, 877420, 385922, 793175, 1572184, 444419, 1325007, 1755397, 719715, 454663, 1318833,
   243559, 1702837, 773333, 1088655, 1379696, 994324, 651393, 712940, 581305, 1257454, 977961,
   1710882, 1240553, 1937277, 751558, 357545, 1199198, 439214, 530078, 914664, 1234924, 1198197,
   1459968, 1956617, 484027, 764429, 1190894, 207563, 1228907, 257710, 832157, 501517, 1383273,
   1981084, 1878586, 1487354, 663627, 9419, 84700, 844819, 1139713, 668458, 1398764, 27831,
   1687917, 1701193, 1125097, 579127, 1464614, 1489787, 1884082, 850453, 568662, 513870, 589362,
   167183, 2019515, 898539, 745692, 1585326, 1222727, 258929, 1554968, 1097580, 1048768, 1113241,
   451997, 1105911, 1863003, 1739270, 925622, 1745081, 1452801, 291393, 446593, 1748796, 977591,
   1441608, 753149, 1968154, 1753300, 334497, 1448622, 1510261, 532900, 1674221, 118983, 948091,
   1853347, 1769958, 1097284, 226461, 57557, 145320, 1056339, 1213680, 124209, 859607, 847773,
   261100, 1892108, 744101, 627169, 35260, 1096739, 252380, 1347998, 177272, 1955938, 983365,
   1963452, 1280739, 486017, 453307, 1281957, 1879327, 663735, 315548, 727544, 465452, 419433,
   1503950, 1745545, 400578, 1429508, 1365224, 901302, 477261, 1000978, 72729, 1007684, 295238,
   1782971, 831372, 775857, 1748944, 365577, 450897, 1905821, 661333, 1934732, 280393, 316558,
   567441, 1166597, 1182564, 83471, 1009473, 41219, 2010957, 1732813, 1892622, 1055196, 1365790,
   1729407, 821413, 629645, 1947878, 701384, 1362462, 631599, 1534713, 1251958, 1400528, 341032,
   895666, 1945688, 1571504, 142362, 264332, 1092362, 358571, 507520, 482101, 653918, 1158748,
   1323479, 1331599]

/-- `zetas` for `PARAM_Q == 3870721`. -/
def zetas3870721 : List ℕ :=
  [2337707, 2505409, 267692, 529914, 420735, 181988, 2608440, 3865338, 3665767, 288746, 2524026,
   3008396, 901579, 70491, 1821213, 1437514, 3375394, 502705, 3475623, 3513653, 1833017, 3651222,
   947790, 1966036, 2704588, 2850143, 3030905, 1622520, 3210245, 3127826, 292206, 3096784, 3201921,
   3867412, 1705316, 2917474, 2975359, 2004421, 2812268, 890313, 2511631, 3623292, 2803099,
   2903766, 1596209, 2040136, 3468632, 2156661, 2913824, 2560388, 1214035, 3468039, 575792,
   2926910, 3407464, 2292204, 2285761, 2338667, 63216, 3835938, 3204529, 1818443, 3786633, 3241498,
   944328, 616348, 2927622, 64038, 1171534, 1361903, 2827360, 3144828, 2738981, 1714811, 3625146,
   89505, 2787809, 2363190, 2513795, 3306399, 1418851, 1206903, 926563, 211044, 466372, 3410093,
   1353383, 3610570, 934100, 2471859, 2037600, 2996463, 1698492, 525418, 1662944, 1981925, 1210222,
   1813802, 314420, 2466015, 3516872, 3320431, 1355971, 1500137, 493991, 36365, 3235243, 214827,
   2544017, 1739057, 945221, 1038283, 2889903, 3364214, 1674857, 1434035, 1665177, 2651227,
   1575769, 1155464, 467835, 1713031, 2041544, 408424, 137443, 2029527, 2115209, 2293884, 2137416,
   3189891, 2471629, 2229785, 2611740, 2394735, 2287191, 2862622, 300090, 1004990, 401830, 143957,
   2910193, 3787906, 3628164, 3171269, 2239135, 3038465, 601725, 2887353, 2766912, 1622354,
   2989501, 1339396, 1939160, 2386893, 103181, 2793304, 911193, 3295333, 3025653, 2513246, 314427,
   939239, 57676, 2293294, 2833811, 2842292, 3139575, 2705158, 1290463, 3780876, 1462003, 668827,
   1850975, 2327221, 2910099, 2724881, 418972, 957090, 321362, 2898276, 3523069, 1463158, 3818473,
   453440, 1891547, 1601731, 529312, 3301251, 1117070, 3520718, 634170, 1958581, 929634, 1133255,
   3807619, 1159272, 3292496, 3530590, 927442, 3686531, 2605292, 384058, 1415774, 1040397, 3663661,
   2332173, 1131260, 680774, 1186917, 3736575, 1064994, 2954460, 3051663, 1162037, 2962553,
   2130376, 1717870, 3565361, 2935922, 2347272, 1768863, 3125776, 1686747, 3137894, 2993356,
   1574419, 1073008, 1262182, 183934, 914847, 3373156, 3688758, 2538361, 614066, 3211143, 3565127,
   1322591, 3426188, 2951336, 172348, 3747492, 3719872, 2962113, 778168, 2880082, 1051508, 3741079,
   1816757, 763621, 328987, 2831790, 1276220, 135870, 3388537, 3034187, 2419032]

/-- `zetas_inv` for `PARAM_Q == 3870721`. -/
def zetasInv3870721 : List ℕ :=
  [1451689, 836534, 482184, 3734851, 2594501, 1038931, 3541734, 3107100, 2053964, 129642, 2819213,
   990639, 3092553, 908608, 150849, 123229, 3698373, 919385, 444533, 2548130, 305594, 659578,
   3256655, 1332360, 181963, 497565, 2955874, 3686787, 2608539, 2797713, 2296302, 877365, 732827,
   2183974, 744945, 2101858, 1523449, 934799, 305360, 2152851, 1740345, 908168, 2708684, 819058,
   916261, 2805727, 134146, 2683804, 3189947, 2739461, 1538548, 207060, 2830324, 2454947, 3486663,
   1265429, 184190, 2943279, 340131, 578225, 2711449, 63102, 2737466, 2941087, 1912140, 3236551,
   350003, 2753651, 569470, 3341409, 2268990, 1979174, 3417281, 52248, 2407563, 347652, 972445,
   3549359, 2913631, 3451749, 1145840, 960622, 1543500, 2019746, 3201894, 2408718, 89845, 2580258,
   1165563, 731146, 1028429, 1036910, 1577427, 3813045, 2931482, 3556294, 1357475, 845068, 575388,
   2959528, 1077417, 3767540, 1483828, 1931561, 2531325, 881220, 2248367, 1103809, 983368, 3268996,
   832256, 1631586, 699452, 242557, 82815, 960528, 3726764, 3468891, 2865731, 3570631, 1008099,
   1583530, 1475986, 1258981, 1640936, 1399092, 680830, 1733305, 1576837, 1755512, 1841194,
   3733278, 3462297, 1829177, 2157690, 3402886, 2715257, 2294952, 1219494, 2205544, 2436686,
   2195864, 506507, 980818, 2832438, 2925500, 2131664, 1326704, 3655894, 635478, 3834356, 3376730,
   2370584, 2514750, 550290, 353849, 1404706, 3556301, 2056919, 2660499, 1888796, 2207777, 3345303,
   2172229, 874258, 1833121, 1398862, 2936621, 260151, 2517338, 460628, 3404349, 3659677, 2944158,
   2663818, 2451870, 564322, 1356926, 1507531, 1082912, 3781216, 245575, 2155910, 1131740, 725893,
   1043361, 2508818, 2699187, 3806683, 943099, 3254373, 2926393, 629223, 84088, 2052278, 666192,
   34783, 3807505, 1532054, 1584960, 1578517, 463257, 943811, 3294929, 402682, 2656686, 1310333,
   956897, 1714060, 402089, 1830585, 2274512, 966955, 1067622, 247429, 1359090, 2980408, 1058453,
   1866300, 895362, 953247, 2165405, 3309, 668800, 773937, 3578515, 742895, 660476, 2248201,
   839816, 1020578, 1166133, 1904685, 2922931, 219499, 2037704, 357068, 395098, 3368016, 495327,
   2433207, 2049508, 3800230, 2969142, 862325, 1346695, 3581975, 204954, 5383, 1262281, 3688733,
   3449986, 3340807, 3603029, 951197]

/-- `zetas`. -/
def zetas : ParamSet → List ℕ
  | .params1 => zetas2021377
  | _ => zetas3870721

/-- `zetas_inv`; the initialiser leaves the last entry zero. -/
def zetasInv : ParamSet → List ℕ
  | .params1 => zetasInv2021377
  | _ => zetasInv3870721

/-- `mont_invn`. -/
def montInvn : ℕ :=
  p.mont * p.mont % p.q * (p.q - 1) % p.q * ((p.q - 1) / 2 ^ 8) % p.q

/-- The body of the innermost loop of `ntt`. -/
def nttButterfly (k x y : ℕ) : ℕ × ℕ :=
  let t := montgomeryReduce p ((zetas p).getD k 0 * y)
  (add32 x t, sub32 (add32 x (2 * p.q)) t)

/-- `ntt`. -/
def ntt (a : Poly) : Poly :=
  passes (fun _ => nttButterfly p) [128, 64, 32, 16, 8, 4, 2, 1] 1 a

/-- The body of the innermost loop of `invntt_frominvmont`. -/
def invnttButterfly (k x y : ℕ) : ℕ × ℕ :=
  (add32 x y, montgomeryReduce p ((zetasInv p).getD k 0 * sub32 (add32 x (512 * p.q)) y))

/-- `invntt_frominvmont`: the passes, and then the scaling of the lower half. -/
def invnttFrominvmont (a : Poly) : Poly :=
  let a := passes (fun _ => invnttButterfly p) [1, 2, 4, 8, 16, 32, 64, 128] 0 a
  fun i => if i.val < 128 then montgomeryReduce p (montInvn p * a i) else a i

/-! ## what the reductions compute -/

/-- The inverse of `2 ^ 32` modulo `PARAM_Q`. -/
def ParamSet.rinv : ParamSet → ℕ
  | params1 => 1341298
  | _ => 2407569

/-- The factor that `montgomery_reduce` leaves on a residue. -/
def rho : ZMod p.q := p.rinv

theorem two_pow_mul_rho : (2 : ZMod p.q) ^ 32 * rho p = 1 := by
  have h : ((2 ^ 32 * p.rinv : ℕ) : ZMod p.q) = (1 : ℕ) :=
    (ZMod.natCast_eq_natCast_iff' _ _ _).mpr (by cases p <;> rfl)
  simpa only [rho, Nat.cast_mul, Nat.cast_pow, Nat.cast_ofNat, Nat.cast_one] using h

theorem q_lt : 1024 * p.q < 2 ^ 32 := by cases p <;> decide

/-- The word `x` stands for the residue `u`, below `c` times `PARAM_Q`. -/
def Rep (c x : ℕ) (u : ZMod p.q) : Prop := x < c * p.q ∧ (x : ZMod p.q) = u

section

variable {p} {a b c c' x y : ℕ} {u v : ZMod p.q}

theorem Rep.mono (h : Rep p c x u) (hc : c ≤ c') : Rep p c' x u :=
  ⟨lt_of_lt_of_le h.1 (Nat.mul_le_mul_right _ hc), h.2⟩

theorem add32_rep (hx : Rep p c x u) (hy : Rep p c' y v) (hc : c + c' ≤ 1024) :
    Rep p (c + c') (add32 x y) (u + v) := by
  have hq := q_lt p
  have hlt : x + y < (c + c') * p.q := by rw [Nat.add_mul]; exact Nat.add_lt_add hx.1 hy.1
  have hle : (c + c') * p.q ≤ 1024 * p.q := Nat.mul_le_mul_right _ hc
  rw [add32, Nat.mod_eq_of_lt (by omega)]
  exact ⟨hlt, by rw [Nat.cast_add, hx.2, hy.2]⟩

theorem sub32_of_le (hle : b ≤ a) (ha : a < 2 ^ 32) : sub32 a b = a - b := by
  unfold sub32
  omega

/-- A difference is taken after a multiple of `PARAM_Q` that keeps it positive. -/
theorem sub32_rep (hx : Rep p c x u) (hy : Rep p c' y v) (hc : c + c' ≤ 1024) :
    Rep p (c + c') (sub32 (add32 x (c' * p.q)) y) (u - v) := by
  have hq := q_lt p
  have hle : (c + c') * p.q ≤ 1024 * p.q := Nat.mul_le_mul_right _ hc
  have hsum : c * p.q + c' * p.q = (c + c') * p.q := (Nat.add_mul _ _ _).symm
  have hlt := hx.1
  have hylt := hy.1
  rw [add32, Nat.mod_eq_of_lt (by omega), sub32_of_le (by omega) (by omega)]
  refine ⟨by omega, ?_⟩
  rw [Nat.cast_sub (by omega), Nat.cast_add, Nat.cast_mul, ZMod.natCast_self, mul_zero, add_zero, hx.2, hy.2]

theorem montgomeryReduce_mul (h : a < p.q * 2 ^ 32) :
    ∃ t, montgomeryReduce p a * 2 ^ 32 = a + t * p.q ∧ t < 2 ^ 32 := by
  refine ⟨a * p.qinv % 2 ^ 64 % 2 ^ 32, ?_, Nat.mod_lt _ (by omega)⟩
  unfold montgomeryReduce
  cases p <;> simp only [ParamSet.q, ParamSet.qinv] at h ⊢ <;> omega

/-- `montgomery_reduce` divides by `2 ^ 32` modulo `PARAM_Q`. -/
theorem montgomeryReduce_rep (h : a < p.q * 2 ^ 32) : Rep p 2 (montgomeryReduce p a) (a * rho p) := by
  obtain ⟨t, hmul, ht⟩ := montgomeryReduce_mul h
  constructor
  · cases p <;> simp only [ParamSet.q] at h hmul ⊢ <;> omega
  · have hcast : ((montgomeryReduce p a * 2 ^ 32 : ℕ) : ZMod p.q) = (a + t * p.q : ℕ) := by rw [hmul]
    rw [Nat.cast_mul, Nat.cast_pow, Nat.cast_ofNat, Nat.cast_add, Nat.cast_mul, ZMod.natCast_self,
      mul_zero, add_zero] at hcast
    rw [← hcast, mul_assoc, two_pow_mul_rho, mul_one]

/-- The product with a table entry. -/
theorem montgomeryReduce_table (ha : a < p.q) (hy : Rep p c y v) (hc : c ≤ 1024) :
    Rep p 2 (montgomeryReduce p (a * y)) (a * rho p * v) := by
  have hq := q_lt p
  have hle : c * p.q ≤ 1024 * p.q := Nat.mul_le_mul_right _ hc
  have hy32 : y < 2 ^ 32 := lt_of_lt_of_le hy.1 (by omega)
  have hrep := montgomeryReduce_rep (Nat.mul_lt_mul'' ha hy32)
  rwa [Nat.cast_mul, hy.2, mul_right_comm] at hrep

/-- The product of two words that one pass of `ntt` leaves. -/
theorem montgomeryReduce_prod (hx : Rep p c x u) (hy : Rep p c' y v) (hc : c * c' ≤ 1024) :
    Rep p 2 (montgomeryReduce p (x * y)) (u * v * rho p) := by
  have hq := q_lt p
  have hlt : x * y < p.q * 2 ^ 32 := by
    calc x * y < c * p.q * (c' * p.q) := Nat.mul_lt_mul'' hx.1 hy.1
      _ = p.q * (c * c' * p.q) := by ring
      _ ≤ p.q * (1024 * p.q) := Nat.mul_le_mul_left _ (Nat.mul_le_mul_right _ hc)
      _ ≤ p.q * 2 ^ 32 := Nat.mul_le_mul_left _ (by omega)
  have hrep := montgomeryReduce_rep hlt
  rwa [Nat.cast_mul, hx.2, hy.2] at hrep

theorem barratReduce_rep (h : Rep p 10 a u) : Rep p 2 (barratReduce p a) u := by
  have hlt := h.1
  have hval : barratReduce p a + a / 2 ^ p.qbits * p.q = a ∧ barratReduce p a < 2 * p.q := by
    have hle : a / 2 ^ p.qbits * p.q ≤ a ∧ a < 2 ^ 32 ∧ a < a / 2 ^ p.qbits * p.q + 2 * p.q := by
      cases p <;> simp only [ParamSet.q, ParamSet.qbits] at hlt ⊢ <;> omega
    rw [barratReduce, Nat.mod_eq_of_lt (by omega), sub32_of_le hle.1 hle.2.1]
    omega
  refine ⟨hval.2, ?_⟩
  have hcast : ((barratReduce p a + a / 2 ^ p.qbits * p.q : ℕ) : ZMod p.q) = a := by rw [hval.1]
  rwa [Nat.cast_add, Nat.cast_mul, ZMod.natCast_self, mul_zero, add_zero, h.2] at hcast

/-- A conditional subtraction, by the sign of the difference. -/
theorem condSub_spec {m : ℕ} (h : a < 2 * m) (hm : m ≤ 2 ^ 31) :
    ∃ r, add32 (sub32 a m) (maskNeg (sub32 a m) m) = r ∧ r < m ∧ (r = a ∨ r + m = a) := by
  refine ⟨_, rfl, ?_⟩
  unfold add32 sub32 maskNeg
  split <;> omega

theorem freeze4q_eq (h : a < 4 * p.q) : freeze4q p a = a % p.q := by
  have hq := q_lt p
  obtain ⟨x, hx, hxlt, hxa⟩ := condSub_spec (a := a) (m := 2 * p.q) (by omega) (by omega)
  obtain ⟨r, hr, hrlt, hrx⟩ := condSub_spec (a := x) (m := p.q) hxlt (by omega)
  simp only [freeze4q, hx, hr]
  cases p <;> simp only [ParamSet.q] at * <;> omega

theorem freeze4q_rep (h : Rep p 4 a u) : Rep p 1 (freeze4q p a) u := by
  rw [freeze4q_eq h.1]
  refine ⟨by rw [Nat.one_mul]; exact Nat.mod_lt _ (by cases p <;> decide), ?_⟩
  rw [ZMod.natCast_mod, h.2]

end

/-! ## what the transforms compute -/

/-- The twiddle factors of `ntt`. -/
def gamma (k : ℕ) : ZMod p.q := (zetas p).getD k 0 * rho p

/-- The twiddle factors of `invntt_frominvmont`; the last one, for the upper
half of the last pass, has the final scaling folded in. -/
def gammaInv (k : ℕ) : ZMod p.q :=
  (zetasInv p).getD k 0 * (if k = 254 then 2 ^ 8 else 2 ^ 32 : ℕ) * rho p ^ 2

theorem getD_lt {l : List ℕ} {m : ℕ} (hm : 0 < m) (h : ∀ x ∈ l, x < m) (k : ℕ) : l.getD k 0 < m := by
  rw [List.getD_eq_getElem?_getD]
  cases hk : l[k]? with
  | none => exact hm
  | some x => exact h x (List.mem_of_getElem? hk)

theorem zetas_lt (k : ℕ) : (zetas p).getD k 0 < p.q :=
  getD_lt (by cases p <;> decide) (by cases p <;> decide +kernel) k

theorem zetasInv_lt (k : ℕ) : (zetasInv p).getD k 0 < p.q :=
  getD_lt (by cases p <;> decide) (by cases p <;> decide +kernel) k

/-- The product of a factor and the one that undoes it, as the tables have
them: up to the powers of `2 ^ 32` that the reductions take out. -/
def undoes (q scale x y : ℕ) : Bool := x * y * scale % q == (2 ^ 32) ^ 3 % q

theorem tables_inverse : ∀ t < 8, Ntt.stretches
    (undoes p.q (if t = 0 then 2 ^ 8 else 2 ^ 32)) (2 ^ t) (2 ^ t) (2 ^ 8 - 2 ^ (t + 1)) (zetas p)
      (zetasInv p) = true := by
  cases p <;> decide +kernel

/-- The tables are inverse to each other, pass by pass. -/
theorem gamma_inverse : Ntt.Inverse (gamma p) (gammaInv p) 8 := by
  intro t ht b hb
  have hlen : (zetas p).length = 256 ∧ (zetasInv p).length = 255 := by cases p <;> decide +kernel
  have hends : 2 ^ t + 2 ^ t ≤ 256 ∧ 2 ^ 8 - 2 ^ (t + 1) + 2 ^ t ≤ 255 ∧
      (2 ^ 8 - 2 ^ (t + 1) + b = 254 ↔ t = 0) := by
    interval_cases t <;> omega
  have htable := Ntt.stretches_getD 0 (tables_inverse p t ht) hb (by omega) (by omega)
  rw [undoes, beq_iff_eq, ← if_congr hends.2.2 rfl rfl] at htable
  have hcast := (ZMod.natCast_eq_natCast_iff' _ _ _).mpr htable
  rw [Nat.cast_mul, Nat.cast_mul, Nat.cast_pow, Nat.cast_pow, Nat.cast_ofNat] at hcast
  unfold gamma gammaInv
  calc _ = ((zetas p).getD (2 ^ t + b) 0 : ZMod p.q) * (zetasInv p).getD (2 ^ 8 - 2 ^ (t + 1) + b) 0 *
        ((if 2 ^ 8 - 2 ^ (t + 1) + b = 254 then 2 ^ 8 else 2 ^ 32 : ℕ) : ZMod p.q) * rho p ^ 3 := by ring
    _ = (2 ^ 32 * rho p) ^ 3 := by rw [hcast]; ring
    _ = 1 := by rw [two_pow_mul_rho, one_pow]

/-- The entries of the table as integers. -/
def zetasInt : List ℤ := (zetas p).map Nat.cast

theorem tables_squares : (zetasInt p).length = 256 ∧
    Ntt.squares p.q (2 ^ 32) ((zetasInt p).getD 1 0) (-2 ^ 32) = true ∧
    Ntt.stretches (Ntt.squares p.q (2 ^ 32)) 254 2 2 (zetasInt p) (Ntt.bothSigns (zetasInt p)) = true := by
  cases p <;> decide +kernel

/-- The factors are the square roots that evaluation takes. -/
theorem gamma_rootTree : Ntt.RootTree (gamma p) 8 := by
  obtain ⟨hlen, hroot, hsq⟩ := tables_squares p
  have htree := Ntt.rootTree_of_table (m := 8) (c := 2 ^ 32) (by exact_mod_cast two_pow_mul_rho p) hlen
    hroot hsq
  convert htree using 2 with k
  rw [gamma, zetasInt, show (0 : ℤ) = ((0 : ℕ) : ℤ) from rfl, List.getD_map, Int.cast_natCast, mul_comm]

theorem card_eq : 256 = 2 ^ 8 := by norm_num

/-- The residues of a polynomial. -/
def residues (a : Poly) : Fin 256 → ZMod p.q := fun i => a i

/-- The transform that `ntt` computes, on residues. -/
def nttRes : (Fin 256 → ZMod p.q) →ₗ[ZMod p.q] (Fin 256 → ZMod p.q) :=
  Ntt.forward (gamma p) card_eq

/-- The transform that `invntt_frominvmont` computes, on residues. -/
def invnttRes : (Fin 256 → ZMod p.q) →ₗ[ZMod p.q] (Fin 256 → ZMod p.q) :=
  (montInvn p * rho p) • Ntt.backward (gammaInv p) card_eq

/-- The words of a polynomial stand for the residues `u`. -/
def PolyRep (c : ℕ) (a : Poly) (u : Fin 256 → ZMod p.q) : Prop := ∀ i, Rep p c (a i) (u i)

section

variable {p} {a : Poly} {u : Fin 256 → ZMod p.q}

theorem nttRes_eq (u : Fin 256 → ZMod p.q) :
    nttRes p u = passes (fun _ => Ntt.fwd (gamma p)) [128, 64, 32, 16, 8, 4, 2, 1] 1 u := by
  rw [nttRes, Ntt.forward_eq]
  rfl

/-- Every pass of `ntt` adds two multiples of `PARAM_Q`. -/
theorem ntt_rep (h : PolyRep p 2 a u) : PolyRep p 18 (ntt p a) (nttRes p u) := by
  have hlens : ∀ len ∈ [128, 64, 32, 16, 8, 4, 2, 1], 0 < len ∧ 2 * len ∣ 256 := by decide
  rw [nttRes_eq]
  refine passes_rel (R := fun d => Rep p (2 * d + 2)) hlens (fun d len hd k _ x y u v hx hy => ?_) h
  have hd8 : d < 8 := (List.getElem?_eq_some_iff.mp hd).1
  have ht := montgomeryReduce_table (zetas_lt p k) hy (by omega)
  exact ⟨add32_rep hx ht (by omega), sub32_rep hx ht (by omega)⟩

theorem invnttRes_eq (u : Fin 256 → ZMod p.q) : invnttRes p u = (montInvn p * rho p : ZMod p.q) •
      pass (Ntt.bwd (gammaInv p)) 128 254
        (passes (fun _ => Ntt.bwd (gammaInv p)) [1, 2, 4, 8, 16, 32, 64] 0 u) := by
  rw [invnttRes, LinearMap.smul_apply, Ntt.backward_eq]
  rfl

theorem gammaInv_of_lt {k : ℕ} (hk : k < 254) : gammaInv p k = (zetasInv p).getD k 0 * rho p := by
  rw [gammaInv, if_neg (by omega), Nat.cast_pow, Nat.cast_ofNat, pow_two, mul_assoc, ← mul_assoc _ (rho p),
    two_pow_mul_rho, one_mul]

theorem montInvn_mul (p : ParamSet) : (montInvn p * 2 ^ 8 * rho p ^ 2 : ZMod p.q) = 1 := by
  have h : ((montInvn p * 2 ^ 8 : ℕ) : ZMod p.q) = ((2 ^ 32) ^ 2 : ℕ) :=
    (ZMod.natCast_eq_natCast_iff' _ _ _).mpr (by cases p <;> rfl)
  rw [Nat.cast_mul, Nat.cast_pow, Nat.cast_pow, Nat.cast_pow, Nat.cast_ofNat] at h
  rw [h, ← mul_pow, two_pow_mul_rho, one_pow]

theorem montInvn_lt (p : ParamSet) : montInvn p < p.q := by cases p <;> decide

/-- Up to the last pass of `invntt_frominvmont` every pass doubles the bound. -/
theorem invnttPasses_rep (h : PolyRep p 4 a u) :
    PolyRep p 512 (passes (fun _ => invnttButterfly p) [1, 2, 4, 8, 16, 32, 64] 0 a)
      (passes (fun _ => Ntt.bwd (gammaInv p)) [1, 2, 4, 8, 16, 32, 64] 0 u) := by
  have hlens : ∀ len ∈ [1, 2, 4, 8, 16, 32, 64], 0 < len ∧ 2 * len ∣ 256 := by decide
  refine passes_rel (R := fun d => Rep p (2 ^ (d + 2))) hlens (fun d len hd k hk x y u v hx hy => ?_) h
  have hd7 : d < 7 := (List.getElem?_eq_some_iff.mp hd).1
  have hpow : 2 ^ (d + 2) + 2 ^ (d + 2) = 2 ^ (d + 1 + 2) ∧ 2 ^ (d + 1 + 2) ≤ 512 ∧
      2 ≤ 2 ^ (d + 1 + 2) := by
    interval_cases d <;> decide
  have hsub := sub32_rep hx (hy.mono (show _ ≤ 512 by omega)) (by omega)
  have hmont := montgomeryReduce_table (zetasInv_lt p k) hsub (by omega)
  rw [← gammaInv_of_lt hk] at hmont
  exact ⟨hpow.1 ▸ add32_rep hx hy (by omega), hmont.mono hpow.2.2⟩

/-- The last pass and the scaling. -/
theorem invnttLast_rep (h : PolyRep p 512 a u) (i : Fin 256) :
    Rep p 2 (if i.val < 128 then montgomeryReduce p (montInvn p * pass (invnttButterfly p) 128 254 a i)
        else pass (invnttButterfly p) 128 254 a i)
      (montInvn p * rho p * pass (Ntt.bwd (gammaInv p)) 128 254 u i) := by
  have hcell : ∀ j < 256, Rep p 512 (cell a j) (cell u j) := by
    intro j hj
    rw [cell_of_lt a hj, cell_of_lt u hj]
    exact h _
  have hi := i.isLt
  have hmod : i.val % 256 = i.val ∧ i.val / 256 = 0 := ⟨Nat.mod_eq_of_lt hi, Nat.div_eq_of_lt hi⟩
  rw [pass_apply _ _ (by omega) (by omega), pass_apply _ _ (by omega) (by omega)]
  simp only [after, Nat.reduceMul, hmod.1, hmod.2, Nat.add_zero, invnttButterfly, Ntt.bwd]
  by_cases hlo : i.val < 128
  · rw [if_pos hlo, if_pos hlo, if_pos hlo]
    exact montgomeryReduce_table (montInvn_lt p)
      (add32_rep (hcell i hi) (hcell (i + 128) (by omega)) (by omega)) (by omega)
  · rw [if_neg hlo, if_neg hlo, if_neg hlo]
    have hmont := montgomeryReduce_table (zetasInv_lt p 254)
      (sub32_rep (hcell (i - 128) (by omega)) (hcell i hi) (by omega)) (by omega)
    have hfactor : ((zetasInv p).getD 254 0 * rho p : ZMod p.q) =
        montInvn p * rho p * gammaInv p 254 := by
      rw [gammaInv, if_pos rfl, Nat.cast_pow, Nat.cast_ofNat]
      linear_combination -((zetasInv p).getD 254 0 * rho p : ZMod p.q) * montInvn_mul p
    rwa [hfactor, mul_assoc] at hmont

/-- `invntt_frominvmont` takes words below four times `PARAM_Q` to words below
twice `PARAM_Q`. -/
theorem invntt_rep (h : PolyRep p 4 a u) : PolyRep p 2 (invnttFrominvmont p a) (invnttRes p u) := by
  intro i
  rw [invnttRes_eq, Pi.smul_apply, smul_eq_mul]
  exact invnttLast_rep (invnttPasses_rep h) i

/-- **The transforms are inverse**, up to the factor `2 ^ 32` of the scaling. -/
theorem nttRes_invnttRes (u : Fin 256 → ZMod p.q) :
    nttRes p (invnttRes p u) = (2 ^ 32 : ZMod p.q) • u := by
  rw [invnttRes, LinearMap.smul_apply, map_smul, nttRes, Ntt.forward_backward (gamma_inverse p) card_eq,
    smul_smul]
  congr 1
  linear_combination (2 ^ 32 : ZMod p.q) * montInvn_mul p -
    (montInvn p * 2 ^ 8 * rho p : ZMod p.q) * two_pow_mul_rho p

theorem nttRes_negaMul (u v : Fin 256 → ZMod p.q) :
    nttRes p (Ntt.negaMul u v) = nttRes p u * nttRes p v :=
  Ntt.forward_negaMul (gamma_rootTree p) (by omega) card_eq u v

end

end Tlcp.AigisSig
