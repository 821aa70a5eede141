import Mathlib.Data.Nat.Bitwise
import Mathlib.Data.Nat.Count
import Tlcp.AigisSig.Packing
import Tlcp.Lib.Hints

/-!
# Tlcp.AigisSig.SigBytes

`pack_sig` and `unpack_sig`: the vector `z`, the hints as a sorted list of
positions with running counts, and the challenge as a bitmap of its nonzero
coefficients with a separate word of signs.
-/

namespace Tlcp.AigisSig

open Octets Butterfly BitPack

/-! ## hints -/

/-- The positions that the innermost loop of `pack_sig` stores for a hint
polynomial. -/
def ones (h : Poly) : List ℕ := (List.range 256).filter fun j => cell h j = 1

/-- The first `i` rows of the loop of `pack_sig`: the positions stored from the
front of the hints and the counts stored behind them. -/
def packRows (h : ℕ → Poly) : ℕ → List ℕ × List ℕ
  | 0 => ([], [])
  | i + 1 =>
    let pos := (packRows h i).1 ++ ones (h i)
    (pos, (packRows h i).2 ++ [pos.length])

variable (p : ParamSet)

/-- The hints of `pack_sig`, of which there are at most `OMEGA`. -/
def packHints (h : Fin p.k → Poly) : Bytes :=
  let (pos, counts) := packRows (cell h) p.k
  (pos ++ List.replicate (p.omega - pos.length) 0 ++ counts).map UInt8.ofNat

/-- The loop of `unpack_sig` over the positions of a row; out of order is an
error. -/
def unpackRow (b : ℕ → ℕ) (k cnt : ℕ) : Option Poly := (List.range' k (cnt - k)).foldlM
    (fun h j => if k < j ∧ b j ≤ b (j - 1) then none else some (put h (b j) 1)) (fun _ => 0)

/-- The first `i` rows of the loop of `unpack_sig`, with the count they end at. -/
def unpackRows (p : ParamSet) (b : ℕ → ℕ) : ℕ → Option (ℕ × List Poly)
  | 0 => some (0, [])
  | i + 1 => do
    let (k, rows) ← unpackRows p b i
    let cnt := b (p.omega + i)
    if cnt < k ∨ p.omega < cnt then none
    else do
      let row ← unpackRow b k cnt
      some (cnt, rows ++ [row])

/-- The hints of `unpack_sig`; positions left over are zero. -/
def unpackHints (b : ℕ → ℕ) : Option (Fin p.k → Poly) := do
  let (k, rows) ← unpackRows p b p.k
  if (List.range' k (p.omega - k)).any (fun j => b j != 0) then none
  else some fun i => rows.getD i 0

/-- The test of `pack_sig` for a hint. -/
def isOne (x : ℕ) : Bool := x = 1

theorem isOne_tells : Hints.Tells isOne := ⟨rfl, rfl⟩

theorem packRows_eq (h : ℕ → Poly) (i : ℕ) : packRows h i = Hints.packRows isOne h i := by
  induction i with
  | zero => rfl
  | succ i ih =>
    rw [packRows, Hints.packRows, ih]
    rfl

theorem packHints_eq {p : ParamSet} (h : Fin p.k → Poly) :
    packHints p h = Hints.packHints isOne p.omega h := by
  rw [packHints, Hints.packHints, packRows_eq]

theorem unpackRows_eq {p : ParamSet} (b : ℕ → ℕ) (i : ℕ) :
    unpackRows p b i = Hints.unpackRows p.omega b i := by
  induction i with
  | zero => rfl
  | succ i ih =>
    rw [unpackRows, Hints.unpackRows, ih]
    rfl

theorem unpackHints_eq {p : ParamSet} (b : ℕ → ℕ) :
    unpackHints p b = Hints.unpackHints p.omega p.k b := by
  rw [unpackHints, Hints.unpackHints, unpackRows_eq]

/-- The ones of a vector of hints. -/
def hintWeight {p : ParamSet} (h : Fin p.k → Poly) : ℕ := (packRows (cell h) p.k).1.length

theorem hintWeight_weight {p : ParamSet} (h : Fin p.k → Poly) :
    hintWeight h = Hints.weight isOne h := by
  rw [hintWeight, Hints.weight, packRows_eq]

section

variable {p} {h : Fin p.k → Poly}

/-- **Hints are unique**: a buffer that `unpack_sig` accepts is what its hints
pack to. -/
theorem packHints_unpack {b : ℕ → ℕ} (hb : ∀ j, b j < 256) (hh : unpackHints p b = some h) :
    packHints p h = (List.range (p.omega + p.k)).map fun j => UInt8.ofNat (b j) := by
  rw [unpackHints_eq] at hh
  rw [packHints_eq, Hints.packHints_unpack isOne_tells hb hh]

theorem length_packHints (hω : hintWeight h ≤ p.omega) :
    (packHints p h).length = p.omega + p.k := by
  rw [hintWeight_weight] at hω
  rw [packHints_eq, Hints.length_packHints hω]

/-- **Hints round trip**: what follows them in the buffer does not matter. -/
theorem unpackHints_pack (h01 : ∀ i j, h i j = 0 ∨ h i j = 1) (hω : hintWeight h ≤ p.omega)
    (rest : Bytes) : unpackHints p (byteAt (packHints p h ++ rest)) = some h := by
  have homega : p.omega < 256 := by cases p <;> decide
  rw [hintWeight_weight] at hω
  rw [unpackHints_eq, packHints_eq, Hints.unpackHints_pack isOne_tells le_rfl homega h01 hω]

end

/-! ## the challenge -/

/-- The byte that collects the eight bits of a loop. -/
def bitByte (P : ℕ → Bool) (n : ℕ) : ℕ :=
  (List.range n).foldl (fun b j => if P j then b ||| 1 <<< j else b) 0

/-- `signs` and `mask` of `pack_sig` after the first `n` coefficients. -/
def packSigns (p : ParamSet) (c : Poly) : ℕ → ℕ × ℕ
  | 0 => (0, 1)
  | n + 1 =>
    let (signs, mask) := packSigns p c n
    if cell c n ≠ 0 then
      (if cell c n = p.q - 1 then signs ||| mask else signs, mask <<< 1 % 2 ^ 64)
    else (signs, mask)

/-- The challenge of `pack_sig`: a bitmap and the word of signs. -/
def packC (c : Poly) : Bytes :=
  ((List.range 32).map fun i => UInt8.ofNat (bitByte (fun j => cell c (8 * i + j) ≠ 0) 8)) ++
    (List.range 8).map fun i => UInt8.ofNat ((packSigns p c 256).1 >>> (8 * i))

/-- `signs` of `unpack_sig`. -/
def unpackSigns (b : ℕ → ℕ) : ℕ :=
  (List.range 8).foldl (fun signs i => signs ||| b (32 + i) <<< (8 * i)) 0

/-- The coefficients and `mask` of `unpack_sig` after the first `n` bits. -/
def unpackBits (p : ParamSet) (b : ℕ → ℕ) : ℕ → Poly × ℕ
  | 0 => (fun _ => 0, 1)
  | n + 1 =>
    let (c, mask) := unpackBits p b n
    if b (n / 8) >>> (n % 8) &&& 1 ≠ 0 then
      (put c n (if unpackSigns b &&& mask ≠ 0 then p.q - 1 else 1), mask <<< 1 % 2 ^ 64)
    else (c, mask)

/-- The challenge of `unpack_sig`. -/
def unpackC (b : ℕ → ℕ) : Poly := (unpackBits p b 256).1

/-- The nonzero coefficients among the first `n`. -/
def rank (c : Poly) (n : ℕ) : ℕ := Nat.count (fun j => cell c j ≠ 0) n

section

variable {p} {b : ℕ → ℕ} {c : Poly}

theorem testBit_bitByte (P : ℕ → Bool) (n j : ℕ) :
    (bitByte P n).testBit j = (decide (j < n) && P j) := by
  induction n with
  | zero => simp [bitByte]
  | succ n ih =>
    have hstep : bitByte P (n + 1) = if P n then bitByte P n ||| 1 <<< n else bitByte P n := by
      simp [bitByte, List.range_succ]
    rw [hstep]
    by_cases hn : P n <;> by_cases hj : j = n
    · subst hj
      simp [hn, ih, Nat.shiftLeft_eq, Nat.testBit_two_pow_self]
    · have hne : ¬ n = j := fun h => hj h.symm
      have hlt : (j < n + 1) ↔ (j < n) := by omega
      simp [hn, ih, Nat.shiftLeft_eq, hne, hlt]
    · subst hj
      simp [hn, ih]
    · have hlt : (j < n + 1) ↔ (j < n) := by omega
      simp [hn, ih, hlt]

theorem bitByte_lt (P : ℕ → Bool) (n : ℕ) : bitByte P n < 2 ^ n :=
  Nat.lt_pow_two_of_testBit _ fun j hj => by simp [testBit_bitByte, hj]

theorem bit_ne_zero_iff (x j : ℕ) : x >>> j &&& 1 ≠ 0 ↔ x.testBit j := by
  simp [Nat.testBit, Nat.and_comm]

/-- A mask that has been shifted `k` times selects bit `k`. -/
theorem and_mask_ne_zero_iff {x k : ℕ} (hx : x < 2 ^ 64) :
    x &&& (2 ^ k % 2 ^ 64) ≠ 0 ↔ x.testBit k := by
  by_cases hk : k < 64
  · rw [Nat.mod_eq_of_lt (Nat.pow_lt_pow_right (by omega) hk), Nat.and_two_pow]
    cases x.testBit k <;> simp
  · have hz : 2 ^ k % 2 ^ 64 = 0 := Nat.mod_eq_zero_of_dvd (pow_dvd_pow 2 (by omega))
    have hbit : x.testBit k = false :=
      Nat.testBit_lt_two_pow (hx.trans_le (Nat.pow_le_pow_right (by omega) (by omega)))
    rw [hz, hbit, Nat.and_zero]
    simp

theorem mask_succ (k : ℕ) : (2 ^ k % 2 ^ 64) <<< 1 % 2 ^ 64 = 2 ^ (k + 1) % 2 ^ 64 := by
  rw [Nat.shiftLeft_eq, pow_one, Nat.mod_mul_mod, pow_succ 2 k]

theorem unpackSigns_eq (hb : ∀ j, b j < 256) :
    unpackSigns b = b 32 + b 33 * 2 ^ 8 + b 34 * 2 ^ 16 + b 35 * 2 ^ 24 + b 36 * 2 ^ 32 +
      b 37 * 2 ^ 40 + b 38 * 2 ^ 48 + b 39 * 2 ^ 56 := by
  have h32 := hb 32; have h33 := hb 33; have h34 := hb 34; have h35 := hb 35
  have h36 := hb 36; have h37 := hb 37; have h38 := hb 38
  simp only [unpackSigns, List.range_succ, List.range_zero, List.nil_append, List.foldl_append,
    List.foldl_cons, List.foldl_nil, Nat.reduceAdd, Nat.reduceMul]
  simp (disch := omega) only [or_shiftLeft]
  omega

theorem unpackSigns_lt (hb : ∀ j, b j < 256) : unpackSigns b < 2 ^ 64 := by
  have h32 := hb 32; have h33 := hb 33; have h34 := hb 34; have h35 := hb 35
  have h36 := hb 36; have h37 := hb 37; have h38 := hb 38; have h39 := hb 39
  rw [unpackSigns_eq hb]
  omega

/-- The bytes of the word of signs. -/
theorem unpackSigns_shiftRight (hb : ∀ j, b j < 256) {i : ℕ} (hi : i < 8) :
    unpackSigns b >>> (8 * i) % 256 = b (32 + i) := by
  have h32 := hb 32; have h33 := hb 33; have h34 := hb 34; have h35 := hb 35
  have h36 := hb 36; have h37 := hb 37; have h38 := hb 38; have h39 := hb 39
  rw [unpackSigns_eq hb, Nat.shiftRight_eq_div_pow]
  interval_cases i <;> simp only [Nat.reduceAdd, Nat.reduceMul] <;> omega

theorem unpackSigns_of_bytes (hb : ∀ j, b j < 256) {s : ℕ} (hs : s < 2 ^ 64)
    (h : ∀ i < 8, b (32 + i) = s >>> (8 * i) % 256) : unpackSigns b = s := by
  simp only [Nat.forall_lt_succ_right, Nat.not_lt_zero, false_imp_iff, implies_true, true_and,
    Nat.shiftRight_eq_div_pow, Nat.reduceAdd, Nat.reduceMul] at h
  rw [unpackSigns_eq hb]
  omega

theorem rank_succ (c : Poly) (n : ℕ) : rank c (n + 1) = rank c n + if cell c n ≠ 0 then 1 else 0 :=
  Nat.count_succ _ _

/-- The bits set among the first `n` of a bitmap. -/
def place (b : ℕ → ℕ) (n : ℕ) : ℕ := Nat.count (fun j => (b (j / 8)).testBit (j % 8)) n

theorem place_succ (b : ℕ → ℕ) (n : ℕ) :
    place b (n + 1) = place b n + if (b (n / 8)).testBit (n % 8) then 1 else 0 :=
  Nat.count_succ _ _

/-- The coefficient `i` of the challenge that a buffer encodes. -/
def signedBit (p : ParamSet) (b : ℕ → ℕ) (i : ℕ) : ℕ := if (b (i / 8)).testBit (i % 8) then
    if (unpackSigns b).testBit (place b i) then p.q - 1 else 1
  else 0

theorem signedBit_ne_zero (i : ℕ) : signedBit p b i ≠ 0 ↔ (b (i / 8)).testBit (i % 8) := by
  have hq : p.q - 1 ≠ 0 := by cases p <;> decide
  unfold signedBit
  split
  · split <;> simp_all
  · simp_all

theorem unpackBits_eq (hb : ∀ j, b j < 256) (n : ℕ) :
    unpackBits p b n = (fun i : Fin 256 => if i.val < n then signedBit p b i else 0,
      2 ^ place b n % 2 ^ 64) := by
  induction n with
  | zero => simp [unpackBits, place]
  | succ n ih =>
    simp only [unpackBits, ih, bit_ne_zero_iff, and_mask_ne_zero_iff (unpackSigns_lt hb), mask_succ]
    rw [place_succ]
    split
    · next hbit =>
      refine Prod.ext ?_ rfl
      funext i
      by_cases hi : i.val = n
      · simp [put, hi, signedBit, hbit]
      · have hlt : i.val < n + 1 ↔ i.val < n := by omega
        simp [put, hi, hlt]
    · next hbit =>
      refine Prod.ext ?_ rfl
      funext i
      by_cases hi : i.val = n
      · simp [hi, signedBit, hbit]
      · have hlt : i.val < n + 1 ↔ i.val < n := by omega
        simp [hlt]

/-- What `unpack_sig` makes of any bytes, coefficient by coefficient. -/
theorem unpackC_eq (hb : ∀ j, b j < 256) : unpackC p b = fun i : Fin 256 => signedBit p b i := by
  funext i
  rw [unpackC, unpackBits_eq hb]
  simp

theorem cell_unpackC (hb : ∀ j, b j < 256) {i : ℕ} (hi : i < 256) :
    cell (unpackC p b) i = signedBit p b i := by
  rw [cell_of_lt _ hi, unpackC_eq hb]

theorem rank_unpackC (hb : ∀ j, b j < 256) {n : ℕ} (hn : n ≤ 256) :
    rank (unpackC p b) n = place b n := by
  induction n with
  | zero => rfl
  | succ n ih =>
    rw [rank_succ, place_succ, ih (by omega), cell_unpackC hb hn]
    simp only [signedBit_ne_zero]

/-- The low bits of a word, with one more of them. -/
theorem mod_two_pow_or (x k : ℕ) :
    (if x.testBit k then x % 2 ^ k ||| 2 ^ k else x % 2 ^ k) = x % 2 ^ (k + 1) := by
  apply Nat.eq_of_testBit_eq
  intro j
  rcases Nat.lt_trichotomy j k with hj | rfl | hj
  · have hne : ¬ k = j := by omega
    split <;> simp [Nat.testBit_mod_two_pow, hj, hj.trans (Nat.lt_succ_self k), hne]
  · split <;> simp_all [Nat.testBit_mod_two_pow]
  · have h1 : ¬ j < k := by omega
    have h2 : ¬ j < k + 1 := by omega
    have hne : ¬ k = j := by omega
    split <;> simp [Nat.testBit_mod_two_pow, h1, h2, hne]

theorem packSigns_unpack (hb : ∀ j, b j < 256) {n : ℕ} (hn : n ≤ 256) :
    packSigns p (unpackC p b) n = (unpackSigns b % 2 ^ place b n, 2 ^ place b n % 2 ^ 64) := by
  have hq : p.q - 1 ≠ 1 := by cases p <;> decide
  induction n with
  | zero => simp [packSigns, place, Nat.mod_one]
  | succ n ih =>
    simp only [packSigns, ih (by omega), cell_unpackC hb hn, signedBit_ne_zero, mask_succ]
    rw [place_succ]
    by_cases hbit : (b (n / 8)).testBit (n % 8)
    · have hmask : (unpackSigns b).testBit (place b n) → 2 ^ place b n % 2 ^ 64 = 2 ^ place b n := by
        intro hs
        refine Nat.mod_eq_of_lt (Nat.pow_lt_pow_right (by omega) ?_)
        by_contra hk
        have hlt := (unpackSigns_lt hb).trans_le (Nat.pow_le_pow_right (by omega) (Nat.not_lt.mp hk))
        rw [Nat.testBit_lt_two_pow hlt] at hs
        contradiction
      rw [if_pos hbit, if_pos hbit, ← mod_two_pow_or (unpackSigns b)]
      refine Prod.ext ?_ rfl
      by_cases hs : (unpackSigns b).testBit (place b n)
      · simp only [signedBit, hbit, hs, if_true, hmask hs]
      · simp [signedBit, hbit, hs, Ne.symm hq]
    · simp [hbit]

theorem bitmap_unpack (hb : ∀ j, b j < 256) {i : ℕ} (hi : i < 32) :
    bitByte (fun j => cell (unpackC p b) (8 * i + j) ≠ 0) 8 = b i := by
  apply Nat.eq_of_testBit_eq
  intro j
  rw [testBit_bitByte]
  by_cases hj : j < 8
  · have hdiv : (8 * i + j) / 8 = i := by omega
    have hmod : (8 * i + j) % 8 = j := by omega
    rw [cell_unpackC hb (by omega)]
    simp only [signedBit_ne_zero, hj, hdiv, hmod, decide_true, Bool.true_and, Bool.decide_eq_true]
  · have hlt : b i < 2 ^ j :=
      (hb i).trans_le (Nat.pow_le_pow_right Nat.two_pos (Nat.not_lt.mp hj) : 2 ^ 8 ≤ 2 ^ j)
    simp [hj, Nat.testBit_lt_two_pow hlt]

theorem ofNat_eq_iff {x y : ℕ} : UInt8.ofNat x = UInt8.ofNat y ↔ x % 256 = y % 256 := by
  rw [← UInt8.toNat_inj, UInt8.toNat_ofNat', UInt8.toNat_ofNat']

/-- **The challenge**: the bytes that decode to it are those it packs to up to
the signs that no coefficient uses. -/
theorem packC_unpack (hb : ∀ j, b j < 256) :
    packC p (unpackC p b) = (List.range 40).map (fun j => UInt8.ofNat (b j)) ↔
      unpackSigns b < 2 ^ rank (unpackC p b) 256 := by
  have hmap : ((List.range 32).map fun i =>
      UInt8.ofNat (bitByte (fun j => cell (unpackC p b) (8 * i + j) ≠ 0) 8)) =
      (List.range 32).map fun j => UInt8.ofNat (b j) :=
    List.map_congr_left fun i hi => by rw [bitmap_unpack hb (List.mem_range.mp hi)]
  have hmod : ∀ i, b (32 + i) % 256 = b (32 + i) := fun i => Nat.mod_eq_of_lt (hb _)
  rw [packC, hmap, packSigns_unpack hb le_rfl, rank_unpackC hb le_rfl, show 40 = 32 + 8 from rfl,
    List.range_add, List.map_append, List.append_cancel_left_eq, List.map_map, List.map_inj_left]
  simp only [List.mem_range, Function.comp_apply, ofNat_eq_iff, hmod]
  constructor
  · intro h
    have hlt := (Nat.mod_le (unpackSigns b) (2 ^ place b 256)).trans_lt (unpackSigns_lt hb)
    rw [unpackSigns_of_bytes hb hlt fun i hi => (h i hi).symm]
    exact Nat.mod_lt _ (Nat.two_pow_pos _)
  · intro h i hi
    rw [Nat.mod_eq_of_lt h, unpackSigns_shiftRight hb hi]

theorem rank_lt_rank {i j : ℕ} (hi : cell c i ≠ 0) (hij : i < j) : rank c i < rank c j :=
  Nat.count_strict_mono hi hij

theorem or_two_pow_lt {x k : ℕ} (hx : x < 2 ^ k) : x ||| 2 ^ k < 2 ^ (k + 1) :=
  Nat.or_lt_two_pow (hx.trans (Nat.pow_lt_pow_right (by omega) (by omega)))
    (Nat.pow_lt_pow_right (by omega) (by omega))

/-- The word of signs after `n` coefficients holds the sign of each. -/
theorem packSigns_spec (c : Poly) {n : ℕ} (hn : rank c n ≤ 64) :
    (packSigns p c n).1 < 2 ^ rank c n ∧ (packSigns p c n).2 = 2 ^ rank c n % 2 ^ 64 ∧
      ∀ j < n, cell c j ≠ 0 → ((packSigns p c n).1.testBit (rank c j) ↔ cell c j = p.q - 1) := by
  induction n with
  | zero => simp [packSigns, rank]
  | succ n ih =>
    rw [rank_succ] at hn ⊢
    obtain ⟨hlt, hmask, hbit⟩ := ih (by omega)
    by_cases hc : cell c n ≠ 0
    · simp only [if_pos hc] at hn ⊢
      have hm : (packSigns p c n).2 = 2 ^ rank c n := by
        rw [hmask]
        exact Nat.mod_eq_of_lt (Nat.pow_lt_pow_right (by omega) (by omega))
      simp only [packSigns, if_pos hc, hm]
      refine ⟨?_, ?_, ?_⟩
      · split
        · exact or_two_pow_lt hlt
        · exact hlt.trans (Nat.pow_lt_pow_right (by omega) (by omega))
      · rw [Nat.shiftLeft_eq, pow_one, pow_succ 2 (rank c n)]
      · intro j hj hcj
        rcases Nat.lt_succ_iff_lt_or_eq.mp hj with hjn | rfl
        · have hne : ¬ rank c n = rank c j := (rank_lt_rank hcj hjn).ne'
          split <;> simp [hne, hbit j hjn hcj]
        · have hout := Nat.testBit_lt_two_pow hlt
          split
          · next h => simp [h]
          · next h => simp [h, hout]
    · simp only [if_neg hc] at hn ⊢
      simp only [packSigns, if_neg hc]
      refine ⟨hlt, hmask, fun j hj hcj => ?_⟩
      rcases Nat.lt_succ_iff_lt_or_eq.mp hj with hjn | rfl
      · exact hbit j hjn hcj
      · contradiction

theorem length_packC (c : Poly) : (packC p c).length = 40 := by simp [packC]

theorem byteAt_packC (c : Poly) (rest : Bytes) :
    (∀ i < 32, byteAt (packC p c ++ rest) i = bitByte (fun j => cell c (8 * i + j) ≠ 0) 8) ∧
      ∀ i < 8, byteAt (packC p c ++ rest) (32 + i) = (packSigns p c 256).1 >>> (8 * i) % 256 := by
  constructor
  · intro i hi
    have hlt : bitByte (fun j => cell c (8 * i + j) ≠ 0) 8 < 256 := bitByte_lt _ 8
    rw [byteAt_append_left _ (by rw [length_packC]; omega), packC,
      byteAt_append_left _ (by simpa using hi), byteAt]
    simp only [List.getD_eq_getElem?_getD, List.getElem?_map, List.getElem?_range hi, Option.map_some,
      Option.getD_some, UInt8.toNat_ofNat']
    exact Nat.mod_eq_of_lt hlt
  · intro i hi
    have hmap : ((List.range 32).map fun i =>
        UInt8.ofNat (bitByte (fun j => cell c (8 * i + j) ≠ 0) 8)).length = 32 := by simp
    have hright := byteAt_append_right ((List.range 32).map fun i =>
      UInt8.ofNat (bitByte (fun j => cell c (8 * i + j) ≠ 0) 8))
      ((List.range 8).map fun i => UInt8.ofNat ((packSigns p c 256).1 >>> (8 * i))) i
    rw [byteAt_append_left _ (by rw [length_packC]; omega), packC]
    rw [hmap] at hright
    rw [hright, byteAt]
    simp [List.getD_eq_getElem?_getD, hi]

/-- **Challenge round trip**: what follows in the buffer does not matter. -/
theorem unpackC_pack (hc : ∀ i, c i = 0 ∨ c i = 1 ∨ c i = p.q - 1) (hw : rank c 256 ≤ 64)
    (rest : Bytes) : unpackC p (byteAt (packC p c ++ rest)) = c := by
  have hq : p.q - 1 ≠ 1 := by cases p <;> decide
  obtain ⟨hmap, hword⟩ := byteAt_packC (p := p) c rest
  obtain ⟨hlt, -, hsign⟩ := packSigns_spec (p := p) c hw
  have hb := byteAt_lt (packC p c ++ rest)
  have hsigns : unpackSigns (byteAt (packC p c ++ rest)) = (packSigns p c 256).1 :=
    unpackSigns_of_bytes hb (hlt.trans_le (Nat.pow_le_pow_right Nat.two_pos hw)) hword
  have hbit : ∀ n < 256, ((byteAt (packC p c ++ rest) (n / 8)).testBit (n % 8) ↔ cell c n ≠ 0) := by
    intro n hn
    rw [hmap _ (by omega), testBit_bitByte, Nat.div_add_mod]
    simp [Nat.mod_lt n (show 8 > 0 by omega)]
  have hplace : ∀ n ≤ 256, place (byteAt (packC p c ++ rest)) n = rank c n := by
    intro n hn
    induction n with
    | zero => rfl
    | succ n ih => simp only [rank_succ, place_succ, ih (by omega), hbit n hn]
  rw [unpackC_eq hb]
  funext i
  have hci := hsign i i.isLt
  simp only [cell_val] at hci
  simp only [signedBit, hbit i i.isLt, hsigns, hplace i i.isLt.le, cell_val]
  rcases hc i with h | h | h
  · simp [h]
  · rw [h] at hci
    have hno := (hci Nat.one_ne_zero).not.mpr (Ne.symm hq)
    simp [h, hno]
  · have hne : c i ≠ 0 := by rw [h]; cases p <;> decide
    rw [if_pos hne, if_pos ((hci hne).mpr h), h]

/-- The top bits of the word of signs are not looked at where the challenge has
at most sixty coefficients. -/
theorem unpackC_congr {b' : ℕ → ℕ} (hb : ∀ j, b j < 256) (hb' : ∀ j, b' j < 256)
    (h : ∀ j < 39, b' j = b j) (h39 : b' 39 % 16 = b 39 % 16) (hw : rank (unpackC p b) 256 ≤ 60) :
    unpackC p b' = unpackC p b := by
  have hplace : ∀ n ≤ 256, place b' n = place b n := by
    intro n hn
    induction n with
    | zero => rfl
    | succ n ih => simp only [place_succ, ih (by omega), h (n / 8) (by omega)]
  have hsigns : unpackSigns b' % 2 ^ 60 = unpackSigns b % 2 ^ 60 := by
    rw [unpackSigns_eq hb, unpackSigns_eq hb', h 32 (by omega), h 33 (by omega), h 34 (by omega),
      h 35 (by omega), h 36 (by omega), h 37 (by omega), h 38 (by omega)]
    omega
  rw [unpackC_eq hb, unpackC_eq hb']
  funext i
  have hi := i.isLt
  rw [signedBit, signedBit, h (i / 8) (by omega), hplace i hi.le]
  by_cases hbit : (b (i / 8)).testBit (i % 8)
  · have hlt : place b i < 60 := by
      have hlt := Nat.count_strict_mono (p := fun j => (b (j / 8)).testBit (j % 8)) hbit hi
      rw [rank_unpackC hb le_rfl] at hw
      exact lt_of_lt_of_le hlt hw
    have htest : ∀ x : ℕ, x.testBit (place b i) = (x % 2 ^ 60).testBit (place b i) := by
      intro x
      rw [Nat.testBit_mod_two_pow, decide_eq_true hlt, Bool.true_and]
    rw [htest (unpackSigns b'), htest (unpackSigns b), hsigns]
  · rw [if_neg hbit, if_neg hbit]

end

/-! ## whole signatures -/

/-- `SIG_SIZE_PACKED`, which is `CRYPTO_BYTES`. -/
def ParamSet.sigSize : ℕ := p.l * 576 + (p.omega + p.k) + 40

/-- `pack_sig`. -/
def packSig (z : Fin p.l → Poly) (h : Fin p.k → Poly) (c : Poly) : Bytes :=
  packVec (polyzPack p) z ++ packHints p h ++ packC p c

/-- What `unpack_sig` writes. -/
@[ext] structure SigParts where
  z : Fin p.l → Poly
  h : Fin p.k → Poly
  c : Poly

/-- `unpack_sig`: nothing is returned for bytes that it refuses. -/
def unpackSig (sig : Bytes) : Option (SigParts p) := do
  let z := unpackVec (polyzUnpack p) 576 sig
  let sig := sig.drop (p.l * 576)
  let h ← unpackHints p (byteAt sig)
  let sig := sig.drop (p.omega + p.k)
  some ⟨z, h, unpackC p (byteAt sig)⟩

section

variable {p}

theorem length_polyzPack (a : Poly) : (polyzPack p a).length = 576 := length_packWith

theorem length_packSig {z : Fin p.l → Poly} {h : Fin p.k → Poly} (hω : hintWeight h ≤ p.omega)
    (c : Poly) : (packSig p z h c).length = p.sigSize := by
  rw [packSig, List.length_append, List.length_append, length_packVec length_polyzPack,
    length_packHints hω, length_packC, ParamSet.sigSize, Nat.mul_comm]

/-- The vector and the hints read back, whatever the bytes of the challenge. -/
theorem unpackSig_append {z : Fin p.l → Poly} {h : Fin p.k → Poly}
    (hz : ∀ i j, z i j < p.q ∧ zMap p (z i j) < 2 ^ 18) (h01 : ∀ i j, h i j = 0 ∨ h i j = 1)
    (hω : hintWeight h ≤ p.omega) (rest : Bytes) :
    unpackSig p (packVec (polyzPack p) z ++ packHints p h ++ rest) =
      some ⟨z, h, unpackC p (byteAt rest)⟩ := by
  have hvec := unpackVec_packVec length_polyzPack (v := z)
    fun i rest => polyzUnpack_pack rest (hz i)
  have hlen : (packVec (polyzPack p) z).length = p.l * 576 := by
    rw [length_packVec length_polyzPack, Nat.mul_comm]
  simp only [unpackSig, List.append_assoc, hvec, List.drop_left' hlen,
    List.drop_left' (length_packHints hω), unpackHints_pack h01 hω, Option.bind_eq_bind, Option.bind_some]

/-- **Signature round trip**, also with bytes behind the signature. -/
theorem unpackSig_pack {z : Fin p.l → Poly} {h : Fin p.k → Poly} {c : Poly}
    (hz : ∀ i j, z i j < p.q ∧ zMap p (z i j) < 2 ^ 18) (h01 : ∀ i j, h i j = 0 ∨ h i j = 1)
    (hω : hintWeight h ≤ p.omega) (hc : ∀ i, c i = 0 ∨ c i = 1 ∨ c i = p.q - 1)
    (hw : rank c 256 ≤ 64) (rest : Bytes) : unpackSig p (packSig p z h c ++ rest) = some ⟨z, h, c⟩ := by
  rw [packSig, List.append_assoc, unpackSig_append hz h01 hω, unpackC_pack hc hw]

/-- **Signatures are unique** up to the length that `unpack_sig` does not look
at and the signs that no coefficient of the challenge uses. -/
theorem packSig_unpack {sig : Bytes} (hlen : p.sigSize ≤ sig.length) {parts : SigParts p}
    (h : unpackSig p sig = some parts) :
    packSig p parts.z parts.h parts.c = sig ↔ sig.length = p.sigSize ∧
      unpackSigns (byteAt (sig.drop (p.sigSize - 40))) < 2 ^ rank parts.c 256 := by
  simp only [unpackSig, Option.bind_eq_bind, Option.bind_eq_some_iff] at h
  obtain ⟨hints, hh, hparts⟩ := h
  obtain rfl := Option.some.inj hparts
  have hsize : p.sigSize = p.l * 576 + (p.omega + p.k) + 40 := rfl
  have hz : packVec (polyzPack p) (unpackVec (polyzUnpack p) 576 sig : Fin p.l → Poly) =
      sig.take (p.l * 576) := by
    rw [packVec_unpackVec (fun b hb => polyzPack_unpack hb) (by omega), Nat.mul_comm]
  have hhints := packHints_unpack (byteAt_lt _) hh
  rw [range_map_byteAt (by rw [List.length_drop]; omega)] at hhints
  have hc := packC_unpack (p := p) (byteAt_lt (sig.drop (p.l * 576 + (p.omega + p.k))))
  rw [range_map_byteAt (by rw [List.length_drop]; omega)] at hc
  have hsig : sig = sig.take (p.l * 576) ++ (sig.drop (p.l * 576)).take (p.omega + p.k) ++
      sig.drop (p.l * 576 + (p.omega + p.k)) := by
    rw [← List.take_add, List.take_append_drop]
  simp only [packSig, List.drop_drop, hz, hhints, hsize, Nat.add_sub_cancel]
  rw [← hc]
  conv_lhs => rhs; rw [hsig]
  rw [List.append_cancel_left_eq]
  constructor
  · intro heq
    have h40 := congrArg List.length heq
    rw [length_packC, List.length_drop] at h40
    refine ⟨by omega, ?_⟩
    rw [heq, List.take_of_length_le (by rw [List.length_drop]; omega)]
  · rintro ⟨hl, heq⟩
    rw [heq, List.take_of_length_le (by rw [List.length_drop]; omega)]

end

end Tlcp.AigisSig
