import Mathlib.Data.Rat.Floor
import Mathlib.Tactic.NormNum
import Tlcp.AigisEnc.Arith
import Tlcp.Pqmagic.Codecs
import Tlcp.Lib.Packed

/-!
# Tlcp.AigisEnc.Compress

Compression: the packers of `poly.c` and `polyvec.c`.  A coefficient is compressed to the
nearest multiple of `q / 2 ^ d`; the multiples lie so far apart that a compressed
value is compressed to itself again, so a ciphertext that is decompressed and
compressed is the same ciphertext.
-/

namespace Tlcp.AigisEnc

open Octets BitPack Packed

/-- A vector of `PARAM_K` polynomials, `polyvec`. -/
abbrev PolyVec (p : ParamSet) := Fin p.k → Poly

/-! ## the packers -/

/-- The bits of a coefficient that is converted to 32 bits. -/
def uint32 (x : ℤ) : ℕ := (x % 2 ^ 32).toNat

/-- The `d` bits of a compressed coefficient. -/
def compress (d : ℕ) (x : ℤ) : ℕ := (uint32 x <<< d % 2 ^ 32 + q / 2) % 2 ^ 32 / q &&& 2 ^ d - 1

/-- The coefficient of `d` bits. -/
def decompress (d v : ℕ) : ℤ := int16 ((v * q + 2 ^ (d - 1)) >>> d : ℕ)

/-- The layouts that `BITS_PK`, `BITS_C1` and `BITS_C2` choose from. -/
def bits : ℕ → Codec
  | 3 => bits3
  | 4 => bits4
  | 5 => bits5
  | 9 => bits9
  | 10 => bits10
  | _ => bits11

/-- The bytes of one polynomial. -/
def compressPoly (d : ℕ) (a : Poly) : Bytes := packArray (bits d) (compress d) a

/-- The polynomial of its bytes. -/
def decompressPoly (d : ℕ) (b : Bytes) : Poly := unpackArray (bits d) (decompress d) b

/-- `cpbytes`, the bytes of one polynomial of `d` bits a coefficient. -/
def cpbytes (d : ℕ) : ℕ := (256 * d) >>> 3

variable (p : ParamSet)

/-- `poly_compress`. -/
def polyCompress (a : Poly) : Bytes := compressPoly p.bitsC2 a

/-- `poly_decompress`. -/
def polyDecompress (b : Bytes) : Poly := decompressPoly p.bitsC2 b

/-- `polyvec_compress9`, `polyvec_compress10` and `polyvec_compress11`. -/
def polyvecCompress (d : ℕ) (a : PolyVec p) : Bytes := packVec (compressPoly d) a

/-- `polyvec_decompress9`, `polyvec_decompress10` and `polyvec_decompress11`. -/
def polyvecDecompress (d : ℕ) (b : Bytes) : PolyVec p := unpackVec (decompressPoly d) (cpbytes d) b

/-- `polyvec_ct_compress`. -/
def polyvecCtCompress : PolyVec p → Bytes := polyvecCompress p p.bitsC1

/-- `polyvec_ct_decompress`. -/
def polyvecCtDecompress : Bytes → PolyVec p := polyvecDecompress p p.bitsC1

/-- `polyvec_pk_compress`. -/
def polyvecPkCompress : PolyVec p → Bytes := polyvecCompress p p.bitsPk

/-- `polyvec_pk_decompress`. -/
def polyvecPkDecompress : Bytes → PolyVec p := polyvecDecompress p p.bitsPk

/-- `poly_tobytes`. -/
def polyTobytes (a : Poly) : Bytes := packArray bits13 uint32 a

/-- `poly_frombytes`. -/
def polyFrombytes (b : Bytes) : Poly := unpackArray bits13 (fun t => int16 t) b

/-! ## one coefficient -/

/-- The widths of the parameter sets. -/
def widths : List ℕ := [3, 4, 5, 9, 10, 11]

theorem mem_widths : p.bitsC2 ∈ widths ∧ p.bitsC1 ∈ widths ∧ p.bitsPk ∈ widths := by cases p <;> decide

/-- A coefficient in `[0, q)`. -/
def Canonical (x : ℤ) : Prop := 0 ≤ x ∧ x < q

variable {p} {d n : ℕ} {x : ℤ}

theorem mem_widths_iff : d ∈ widths ↔ d = 3 ∨ d = 4 ∨ d = 5 ∨ d = 9 ∨ d = 10 ∨ d = 11 := by simp [widths]

/-- Neither the shift nor the sum leaves 32 bits. -/
theorem compress_eq (hd : d ∈ widths) (hn : n < q) : compress d n = (n * 2 ^ d + q / 2) / q % 2 ^ d := by
  have hpow : n * 2 ^ d ≤ n * 2 ^ 11 :=
    Nat.mul_le_mul_left _ (Nat.pow_le_pow_right (by omega) (by revert d; decide))
  have hq : q = 7681 := rfl
  have hcast : uint32 n = n := by rw [uint32]; omega
  rw [compress, Nat.and_two_pow_sub_one_eq_mod, hcast, Nat.shiftLeft_eq,
    Nat.mod_eq_of_lt (show n * 2 ^ d < 2 ^ 32 by omega),
    Nat.mod_eq_of_lt (show n * 2 ^ d + q / 2 < 2 ^ 32 by omega)]

theorem compress_lt : compress d x < 2 ^ d := by
  rw [compress, Nat.and_two_pow_sub_one_eq_mod]
  exact Nat.mod_lt _ (by positivity)

/-- The value fits the coefficient, and is below `q`. -/
theorem decompress_eq (hd : d ∈ widths) (hn : n < 2 ^ d) :
    decompress d n = ((n * q + 2 ^ (d - 1)) / 2 ^ d : ℕ) ∧ (n * q + 2 ^ (d - 1)) / 2 ^ d < q := by
  have hlt : (n * q + 2 ^ (d - 1)) / 2 ^ d < q := by
    rw [q]
    rcases mem_widths_iff.mp hd with rfl | rfl | rfl | rfl | rfl | rfl <;> omega
  have hq : q = 7681 := rfl
  rw [decompress, Nat.shiftRight_eq_div_pow]
  generalize (n * q + 2 ^ (d - 1)) / 2 ^ d = t at hlt ⊢
  exact ⟨int16_of_lt (by omega) (by omega), hlt⟩

/-- A compressed value is compressed to itself. -/
theorem compress_decompress (hd : d ∈ widths) (hn : n < 2 ^ d) : compress d (decompress d n) = n := by
  obtain ⟨heq, hlt⟩ := decompress_eq hd hn
  have hdiv : ((n * q + 2 ^ (d - 1)) / 2 ^ d * 2 ^ d + q / 2) / q = n := by
    rw [q]
    rcases mem_widths_iff.mp hd with rfl | rfl | rfl | rfl | rfl | rfl <;> omega
  rw [heq, compress_eq hd hlt, hdiv, Nat.mod_eq_of_lt hn]

/-- The distance of two coefficients modulo `q`. -/
def distance (x y : ℤ) : ℕ := ((x - y).bmod q).natAbs

/-- The nearest integer to `q / 2 ^ (d + 1)`. -/
def roundingError (d : ℕ) : ℤ := round ((q : ℚ) / 2 ^ (d + 1))

theorem roundingError_eq (hd : d ∈ widths) : roundingError d = ((q / 2 + 2 ^ (d - 1)) / 2 ^ d : ℕ) := by
  rw [roundingError, round_eq, Int.floor_eq_iff]
  rcases mem_widths_iff.mp hd with rfl | rfl | rfl | rfl | rfl | rfl <;> norm_num [q]

/-- Values that differ by little, up to a multiple of `q`. -/
theorem distance_le {y e : ℤ} (k : ℤ) (he : 2 * e < q) (hlo : -e ≤ x - y + q * k)
    (hhi : x - y + q * k ≤ e) : distance x y ≤ e := by
  have hmod : (x - y).bmod q = x - y + q * k := by
    rw [← Int.add_mul_bmod_self_left _ _ k, Int.bmod_eq_of_le_mul_two (by omega) (by omega)]
  rw [distance, hmod]
  omega

/-- The error of compression is the rounding error of its step. -/
theorem decompress_compress (hd : d ∈ widths) (hx : Canonical x) :
    distance (decompress d (compress d x)) x ≤ roundingError d := by
  obtain ⟨n, rfl⟩ := Int.eq_ofNat_of_zero_le hx.1
  have hn : n < q := by exact_mod_cast hx.2
  rw [roundingError_eq hd, (decompress_eq hd compress_lt).1, compress_eq hd hn]
  rcases Nat.lt_or_ge ((n * 2 ^ d + q / 2) / q) (2 ^ d) with hlt | hge
  · rw [Nat.mod_eq_of_lt hlt]
    refine distance_le 0 ?_ ?_ ?_ <;> rw [q] at * <;>
      rcases mem_widths_iff.mp hd with rfl | rfl | rfl | rfl | rfl | rfl <;> omega
  · -- a coefficient near the top is compressed to zero, which is `q` below
    have htop : (n * 2 ^ d + q / 2) / q = 2 ^ d := by
      rw [q] at *
      rcases mem_widths_iff.mp hd with rfl | rfl | rfl | rfl | rfl | rfl <;> omega
    rw [htop, Nat.mod_self]
    refine distance_le 1 ?_ ?_ ?_ <;> rw [q] at * <;>
      rcases mem_widths_iff.mp hd with rfl | rfl | rfl | rfl | rfl | rfl <;> omega

/-! ## polynomials and vectors -/

theorem bits_spec (hd : d ∈ widths) : (bits d).Tight ∧ (bits d).bound = 2 ^ d ∧ (bits d).g ∣ 256 ∧
    0 < (bits d).g ∧ (bits d).m * (256 / (bits d).g) = cpbytes d := by
  refine ⟨?_, by revert d; decide⟩
  rcases mem_widths_iff.mp hd with rfl | rfl | rfl | rfl | rfl | rfl <;>
    refine Codec.tight _ (by decide) fun t t' h => ?_ <;>
    simp only [bits, bits3, bits4, bits5, bits9, bits10, bits11, Nat.forall_lt_succ_right] at h ⊢ <;>
    simp only [h]

theorem length_compressPoly (hd : d ∈ widths) (a : Poly) : (compressPoly d a).length = cpbytes d := by
  rw [compressPoly, length_packArray, (bits_spec hd).2.2.2.2]

theorem compressPoly_decompressPoly (hd : d ∈ widths) {b : Bytes} (hb : cpbytes d ≤ b.length) :
    compressPoly d (decompressPoly d b) = b.take (cpbytes d) := by
  obtain ⟨htight, hbound, hg, hpos, hm⟩ := bits_spec hd
  rw [← hm] at hb ⊢
  refine packArray_unpackArray htight hg hpos (fun t ht => ?_) hb
  exact compress_decompress hd (by rwa [hbound] at ht)

theorem decompressPoly_compressPoly (hd : d ∈ widths) {a : Poly} (ha : ∀ i, Canonical (a i)) (rest : Bytes)
    (i : Fin 256) : distance (decompressPoly d (compressPoly d a ++ rest) i) (a i) ≤ roundingError d := by
  obtain ⟨-, hbound, hg, -, -⟩ := bits_spec hd
  rw [decompressPoly, compressPoly,
    unpackArray_packArray_apply hg (fun i => by rw [hbound]; exact compress_lt)]
  exact decompress_compress hd (ha i)

theorem polyvecCompress_polyvecDecompress (hd : d ∈ widths) {b : Bytes} (hb : b.length = cpbytes d * p.k) :
    polyvecCompress p d (polyvecDecompress p d b) = b := by
  rw [polyvecCompress, polyvecDecompress,
    packVec_unpackVec (fun b hb => compressPoly_decompressPoly hd hb) hb.ge, ← hb, List.take_length]

theorem polyvecDecompress_polyvecCompress (hd : d ∈ widths) {a : PolyVec p}
    (ha : ∀ j i, Canonical (a j i)) (j : Fin p.k) (i : Fin 256) :
    distance (polyvecDecompress p d (polyvecCompress p d a) j i) (a j i) ≤ roundingError d := by
  obtain ⟨tail, htail⟩ := drop_packVec (v := a) (length_compressPoly hd) [] j
  rw [List.append_nil] at htail
  rw [polyvecDecompress, polyvecCompress, unpackVec, htail]
  exact decompressPoly_compressPoly hd (ha j) tail i

theorem polyFrombytes_polyTobytes {a : Poly} (ha : ∀ i, Canonical (a i)) :
    polyFrombytes (polyTobytes a) = a := by
  rw [polyFrombytes, polyTobytes, ← List.append_nil (packArray _ _ _)]
  refine unpackArray_packArray (by decide) (fun i => ?_) []
  obtain ⟨hlo, hhi⟩ := ha i
  have hq : (q : ℤ) = 7681 := rfl
  have hbound : bits13.bound = 8192 := rfl
  have hcast : (uint32 (a i) : ℤ) = a i := by rw [uint32]; omega
  refine ⟨by omega, ?_⟩
  rw [hcast, int16_of_lt (by omega) (by omega)]

/-- **Compression**: no bit of a ciphertext or a public key is lost when it is
decompressed and compressed again, a coefficient moves by no more than the
rounding error, and the uncompressed packing is exact. -/
theorem compression_laws (p : ParamSet) :
    (∀ b, b.length = cpbytes p.bitsC2 → polyCompress p (polyDecompress p b) = b) ∧
    (∀ b, b.length = cpbytes p.bitsC1 * p.k → polyvecCtCompress p (polyvecCtDecompress p b) = b) ∧
    (∀ b, b.length = cpbytes p.bitsPk * p.k → polyvecPkCompress p (polyvecPkDecompress p b) = b) ∧
    (∀ a : PolyVec p, (∀ j i, Canonical (a j i)) → ∀ j i,
      distance (polyDecompress p (polyCompress p (a j)) i) (a j i) ≤ roundingError p.bitsC2 ∧
      distance (polyvecCtDecompress p (polyvecCtCompress p a) j i) (a j i) ≤ roundingError p.bitsC1 ∧
      distance (polyvecPkDecompress p (polyvecPkCompress p a) j i) (a j i) ≤ roundingError p.bitsPk ∧
      polyFrombytes (polyTobytes (a j)) = a j) := by
  obtain ⟨h2, h1, hpk⟩ := mem_widths p
  refine ⟨fun b hb => ?_, fun b => polyvecCompress_polyvecDecompress h1,
    fun b => polyvecCompress_polyvecDecompress hpk, fun a ha j i => ⟨?_, ?_, ?_, ?_⟩⟩
  · rw [polyCompress, polyDecompress, compressPoly_decompressPoly h2 hb.ge, ← hb, List.take_length]
  · have h := decompressPoly_compressPoly h2 (ha j) [] i
    rwa [List.append_nil] at h
  · exact polyvecDecompress_polyvecCompress h1 ha j i
  · exact polyvecDecompress_polyvecCompress hpk ha j i
  · exact polyFrombytes_polyTobytes (ha j)

theorem compression_laws_top :
    polyCompress .params2 (polyDecompress .params2 (List.replicate 128 0xff)) = List.replicate 128 0xff ∧
      distance (polyDecompress .params4 (polyCompress .params4 fun _ => 7680) 255) 7680 ≤ roundingError 5 :=
  ⟨(compression_laws .params2).1 _ List.length_replicate,
    ((compression_laws .params4).2.2.2 (fun _ _ => 7680) (fun _ _ => ⟨by decide, by decide⟩)
      ⟨0, by decide⟩ 255).1⟩

end Tlcp.AigisEnc
