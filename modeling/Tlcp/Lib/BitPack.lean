import Mathlib.Tactic.IntervalCases
import Mathlib.Data.Fintype.BigOperators
import Mathlib.Data.List.GetD
import Tlcp.Lib.Octets

/-!
# BitPack

Arrays of integers of a few bits are stored in groups: `g` values become `m`
bytes by shifts, masks and ors.  A `Codec` is the code of one group with the
proof that it reads back what it wrote; `pack` and `unpack` run over the
groups of an array, and `unpack_pack` is the round trip of the whole.  In a
codec that is `Tight` every byte string of the right length is an encoding
(`pack_unpack`).
-/

namespace BitPack

open Octets

/-! ## bytes of a buffer -/

/-- The byte `i` of a buffer. -/
def byteAt (b : Bytes) (i : ℕ) : ℕ := (b.getD i 0).toNat

theorem byteAt_lt (b : Bytes) (i : ℕ) : byteAt b i < 256 := (b.getD i 0).toNat_lt

theorem byteAt_append_left {x : Bytes} (y : Bytes) {i : ℕ} (h : i < x.length) :
    byteAt (x ++ y) i = byteAt x i := by
  simp only [byteAt, List.getD_append _ _ _ _ h]

theorem byteAt_append_right (x y : Bytes) (i : ℕ) : byteAt (x ++ y) (x.length + i) = byteAt y i := by
  simp only [byteAt]
  rw [List.getD_append_right _ _ _ _ (by omega), Nat.add_sub_cancel_left]

theorem byteAt_drop (b : Bytes) (n i : ℕ) : byteAt (b.drop n) i = byteAt b (n + i) := by
  simp only [byteAt, List.getD_eq_getElem?_getD, List.getElem?_drop]

theorem byteAt_take (b : Bytes) {n i : ℕ} (hi : i < n) : byteAt (b.take n) i = byteAt b i := by
  simp only [byteAt, List.getD_eq_getElem?_getD, List.getElem?_take_of_lt hi]

theorem byteAt_map_ofNat (l : List ℕ) (i : ℕ) :
    byteAt (l.map UInt8.ofNat) i = l.getD i 0 % 256 := by
  simp only [byteAt, List.getD_eq_getElem?_getD, List.getElem?_map]
  cases l[i]? <;> simp

theorem byteAt_range_map (f : ℕ → UInt8) {n k : ℕ} (hk : k < n) :
    byteAt ((List.range n).map f) k = (f k).toNat := by
  simp [byteAt, hk]

/-- The bytes of the front of a buffer. -/
theorem range_map_byteAt {b : Bytes} {n : ℕ} (hn : n ≤ b.length) :
    ((List.range n).map fun j => UInt8.ofNat (byteAt b j)) = b.take n := by
  apply List.ext_getElem (by simp [hn])
  intro i hi hb
  simp only [List.length_map, List.length_range] at hi
  simp [byteAt, List.getD_eq_getElem?_getD, List.getElem?_eq_getElem (show i < b.length by omega)]

/-- Two buffers of one length with the same bytes are equal. -/
theorem eq_of_byteAt {x y : Bytes} (hlen : x.length = y.length)
    (h : ∀ i < x.length, byteAt x i = byteAt y i) : x = y := by
  apply List.ext_getElem hlen
  intro i hx hy
  have hi := h i hx
  simp only [byteAt, List.getD_eq_getElem _ _ hx, List.getD_eq_getElem _ _ hy] at hi
  exact UInt8.toNat_inj.mp hi

/-! ## pieces of equal length -/

section

variable {α : Type*} {n m : ℕ} {f : ℕ → List α}

theorem length_flatMap_range (h : ∀ i < n, (f i).length = m) :
    ((List.range n).flatMap f).length = m * n := by
  induction n with
  | zero => simp
  | succ n ih =>
    rw [List.range_succ, List.flatMap_append, List.length_append, ih fun i hi => h i (by omega),
      List.flatMap_singleton, h n (by omega), Nat.mul_succ]

/-- The piece `i`, and what is behind it. -/
theorem drop_flatMap_range (h : ∀ i < n, (f i).length = m) {i : ℕ} (hi : i < n) :
    ∃ rest, ((List.range n).flatMap f).drop (m * i) = f i ++ rest := by
  induction n with
  | zero => contradiction
  | succ n ih =>
    have hlen := length_flatMap_range fun i (hi : i < n) => h i (by omega)
    rw [List.range_succ, List.flatMap_append, List.flatMap_singleton]
    rcases Nat.lt_or_ge i n with hlt | hge
    · obtain ⟨rest, hrest⟩ := ih (fun i hi => h i (by omega)) hlt
      refine ⟨rest ++ f n, ?_⟩
      rw [List.drop_append_of_le_length (by rw [hlen]; exact Nat.mul_le_mul_left m (by omega)), hrest,
        List.append_assoc]
    · obtain rfl : i = n := by omega
      exact ⟨[], by rw [List.drop_left' hlen, List.append_nil]⟩

end

theorem byteAt_flatMap_range {n m : ℕ} {f : ℕ → Bytes} (h : ∀ i < n, (f i).length = m) {i j : ℕ}
    (hi : i < n) (hj : j < m) : byteAt ((List.range n).flatMap f) (m * i + j) = byteAt (f i) j := by
  obtain ⟨rest, hrest⟩ := drop_flatMap_range h hi
  rw [← byteAt_drop, hrest, byteAt_append_left rest (by rw [h i hi]; exact hj)]

/-! ## shifts, masks and ors as arithmetic -/

theorem or_shiftLeft {x y k : ℕ} (h : x < 2 ^ k) : x ||| y <<< k = x + y * 2 ^ k := by
  rw [Nat.or_comm, ← Nat.shiftLeft_add_eq_or_of_lt h, Nat.shiftLeft_eq, Nat.add_comm]

/-- The masks of the packers. -/
theorem and_mask : (∀ x, x &&& 1 = x % 2) ∧ (∀ x, x &&& 3 = x % 4) ∧ (∀ x, x &&& 7 = x % 8) ∧
    (∀ x, x &&& 15 = x % 16) ∧ (∀ x, x &&& 31 = x % 32) ∧ (∀ x, x &&& 63 = x % 64) ∧
    (∀ x, x &&& 127 = x % 128) ∧ (∀ x, x &&& 255 = x % 256) ∧ (∀ x, x &&& 1023 = x % 1024) ∧
    (∀ x, x &&& 8191 = x % 8192) ∧ (∀ x, x &&& 262143 = x % 262144) ∧
    ∀ x, x &&& 1048575 = x % 1048576 := by
  have h := fun k x => Nat.and_two_pow_sub_one_eq_mod x k
  exact ⟨h 1, h 2, h 3, h 4, h 5, h 6, h 7, h 8, h 10, h 13, h 18, h 20⟩

theorem shiftLeft_and : (∀ x, x <<< 2 &&& 4 = (x % 2) <<< 2) ∧ ∀ x, x <<< 1 &&& 6 = (x % 4) <<< 1 := by
  refine ⟨fun x => ?_, fun x => ?_⟩
  · rw [show 4 = 1 <<< 2 from rfl, ← Nat.shiftLeft_and_distrib, Nat.and_one_is_mod]
  · rw [show 6 = 3 <<< 1 from rfl, ← Nat.shiftLeft_and_distrib, and_mask.2.1]

/-! ## codecs -/

/-- The code of a group of `g` values below `bound`, as `m` bytes.  `enc` gives
the integers that are stored into the bytes, and `dec` the values in terms of
the bytes of the group.  That the values read back is arithmetic of shifts and
masks, once the group is taken apart. -/
structure Codec where
  g : ℕ
  m : ℕ
  bound : ℕ
  enc : (ℕ → ℕ) → List ℕ
  dec : (ℕ → ℕ) → ℕ → ℕ
  length_enc : ∀ t, (enc t).length = m := by intro t; rfl
  dec_enc : ∀ t b, (∀ j < g, t j < bound) → (∀ j < m, b j = (enc t).getD j 0 % 256) →
    ∀ r < g, dec b r = t r := by
      intro t b ht hb r hr
      simp only [Nat.forall_lt_succ_right] at ht
      interval_cases r <;>
        simp (disch := omega) only [hb, List.getD_cons_zero, List.getD_cons_succ, and_mask, shiftLeft_and,
          Nat.shiftRight_eq_div_pow, or_shiftLeft] <;> omega

/-- Every byte string is an encoding. -/
structure Codec.Tight (c : Codec) : Prop where
  dec_lt : ∀ b, (∀ j < c.m, b j < 256) → ∀ r < c.g, c.dec b r < c.bound
  enc_dec : ∀ b t, (∀ j < c.m, b j < 256) → (∀ r < c.g, t r = c.dec b r) →
    ∀ j < c.m, (c.enc t).getD j 0 % 256 = b j

/-- The values of a group, as `enc` takes them. -/
def Codec.values (c : Codec) (t : Fin c.g → Fin c.bound) (r : ℕ) : ℕ := if h : r < c.g then t ⟨r, h⟩ else 0

/-- The bytes of a group. -/
def Codec.bytes (c : Codec) (t : Fin c.g → Fin c.bound) (j : Fin c.m) : Fin 256 :=
  Fin.ofNat 256 ((c.enc (c.values t)).getD j 0)

theorem Codec.dec_bytes (c : Codec) (t : Fin c.g → Fin c.bound) {b : ℕ → ℕ}
    (hb : ∀ j : Fin c.m, b j = c.bytes t j) (r : Fin c.g) : c.dec b r = t r := by
  have hval : ∀ r (hr : r < c.g), c.values t r = t ⟨r, hr⟩ := fun r hr => dif_pos hr
  rw [c.dec_enc (c.values t) b (fun r hr => by rw [hval r hr]; exact (t _).isLt)
    (fun j hj => hb ⟨j, hj⟩) r r.isLt, hval]

/-- A codec with as many groups of values as strings of `m` bytes is tight: what
reads back is different for different groups, so no string is left over. -/
theorem Codec.tight (c : Codec) (hcard : c.bound ^ c.g = 256 ^ c.m)
    (hcongr : ∀ t t', (∀ r < c.g, t r = t' r) → c.enc t = c.enc t') : c.Tight := by
  have hinj : Function.Injective c.bytes := by
    intro t t' h
    funext r
    have hdec : ∀ t'' : Fin c.g → Fin c.bound, c.bytes t'' = c.bytes t →
        c.dec (fun j => (c.enc (c.values t)).getD j 0 % 256) r = t'' r := fun t'' h =>
      c.dec_bytes t'' (fun j => by rw [h]; rfl) r
    exact Fin.ext ((hdec t rfl).symm.trans (hdec t' h.symm))
  have hsurj : Function.Surjective c.bytes :=
    ((Fintype.bijective_iff_injective_and_card c.bytes).mpr ⟨hinj, by simpa using hcard⟩).2
  have hall : ∀ b : ℕ → ℕ, (∀ j < c.m, b j < 256) → ∃ t, ∀ j : Fin c.m, b j = c.bytes t j := by
    intro b hb
    obtain ⟨t, ht⟩ := hsurj fun j => ⟨b j, hb j j.isLt⟩
    exact ⟨t, fun j => by rw [ht]⟩
  constructor
  · intro b hb r hr
    obtain ⟨t, ht⟩ := hall b hb
    rw [c.dec_bytes t ht ⟨r, hr⟩]
    exact (t _).isLt
  · intro b t hb hdec j hj
    obtain ⟨t', ht'⟩ := hall b hb
    rw [hcongr t (c.values t') fun r hr => ?_]
    · exact (ht' ⟨j, hj⟩).symm
    · rw [hdec r hr, c.dec_bytes t' ht' ⟨r, hr⟩, Codec.values, dif_pos hr]

section

variable (c : Codec)

/-- The bytes of `n` groups of values. -/
def pack (n : ℕ) (t : ℕ → ℕ) : Bytes :=
  (List.range n).flatMap fun i => (c.enc fun j => t (c.g * i + j)).map UInt8.ofNat

/-- The value `i` of a buffer. -/
def unpack (b : Bytes) (i : ℕ) : ℕ := c.dec (fun j => byteAt b (c.m * (i / c.g) + j)) (i % c.g)

variable {c} {n : ℕ} {t : ℕ → ℕ}

@[simp] theorem length_pack : (pack c n t).length = c.m * n :=
  length_flatMap_range fun i _ => by simp [c.length_enc]

theorem byteAt_pack {i j : ℕ} (hi : i < n) (hj : j < c.m) :
    byteAt (pack c n t) (c.m * i + j) = (c.enc fun j => t (c.g * i + j)).getD j 0 % 256 := by
  rw [pack, byteAt_flatMap_range (fun i _ => by simp [c.length_enc]) hi hj, byteAt_map_ofNat]

/-- **Round trip**: the values read back, whatever follows them in the buffer. -/
theorem unpack_pack (ht : ∀ i < c.g * n, t i < c.bound) (rest : Bytes) {i : ℕ} (hi : i < c.g * n) :
    unpack c (pack c n t ++ rest) i = t i := by
  have hg : 0 < c.g := Nat.pos_of_ne_zero (by rintro h; simp [h] at hi)
  have hdiv : i / c.g < n := Nat.div_lt_of_lt_mul hi
  have hgroup : ∀ j < c.g, c.g * (i / c.g) + j < c.g * n := by
    intro j hj
    have hle := Nat.mul_le_mul_left c.g hdiv
    rw [Nat.mul_succ] at hle
    omega
  have hbyte : ∀ j < c.m, byteAt (pack c n t ++ rest) (c.m * (i / c.g) + j) =
      (c.enc fun j => t (c.g * (i / c.g) + j)).getD j 0 % 256 := by
    intro j hj
    have hle := Nat.mul_le_mul_left c.m hdiv
    rw [Nat.mul_succ] at hle
    rw [byteAt_append_left rest (by rw [length_pack]; omega), byteAt_pack hdiv hj]
  rw [unpack, c.dec_enc _ _ (fun j hj => ht _ (hgroup j hj)) hbyte _ (Nat.mod_lt _ hg), Nat.div_add_mod]

/-- A tight codec writes the bytes it read. -/
theorem pack_unpack (hc : c.Tight) {b : Bytes} (hb : c.m * n ≤ b.length)
    (ht : ∀ i < c.g * n, t i = unpack c b i) : pack c n t = b.take (c.m * n) := by
  apply eq_of_byteAt (by rw [length_pack, List.length_take_of_le hb])
  intro i hi
  rw [length_pack] at hi
  have hm : 0 < c.m := Nat.pos_of_ne_zero (by rintro h; simp [h] at hi)
  have hdiv : i / c.m < n := Nat.div_lt_of_lt_mul hi
  rw [byteAt_take b hi, ← Nat.div_add_mod i c.m, byteAt_pack hdiv (Nat.mod_lt _ hm)]
  refine hc.enc_dec (fun j => byteAt b (c.m * (i / c.m) + j)) _ (fun j _ => byteAt_lt _ _) ?_ _ (Nat.mod_lt _ hm)
  intro r hr
  have hle := Nat.mul_le_mul_left c.g hdiv
  rw [Nat.mul_succ] at hle
  rw [ht _ (by omega), unpack, Nat.mul_add_div (by omega), Nat.div_eq_of_lt hr, Nat.add_zero,
    Nat.mul_add_mod, Nat.mod_eq_of_lt hr]

theorem unpack_lt (hc : c.Tight) (hg : 0 < c.g) (b : Bytes) (i : ℕ) : unpack c b i < c.bound :=
  hc.dec_lt _ (fun _ _ => byteAt_lt _ _) _ (Nat.mod_lt _ hg)

end

end BitPack
