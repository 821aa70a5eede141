import Mathlib.Algebra.BigOperators.Fin
import Mathlib.Data.List.Chain
import Mathlib.Data.List.Sort
import Tlcp.Lib.BitPack
import Tlcp.Lib.Butterfly

/-!
# Hints

Rows of zeros and ones with few ones are stored as the positions of the ones,
row after row, filled up with zeros to `ω` bytes, and behind them for each row
how many positions are stored up to its end.  The reader takes a row for good
when its positions ascend, and refuses padding other than zeros, so that it
accepts nothing but what the writer writes: `unpackHints_pack` and
`packHints_unpack` are the two directions.
-/

namespace Hints

open Octets Butterfly BitPack

variable {α : Type*} [Zero α] {n : ℕ}

/-! ## the writer -/

section

variable (set : α → Bool)

/-- The positions at which a row is set. -/
def ones (h : Fin n → α) : List ℕ := (List.range n).filter fun j => set (cell h j)

/-- The positions and the counts of the first `i` rows. -/
def packRows (h : ℕ → Fin n → α) : ℕ → List ℕ × List ℕ
  | 0 => ([], [])
  | i + 1 =>
    let pos := (packRows h i).1 ++ ones set (h i)
    (pos, (packRows h i).2 ++ [pos.length])

/-- The bytes of `k` rows with at most `ω` ones. -/
def packHints (ω : ℕ) {k : ℕ} (h : Fin k → Fin n → α) : Bytes :=
  let (pos, counts) := packRows set (cell h) k
  (pos ++ List.replicate (ω - pos.length) 0 ++ counts).map UInt8.ofNat

/-- The ones of a vector of rows. -/
def weight {k : ℕ} (h : Fin k → Fin n → α) : ℕ := (packRows set (cell h) k).1.length

end

variable {set : α → Bool}

/-- The positions of a row ascend. -/
theorem ones_pairwise (h : Fin n → α) : (ones set h).Pairwise (· < ·) :=
  List.pairwise_lt_range.filter _

theorem mem_ones {h : Fin n → α} {j : ℕ} : j ∈ ones set h ↔ j < n ∧ set (cell h j) = true := by
  simp [ones]

/-- The positions of the first rows come first. -/
theorem packRows_initial (set : α → Bool) (h : ℕ → Fin n → α) {i m : ℕ} (hi : i ≤ m) :
    (packRows set h i).1 <+: (packRows set h m).1 := by
  induction m, hi using Nat.le_induction with
  | base => exact List.prefix_rfl
  | succ m _ ih => exact ih.trans (List.prefix_append _ _)

theorem packRows_counts (h : ℕ → Fin n → α) (i : ℕ) :
    (packRows set h i).2 = (List.range i).map fun j => (packRows set h (j + 1)).1.length := by
  induction i with
  | zero => rfl
  | succ i ih => rw [packRows, ih, List.range_succ, List.map_append, List.map_singleton, packRows]

theorem packRows_lt (h : ℕ → Fin n → α) (i : ℕ) : ∀ j ∈ (packRows set h i).1, j < n := by
  induction i with
  | zero => simp [packRows]
  | succ i ih =>
    intro j hj
    rcases List.mem_append.mp hj with hj | hj
    · exact ih j hj
    · exact (mem_ones.mp hj).1

/-- As many positions as there are entries set. -/
theorem length_ones (h : Fin n → α) : (ones set h).length = ∑ j, if set (h j) then 1 else 0 := by
  have hrange : ∀ m, ((List.range m).filter fun j => set (cell h j)).length =
      ∑ j ∈ Finset.range m, if set (cell h j) then 1 else 0 := by
    intro m
    induction m with
    | zero => rfl
    | succ m ih =>
      rw [List.range_succ, List.filter_append, List.length_append, ih, Finset.sum_range_succ]
      by_cases hm : set (cell h m) <;> simp [hm]
  rw [ones, hrange, Finset.sum_range]
  simp

/-- The weight is the number of entries set. -/
theorem weight_eq_sum {k : ℕ} (h : Fin k → Fin n → α) :
    weight set h = ∑ i, ∑ j, if set (h i j) then 1 else 0 := by
  have hrange : ∀ m, (packRows set (cell h) m).1.length =
      ∑ i ∈ Finset.range m, (ones set (cell h i)).length := by
    intro m
    induction m with
    | zero => rfl
    | succ m ih => rw [packRows, List.length_append, ih, Finset.sum_range_succ]
  rw [weight, hrange, Finset.sum_range]
  simp [length_ones]

/-! ## the reader -/

variable [One α]

/-- A row from the positions `k` up to `cnt`; out of order is an error. -/
def unpackRow (b : ℕ → ℕ) (k cnt : ℕ) : Option (Fin n → α) := (List.range' k (cnt - k)).foldlM
    (fun h j => if k < j ∧ b j ≤ b (j - 1) then none else some (put h (b j) 1)) (fun _ => 0)

/-- The first `i` rows, with the count they end at. -/
def unpackRows (ω : ℕ) (b : ℕ → ℕ) : ℕ → Option (ℕ × List (Fin n → α))
  | 0 => some (0, [])
  | i + 1 => do
    let (k, rows) ← unpackRows ω b i
    let cnt := b (ω + i)
    if cnt < k ∨ ω < cnt then none
    else do
      let row ← unpackRow b k cnt
      some (cnt, rows ++ [row])

/-- `k` rows; positions left over are zero. -/
def unpackHints (ω k : ℕ) (b : ℕ → ℕ) : Option (Fin k → Fin n → α) := do
  let (cnt, rows) ← unpackRows ω b k
  if (List.range' cnt (ω - cnt)).any (fun j => b j != 0) then none
  else some fun i => rows.getD i 0

/-! ## rows -/

/-- The row with ones at the positions of a list. -/
def ofOnes (l : List ℕ) : Fin n → α := fun i => if i.val ∈ l then 1 else 0

theorem put_ofOnes (l : List ℕ) (x : ℕ) : put (ofOnes l : Fin n → α) x 1 = ofOnes (l ++ [x]) := by
  funext i
  simp only [put, ofOnes, List.mem_append, List.mem_singleton]
  by_cases h : i.val = x <;> simp [h]

theorem ofOnes_nil : (ofOnes [] : Fin n → α) = fun _ => 0 := by
  funext i
  simp [ofOnes]

/-- The comparison with the position before, which the first one does not have. -/
theorem ascends_iff (b : ℕ → ℕ) (k m : ℕ) :
    (∀ x ∈ ((List.range' k m).map b).getLast?, x < b (k + m)) ↔
      ¬ (k < k + m ∧ b (k + m) ≤ b (k + m - 1)) := by
  cases m with
  | zero => simp
  | succ m =>
    rw [List.range'_concat, List.map_append, List.map_singleton, List.getLast?_concat, Nat.one_mul,
      ← Nat.add_assoc, Nat.add_sub_cancel]
    simp only [Option.mem_some_iff, forall_eq']
    omega

/-- A row is read when its positions ascend. -/
theorem unpackRow_eq (b : ℕ → ℕ) (k m : ℕ) : (unpackRow b k (k + m) : Option (Fin n → α)) =
      if ((List.range' k m).map b).IsChain (· < ·) then some (ofOnes ((List.range' k m).map b))
      else none := by
  rw [unpackRow, Nat.add_sub_cancel_left]
  induction m with
  | zero => simp [ofOnes_nil]
  | succ m ih =>
    rw [List.range'_concat, List.foldlM_append, ih, Nat.one_mul, List.map_append,
      List.map_singleton, ← put_ofOnes]
    have hchain : ((List.range' k m).map b ++ [b (k + m)]).IsChain (· < ·) ↔
        ((List.range' k m).map b).IsChain (· < ·) ∧ ¬ (k < k + m ∧ b (k + m) ≤ b (k + m - 1)) := by
      rw [List.isChain_append, ← ascends_iff]
      simp
    rw [if_congr hchain rfl rfl]
    by_cases hl : ((List.range' k m).map b).IsChain (· < ·)
    · by_cases hx : k < k + m ∧ b (k + m) ≤ b (k + m - 1)
      · simp [hl, hx]
      · rw [if_pos hl, if_pos ⟨hl, hx⟩]
        simp only [Option.bind_eq_bind, Option.bind_some, List.foldlM_cons, List.foldlM_nil,
          if_neg hx]
        rfl
    · simp [hl]

/-- The test tells one from zero. -/
structure Tells (set : α → Bool) : Prop where
  zero : set 0 = false
  one : set 1 = true

/-- An ascending list of positions is that of its row. -/
theorem ones_ofOnes (hset : Tells set) {l : List ℕ} (hl : l.Pairwise (· < ·)) (hlt : ∀ j ∈ l, j < n) :
    ones set (ofOnes l : Fin n → α) = l := by
  have hmem : ∀ j, j ∈ ones set (ofOnes l : Fin n → α) ↔ j ∈ l := by
    intro j
    rw [mem_ones]
    constructor
    · rintro ⟨hj, hone⟩
      rw [cell_of_lt _ hj, ofOnes] at hone
      by_contra hnot
      rw [if_neg hnot, hset.zero] at hone
      contradiction
    · intro hj
      refine ⟨hlt j hj, ?_⟩
      rw [cell_of_lt _ (hlt j hj), ofOnes, if_pos hj, hset.one]
  have hperm : (ones set (ofOnes l : Fin n → α)).Perm l :=
    (List.perm_ext_iff_of_nodup (ones_pairwise _).nodup hl.nodup).mpr hmem
  exact hperm.eq_of_pairwise' (ones_pairwise _) hl

/-- A row of zeros and ones is that of its positions. -/
theorem ofOnes_ones (hset : Tells set) {h : Fin n → α} (hh : ∀ i, h i = 0 ∨ h i = 1) :
    ofOnes (ones set h) = h := by
  funext i
  simp only [ofOnes, mem_ones, cell_val, i.isLt, true_and]
  rcases hh i with h0 | h1
  · simp [h0, hset.zero]
  · simp [h1, hset.one]

/-! ## the rows of a buffer -/

section

variable {ω : ℕ} {b : ℕ → ℕ} {h : ℕ → Fin n → α}

theorem range'_map_append (b : ℕ → ℕ) {k m : ℕ} (hle : k ≤ m) :
    (List.range k).map b ++ (List.range' k (m - k)).map b = (List.range m).map b := by
  obtain ⟨d, rfl⟩ := Nat.exists_eq_add_of_le hle
  rw [Nat.add_sub_cancel_left, List.range_add, List.map_append, List.range'_eq_map_range]

/-- What the rows read so far pack to: the positions and the counts of the
buffer they were read from. -/
theorem unpackRows_sound (hset : Tells set) (hb : ∀ j, b j < n) {i k : ℕ} {rows : List (Fin n → α)}
    (hrows : unpackRows ω b i = some (k, rows)) :
    k ≤ ω ∧ rows.length = i ∧ ∀ h : ℕ → Fin n → α, (∀ j < i, h j = rows.getD j 0) →
      packRows set h i = ((List.range k).map b, (List.range i).map fun j => b (ω + j)) := by
  induction i generalizing k rows with
  | zero =>
    obtain ⟨rfl, rfl⟩ : 0 = k ∧ [] = rows := by simpa [unpackRows] using hrows
    exact ⟨Nat.zero_le _, rfl, fun _ _ => rfl⟩
  | succ i ih =>
    simp only [unpackRows, Option.bind_eq_bind, Option.bind_eq_some_iff] at hrows
    obtain ⟨⟨k₀, rows₀⟩, hprev, hrows⟩ := hrows
    obtain ⟨hk₀, hlen, hpack⟩ := ih hprev
    split at hrows
    · contradiction
    · next hcnt =>
      obtain ⟨row, hrow, hout⟩ := Option.bind_eq_some_iff.mp hrows
      obtain ⟨rfl, rfl⟩ : b (ω + i) = k ∧ rows₀ ++ [row] = rows := by simpa using hout
      have hle : k₀ ≤ b (ω + i) := by omega
      rw [show b (ω + i) = k₀ + (b (ω + i) - k₀) by omega, unpackRow_eq] at hrow
      split at hrow
      · next hchain =>
        have hones : ones set row = (List.range' k₀ (b (ω + i) - k₀)).map b := by
          rw [← Option.some.inj hrow]
          refine ones_ofOnes hset hchain.pairwise fun x hx => ?_
          obtain ⟨j, -, rfl⟩ := List.mem_map.mp hx
          exact hb j
        refine ⟨by omega, by simp [hlen], fun h hh => ?_⟩
        have hlast : h i = row := by rw [hh i (by omega)]; simp [← hlen]
        have hinit : ∀ j < i, h j = rows₀.getD j 0 := by
          intro j hj
          rw [hh j (by omega), List.getD_append _ _ _ _ (by omega)]
        simp only [packRows, hpack h hinit, hlast, hones, range'_map_append b hle]
        simp [List.range_succ]
      · contradiction

/-- **Only one encoding**: a buffer that is accepted is what its rows pack to. -/
theorem packHints_unpack (hset : Tells set) (hb : ∀ j, b j < n) {k : ℕ} {h : Fin k → Fin n → α}
    (hh : unpackHints ω k b = some h) :
    packHints set ω h = (List.range (ω + k)).map fun j => UInt8.ofNat (b j) := by
  simp only [unpackHints, Option.bind_eq_bind, Option.bind_eq_some_iff] at hh
  obtain ⟨⟨cnt, rows⟩, hrows, hh⟩ := hh
  obtain ⟨hcnt, hlen, hpack⟩ := unpackRows_sound hset hb hrows
  split at hh
  · contradiction
  · next hpad =>
    have hrow : ∀ j < k, cell h j = rows.getD j 0 := by
      intro j hj
      rw [cell_of_lt _ hj, ← Option.some.inj hh]
    have hzero : ∀ j, cnt ≤ j → j < ω → b j = 0 := by
      intro j hj hjo
      simp only [List.any_eq_true, List.mem_range'_1, bne_iff_ne, ne_eq, not_exists, not_and,
        not_not] at hpad
      exact hpad j ⟨hj, by omega⟩
    have hfill : (List.range cnt).map b ++ List.replicate (ω - cnt) 0 = (List.range ω).map b := by
      rw [← range'_map_append b hcnt]
      congr 1
      symm
      rw [List.eq_replicate_iff]
      refine ⟨by simp, ?_⟩
      simp only [List.mem_map, List.mem_range'_1, forall_exists_index, and_imp]
      rintro x j hj hjo rfl
      exact hzero j hj (by omega)
    simp only [packHints, hpack _ hrow, List.length_map, List.length_range, hfill]
    rw [List.range_add, List.map_append, List.map_append, List.map_map, List.map_map, List.map_map]
    rfl

/-- A slice of a buffer that starts with `x ++ y` is `y`. -/
theorem slice_eq {x y z : List ℕ} (hxy : x ++ y <+: z) (hb : ∀ j < z.length, b j = z.getD j 0) :
    (List.range' x.length y.length).map b = y := by
  obtain ⟨t, rfl⟩ := hxy
  apply List.ext_getElem (by simp)
  intro j hj hy
  simp only [List.getElem_map, List.getElem_range', Nat.one_mul]
  rw [hb _ (by simp; omega), List.append_assoc, List.getD_append_right _ _ _ _ (by omega),
    Nat.add_sub_cancel_left, List.getD_append _ _ _ _ hy, List.getD_eq_getElem _ _ hy]

/-- Rows of zeros and ones read back from the positions and counts they pack to. -/
theorem unpackRows_pack (hset : Tells set) {m : ℕ} (h01 : ∀ i < m, ∀ j, h i j = 0 ∨ h i j = 1)
    (hω : (packRows set h m).1.length ≤ ω)
    (hpos : ∀ j < (packRows set h m).1.length, b j = (packRows set h m).1.getD j 0)
    (hcnt : ∀ i < m, b (ω + i) = (packRows set h (i + 1)).1.length) {i : ℕ} (hi : i ≤ m) :
    unpackRows ω b i = some ((packRows set h i).1.length, (List.range i).map h) := by
  induction i with
  | zero => rfl
  | succ i ih =>
    have hpre := packRows_initial set h hi
    have hnext : (packRows set h (i + 1)).1.length =
        (packRows set h i).1.length + (ones set (h i)).length := by
      simp [packRows]
    have hrow : unpackRow b (packRows set h i).1.length (packRows set h (i + 1)).1.length =
        some (h i) := by
      rw [hnext, unpackRow_eq, slice_eq hpre hpos, if_pos (ones_pairwise _).isChain,
        ofOnes_ones hset (h01 i hi)]
    have hlen := hpre.length_le
    simp only [unpackRows, ih (by omega), Option.bind_eq_bind, Option.bind_some, hcnt i hi, hrow]
    rw [if_neg (by omega), List.range_succ, List.map_append, List.map_singleton]

end

/-! ## whole vectors -/

section

variable {ω k : ℕ} {h : Fin k → Fin n → α}

omit [One α] in
theorem length_packHints (hω : weight set h ≤ ω) : (packHints set ω h).length = ω + k := by
  have hcounts : (packRows set (cell h) k).2.length = k := by simp [packRows_counts]
  simp only [weight] at hω
  simp only [packHints, List.length_map, List.length_append, List.length_replicate, hcounts]
  omega

omit [One α] in
theorem byteAt_packHints (hω : weight set h ≤ ω) (rest : Bytes) {j : ℕ} (hj : j < ω + k) :
    byteAt (packHints set ω h ++ rest) j = ((packRows set (cell h) k).1 ++
      List.replicate (ω - weight set h) 0 ++ (packRows set (cell h) k).2).getD j 0 % 256 := by
  rw [byteAt_append_left _ (by rw [length_packHints hω]; exact hj), packHints, byteAt_map_ofNat]
  rfl

/-- **Round trip**: what follows the rows in the buffer does not matter. -/
theorem unpackHints_pack (hset : Tells set) (hn : n ≤ 256) (hω256 : ω < 256)
    (h01 : ∀ i j, h i j = 0 ∨ h i j = 1) (hω : weight set h ≤ ω) (rest : Bytes) :
    unpackHints ω k (byteAt (packHints set ω h ++ rest)) = some h := by
  have hpad : ((packRows set (cell h) k).1 ++ List.replicate (ω - weight set h) 0).length = ω := by
    simp only [weight] at hω ⊢
    simp [Nat.add_sub_cancel' hω]
  have hlow : ∀ j < ω, byteAt (packHints set ω h ++ rest) j =
      (packRows set (cell h) k).1.getD j 0 := by
    intro j hj
    rw [byteAt_packHints hω rest (by omega), List.getD_append _ _ _ _ (by omega)]
    by_cases hlt : j < (packRows set (cell h) k).1.length
    · rw [List.getD_append _ _ _ _ hlt, List.getD_eq_getElem _ _ hlt,
        Nat.mod_eq_of_lt (lt_of_lt_of_le (packRows_lt _ _ _ (List.getElem_mem hlt)) hn)]
    · rw [List.getD_append_right _ _ _ _ (by omega),
        List.getD_eq_default (packRows set _ _).1 _ (by omega), List.getD_eq_getElem?_getD,
        List.getElem?_getD_replicate_default_eq]
  have hhigh : ∀ i < k, byteAt (packHints set ω h ++ rest) (ω + i) =
      (packRows set (cell h) (i + 1)).1.length := by
    intro i hi
    have hle := (packRows_initial set (cell h) (show i + 1 ≤ k from hi)).length_le
    rw [byteAt_packHints hω rest (by omega), List.getD_append_right _ _ _ _ (by omega), hpad,
      Nat.add_sub_cancel_left, packRows_counts, List.getD_eq_getElem _ _ (by simpa using hi),
      List.getElem_map, List.getElem_range]
    simp only [weight] at hω
    exact Nat.mod_eq_of_lt (by omega)
  have hcell : ∀ i < k, ∀ j, cell h i j = 0 ∨ cell h i j = 1 := by
    intro i hi j
    rw [cell_of_lt _ hi]
    exact h01 _ j
  have hrows := unpackRows_pack hset hcell hω (fun j hj => hlow j (by rw [weight] at hω; omega)) hhigh
    le_rfl
  simp only [unpackHints, hrows, Option.bind_eq_bind, Option.bind_some]
  rw [if_neg]
  · congr 1
    funext i
    simp [List.getD_eq_getElem?_getD]
  · simp only [List.any_eq_true, List.mem_range'_1, bne_iff_ne, not_exists, not_and, not_not]
    intro j hj
    rw [hlow j (by omega), List.getD_eq_default _ _ hj.1]

end

end Hints
