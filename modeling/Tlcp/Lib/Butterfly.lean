import Mathlib.Algebra.GroupWithZero.Nat
import Mathlib.Order.Nat
import Mathlib.Tactic.Common

/-!
# Butterfly

The in-place transforms of signal processing run over an array in passes.  A
pass of distance `len` cuts the array into blocks of `2 * len` cells and
replaces the cells `j` and `j + len` of a block by the two values of a
butterfly that may depend on the block.  The loops write into the array they
read from; `pass_apply` gives their effect cell by cell, and with it passes
compose (`pass_pass`) and keep a relation between two arrays (`passes_rel`).
-/

namespace Butterfly

variable {α β : Type*} [Zero α] [Zero β] {n : ℕ}
variable {len i k : ℕ}

/-! ## cells of an array -/

/-- The cell `i`; there is nothing but zero outside the array. -/
def cell (a : Fin n → α) (i : ℕ) : α := if h : i < n then a ⟨i, h⟩ else 0

/-- The array with the cell `i` overwritten. -/
def put (a : Fin n → α) (i : ℕ) (x : α) : Fin n → α := fun j => if j.val = i then x else a j

@[simp] theorem cell_val (a : Fin n → α) (i : Fin n) : cell a i = a i := by simp [cell]

theorem cell_of_lt (a : Fin n → α) (h : i < n) : cell a i = a ⟨i, h⟩ := by simp [cell, h]

theorem cell_put (a : Fin n → α) {j : ℕ} (x : α) (hj : j < n) :
    cell (put a i x) j = if j = i then x else cell a j := by
  simp [cell, put, hj]

/-! ## the loops -/

/-- One butterfly on the cells `j` and `j + len`. -/
def step (bf : α → α → α × α) (len : ℕ) (a : Fin n → α) (j : ℕ) : Fin n → α :=
  let r := bf (cell a j) (cell a (j + len))
  put (put a (j + len) r.2) j r.1

/-- The butterflies of the block at `start`. -/
def block (bf : α → α → α × α) (len start : ℕ) (a : Fin n → α) : Fin n → α :=
  (List.range' start len).foldl (step bf len) a

variable (bf : ℕ → α → α → α × α)

/-- The blocks one after the other, the butterfly of each under the next
index from `k` on. -/
def pass (len k : ℕ) (a : Fin n → α) : Fin n → α :=
  (List.range (n / (2 * len))).foldl (fun a b => block (bf (k + b)) len (2 * len * b) a) a

/-- The passes of a list of distances, the index running on from one pass to
the next. -/
def passes (bf : ℕ → ℕ → α → α → α × α) : List ℕ → ℕ → (Fin n → α) → Fin n → α
  | [], _, a => a
  | len :: lens, k, a => passes bf lens (k + n / (2 * len)) (pass (bf len) len k a)

/-- How many blocks the passes run over. -/
def span (n : ℕ) (lens : List ℕ) : ℕ := (lens.map fun len => n / (2 * len)).sum

theorem passes_append (bf : ℕ → ℕ → α → α → α × α) (l₁ l₂ : List ℕ) (k : ℕ) (a : Fin n → α) :
    passes bf (l₁ ++ l₂) k a = passes bf l₂ (k + span n l₁) (passes bf l₁ k a) := by
  induction l₁ generalizing k a with
  | nil => rfl
  | cons len lens ih => simp only [List.cons_append, passes, ih, span, List.map_cons, List.sum_cons, Nat.add_assoc]

/-! ## what a pass does to a cell -/

/-- The effect of a butterfly on the cell `i`, given the cells before it. -/
def after (len k : ℕ) (f : ℕ → α) (i : ℕ) : α :=
  if i % (2 * len) < len then (bf (k + i / (2 * len)) (f i) (f (i + len))).1
  else (bf (k + i / (2 * len)) (f (i - len)) (f i)).2

theorem cell_step (bf : α → α → α × α) {j : ℕ} (a : Fin n → α) (hi : i < n) :
    cell (step bf len a j) i = if i = j then (bf (cell a j) (cell a (j + len))).1
      else if i = j + len then (bf (cell a j) (cell a (j + len))).2 else cell a i := by
  simp only [step, cell_put _ _ hi]

/-- After the first `m` butterflies of a block, `2 * m` of its cells are done. -/
theorem cell_steps (bf : α → α → α × α) {start m : ℕ} (a : Fin n → α) (hm : m ≤ len)
    (hend : start + 2 * len ≤ n) (hi : i < n) :
    cell ((List.range' start m).foldl (step bf len) a) i =
      if start ≤ i ∧ i < start + m then (bf (cell a i) (cell a (i + len))).1
      else if start + len ≤ i ∧ i < start + len + m then (bf (cell a (i - len)) (cell a i)).2
      else cell a i := by
  induction m generalizing i with
  | zero => rw [if_neg (by omega), if_neg (by omega)]; rfl
  | succ m ih =>
    have hlo : cell ((List.range' start m).foldl (step bf len) a) (start + m) = cell a (start + m) := by
      rw [ih (by omega) (by omega), if_neg (by omega), if_neg (by omega)]
    have hhi : cell ((List.range' start m).foldl (step bf len) a) (start + m + len) =
        cell a (start + m + len) := by
      rw [ih (by omega) (by omega), if_neg (by omega), if_neg (by omega)]
    rw [List.range'_concat, List.foldl_append, Nat.one_mul, List.foldl_cons, List.foldl_nil,
      cell_step bf _ hi, hlo, hhi]
    by_cases h₁ : i = start + m
    · subst h₁
      rw [if_pos rfl, if_pos (by omega)]
    by_cases h₂ : i = start + m + len
    · subst h₂
      rw [if_neg h₁, if_pos rfl, if_neg (by omega), if_pos (by omega), Nat.add_sub_cancel]
    · rw [if_neg h₁, if_neg h₂, ih (by omega) hi]
      congr 1
      · simp only [eq_iff_iff]; omega
      · congr 1
        simp only [eq_iff_iff]; omega

theorem cell_block {b : ℕ} (a : Fin n → α) (hlen : 0 < len)
    (hend : 2 * len * (b + 1) ≤ n) (hi : i < n) :
    cell (block (bf (k + b)) len (2 * len * b) a) i =
      if i / (2 * len) = b then after bf len k (cell a) i else cell a i := by
  have hsplit := Nat.div_add_mod i (2 * len)
  have hmod := Nat.mod_lt i (show 0 < 2 * len by omega)
  rw [block, cell_steps _ _ le_rfl (by rw [Nat.mul_succ] at hend; omega) hi]
  by_cases hb : i / (2 * len) = b
  · rw [if_pos hb, after, hb]
    rw [hb] at hsplit
    by_cases hlo : i % (2 * len) < len
    · rw [if_pos hlo, if_pos (by omega)]
    · rw [if_neg hlo, if_neg (by omega), if_pos (by omega)]
  · have hout : ¬ (2 * len * b ≤ i ∧ i < 2 * len * b + 2 * len) := by
      rw [← Nat.mul_succ]
      rintro ⟨hle, hlt⟩
      exact hb (Nat.div_eq_of_lt_le (by rwa [Nat.mul_comm]) (by rwa [Nat.mul_comm]))
    rw [if_neg hb, if_neg (by omega), if_neg (by omega)]

/-- The other cell of a butterfly, from its lower cell. -/
theorem upper_of_lower (h : i % (2 * len) < len) :
    (i + len) / (2 * len) = i / (2 * len) ∧ (i + len) % (2 * len) = i % (2 * len) + len := by
  have hsplit := Nat.div_add_mod i (2 * len)
  exact (Nat.div_mod_unique (by omega)).mpr (by omega)

/-- The other cell of a butterfly, from its upper cell. -/
theorem lower_of_upper (hlen : 0 < len) (h : ¬ i % (2 * len) < len) :
    (i - len) / (2 * len) = i / (2 * len) ∧ (i - len) % (2 * len) = i % (2 * len) - len := by
  have hsplit := Nat.div_add_mod i (2 * len)
  have hmod := Nat.mod_lt i (show 0 < 2 * len by omega)
  exact (Nat.div_mod_unique (by omega)).mpr (by omega)

theorem le_of_upper (h : ¬ i % (2 * len) < len) : len ≤ i := le_trans (not_lt.mp h) (Nat.mod_le i _)

/-- The cells that the butterfly of the cell `i` reads are in the array. -/
theorem partner_lt (hn : 2 * len ∣ n) (hi : i < n) (hlo : i % (2 * len) < len) : i + len < n := by
  obtain ⟨m, rfl⟩ := hn
  have hsplit := Nat.div_add_mod i (2 * len)
  have hdiv : i / (2 * len) < m := Nat.div_lt_of_lt_mul hi
  have hle : 2 * len * (i / (2 * len) + 1) ≤ 2 * len * m := Nat.mul_le_mul_left _ hdiv
  rw [Nat.mul_succ] at hle
  omega

/-- **One pass**: every cell becomes its side of the butterfly of its block. -/
theorem cell_pass (a : Fin n → α) (hlen : 0 < len)
    (hn : 2 * len ∣ n) (hi : i < n) : cell (pass bf len k a) i = after bf len k (cell a) i := by
  -- the first `m` blocks are done and the others are as they were
  have key : ∀ m, 2 * len * m ≤ n → ∀ i < n,
      cell ((List.range m).foldl (fun a b => block (bf (k + b)) len (2 * len * b) a) a) i =
        if i / (2 * len) < m then after bf len k (cell a) i else cell a i := by
    intro m
    induction m with
    | zero => intro _ i _; simp
    | succ m ih =>
      intro hm i hi
      have hm' : 2 * len * m ≤ n := le_trans (Nat.mul_le_mul_left _ m.le_succ) hm
      rw [List.range_succ, List.foldl_append, List.foldl_cons, List.foldl_nil,
        cell_block bf _ hlen hm hi]
      by_cases hb : i / (2 * len) = m
      · rw [if_pos hb, if_pos (by omega)]
        -- the block `m` reads only itself, which no earlier block has written
        have hself : ∀ j < n, j / (2 * len) = m →
            cell ((List.range m).foldl (fun a b => block (bf (k + b)) len (2 * len * b) a) a) j =
              cell a j := by
          intro j hj hjm
          rw [ih hm' j hj, if_neg (by omega)]
        unfold after
        split
        · next hlo =>
          rw [hself i hi hb, hself _ (partner_lt hn hi hlo) ((upper_of_lower hlo).1.trans hb)]
        · next hhi =>
          rw [hself i hi hb, hself _ (by omega) ((lower_of_upper hlen hhi).1.trans hb)]
      · rw [if_neg hb, ih hm' i hi]
        congr 1
        simp only [eq_iff_iff]
        omega
  have hdiv : i / (2 * len) < n / (2 * len) := Nat.div_lt_div_of_lt_of_dvd hn hi
  rw [pass, key _ (Nat.mul_div_le n (2 * len)) i hi, if_pos hdiv]

theorem pass_apply (a : Fin n → α) (hlen : 0 < len)
    (hn : 2 * len ∣ n) (i : Fin n) : pass bf len k a i = after bf len k (cell a) i := by
  rw [← cell_val (pass bf len k a) i, cell_pass bf a hlen hn i.isLt]

/-- The pass at the cell `t` of the half block `h`: the butterfly of the cells
`t` of the two halves of its block. -/
theorem cell_pass_half {h t : ℕ} (a : Fin n → α) (hn : 2 * len ∣ n)
    (ht : t < len) (hi : len * h + t < n) :
    cell (pass bf len k a) (len * h + t) =
      let r := bf (k + h / 2) (cell a (2 * len * (h / 2) + t)) (cell a (2 * len * (h / 2) + len + t))
      if h % 2 = 0 then r.1 else r.2 := by
  have hh : len * h = 2 * len * (h / 2) + len * (h % 2) := by
    rw [Nat.mul_comm 2, Nat.mul_assoc, ← Nat.mul_add, Nat.div_add_mod]
  rw [cell_pass bf a (by omega) hn hi]
  by_cases hpar : h % 2 = 0
  · rw [hpar, Nat.mul_zero, Nat.add_zero] at hh
    obtain ⟨hdiv, hmod⟩ := (Nat.div_mod_unique (show 0 < 2 * len by omega)).mpr
      (show t + 2 * len * (h / 2) = len * h + t ∧ t < 2 * len by omega)
    rw [after, hdiv, hmod, if_pos ht, hh, Nat.add_right_comm]
    simp only [if_pos hpar]
  · rw [show h % 2 = 1 by omega, Nat.mul_one] at hh
    obtain ⟨hdiv, hmod⟩ := (Nat.div_mod_unique (show 0 < 2 * len by omega)).mpr
      (show len + t + 2 * len * (h / 2) = len * h + t ∧ len + t < 2 * len by omega)
    have hlo : len * h + t - len = 2 * len * (h / 2) + t := by omega
    rw [after, hdiv, hmod, if_neg (by omega), hlo, hh]
    simp only [if_neg hpar]

/-! ## passes over related arrays -/

/-- A pass takes related arrays to related arrays when the butterflies of its
blocks do. -/
theorem pass_rel {bf : ℕ → α → α → α × α} {bg : ℕ → β → β → β × β}
    {R S : α → β → Prop} {a : Fin n → α} {b : Fin n → β} (hlen : 0 < len) (hn : 2 * len ∣ n)
    (hstep : ∀ j, k ≤ j → j < k + n / (2 * len) → ∀ x y u v, R x u → R y v →
      S (bf j x y).1 (bg j u v).1 ∧ S (bf j x y).2 (bg j u v).2)
    (hab : ∀ i, R (a i) (b i)) (i : Fin n) : S (pass bf len k a i) (pass bg len k b i) := by
  have hcell : ∀ j < n, R (cell a j) (cell b j) := by
    intro j hj
    rw [cell_of_lt a hj, cell_of_lt b hj]
    exact hab _
  have hblock : k + i.val / (2 * len) < k + n / (2 * len) :=
    Nat.add_lt_add_left (Nat.div_lt_div_of_lt_of_dvd hn i.isLt) k
  rw [pass_apply bf a hlen hn, pass_apply bg b hlen hn]
  unfold after
  split
  · next hlo =>
    exact (hstep _ (Nat.le_add_right _ _) hblock _ _ _ _ (hcell i i.isLt) (hcell _ (partner_lt hn i.isLt hlo))).1
  · exact (hstep _ (Nat.le_add_right _ _) hblock _ _ _ _ (hcell _ (by omega)) (hcell i i.isLt)).2

/-- **All passes**: a family of relations that each pass takes one further. -/
theorem passes_rel {bf : ℕ → ℕ → α → α → α × α} {bg : ℕ → ℕ → β → β → β × β} {lens : List ℕ}
    {R : ℕ → α → β → Prop} {a : Fin n → α} {b : Fin n → β}
    (hlens : ∀ len ∈ lens, 0 < len ∧ 2 * len ∣ n)
    (hstep : ∀ d len, lens[d]? = some len → ∀ j < k + span n lens, ∀ x y u v, R d x u → R d y v →
      R (d + 1) (bf len j x y).1 (bg len j u v).1 ∧ R (d + 1) (bf len j x y).2 (bg len j u v).2)
    (hab : ∀ i, R 0 (a i) (b i)) (i : Fin n) :
    R lens.length (passes bf lens k a i) (passes bg lens k b i) := by
  induction lens generalizing k R a b with
  | nil => exact hab i
  | cons len lens ih =>
    obtain ⟨hlen, hn⟩ := hlens len List.mem_cons_self
    have hspan : span n (len :: lens) = n / (2 * len) + span n lens := rfl
    refine ih (R := fun d => R (d + 1)) (fun l hl => hlens l (List.mem_cons_of_mem _ hl))
      (fun d l hd j hj => hstep (d + 1) l hd j (by omega)) (fun i => ?_)
    exact pass_rel hlen hn (fun j _ hj => hstep 0 len rfl j (by omega)) hab i

/-! ## two passes of one distance -/

/-- Two passes of one distance are one pass, of the composed butterfly. -/
theorem pass_pass (bf bg : ℕ → α → α → α × α) {k' : ℕ} (a : Fin n → α) (hlen : 0 < len)
    (hn : 2 * len ∣ n) :
    pass bg len k' (pass bf len k a) =
      pass (fun b x y => bg (k' + b) (bf (k + b) x y).1 (bf (k + b) x y).2) len 0 a := by
  funext i
  rw [pass_apply bg _ hlen hn, pass_apply _ _ hlen hn]
  unfold after
  split
  · next hlo =>
    obtain ⟨hdiv, hmod⟩ := upper_of_lower hlo
    rw [cell_pass bf a hlen hn i.isLt, cell_pass bf a hlen hn (partner_lt hn i.isLt hlo), after,
      if_pos hlo, after, if_neg (by omega), hdiv, Nat.add_sub_cancel, Nat.zero_add]
  · next hhi =>
    obtain ⟨hdiv, hmod⟩ := lower_of_upper hlen hhi
    have hle := le_of_upper hhi
    have hlt := Nat.mod_lt i.val (show 0 < 2 * len by omega)
    rw [cell_pass bf a hlen hn i.isLt, cell_pass bf a hlen hn (by omega), after,
      if_pos (by omega), after, if_neg hhi, hdiv, Nat.sub_add_cancel hle, Nat.zero_add]

end Butterfly
