import Mathlib.Data.Nat.Bitwise
import Mathlib.Tactic.Ring

/-!
# Tlcp.Lib.Merkle

Merkle trees over numbered leaves.  Place `i` of level `t` covers the leaves
`i * 2 ^ t` to `(i + 1) * 2 ^ t - 1`; `node` is the value there, by recursion
on the level.

The rest is about making a tree from left to right with one saved value a
level.  After `k` leaves the finished places of level `u` are those below
`k / 2 ^ u`: `Saved` says that a level with an odd number of them holds the last
one, which waits for its sibling, and `OnPath` that the siblings on the way up
from a leaf have been kept as they were finished.  While leaf `k` is joined with
what is left of it, the levels below some `t` already count it.
-/

namespace Merkle

variable {α : Type} (hash : ℕ → ℕ → α → α → α) (leaf : ℕ → α)

/-- The value at place `i` of level `t`. -/
def node : ℕ → ℕ → α
  | 0, i => leaf i
  | t + 1, i => hash (t + 1) i (node t (2 * i)) (node t (2 * i + 1))

/-- The place next to `i` below the same parent. -/
def sibling (i : ℕ) : ℕ := if i % 2 = 1 then i - 1 else i + 1

theorem xor_eq_one_iff {i j : ℕ} : i ^^^ j = 1 ↔ i = sibling j := by
  have hj : j ^^^ 1 = sibling j := by
    unfold sibling
    split
    · next h => rw [Nat.xor_one_of_odd (Nat.odd_iff.mpr h)]
    · next h => rw [Nat.xor_one_of_even (Nat.even_iff.mpr (by omega))]
  rw [← hj]
  constructor
  · intro h
    rw [← h, Nat.xor_comm i j, ← Nat.xor_assoc, Nat.xor_self, Nat.zero_xor]
  · intro h
    rw [h, Nat.xor_comm j 1, Nat.xor_assoc, Nat.xor_self, Nat.xor_zero]

theorem sibling_lt {i n : ℕ} (h : i < 2 * n) : sibling i < 2 * n := by
  unfold sibling
  split <;> omega

/-- A value at place `i` of level `t`, joined with the one next to it. -/
def join (t i : ℕ) (x y : α) : α :=
  if i % 2 = 1 then hash (t + 1) (i / 2) y x else hash (t + 1) (i / 2) x y

theorem join_node (t i : ℕ) : join hash t i (node hash leaf t i) (node hash leaf t (sibling i)) =
      node hash leaf (t + 1) (i / 2) := by
  unfold join sibling
  split
  · next h =>
    rw [node, show 2 * (i / 2) = i - 1 by omega, show i - 1 + 1 = i by omega]
  · next h =>
    rw [node, show 2 * (i / 2) = i by omega]

/-! ## from left to right -/

/-- Each level from `t` on with an odd number of finished places holds the last
of them. -/
def Saved (k t : ℕ) (stack : ℕ → α) : Prop :=
  ∀ u, t ≤ u → k / 2 ^ u % 2 = 1 → stack u = node hash leaf u (k / 2 ^ u - 1)

/-- How many places of level `u` are finished when the levels below `t` are
through with leaf `k`. -/
def done (k t u : ℕ) : ℕ := if u < t then (k + 1) / 2 ^ u else k / 2 ^ u

/-- Each finished sibling on the way up from leaf `l` is on the path. -/
def OnPath (l k t : ℕ) (path : ℕ → α) : Prop :=
  ∀ u, sibling (l / 2 ^ u) < done k t u → path u = node hash leaf u (sibling (l / 2 ^ u))

/-- A place as it is finished, kept if it is a sibling on the way up. -/
def keep (l i t : ℕ) (x : α) (path : ℕ → α) : ℕ → α :=
  if i = sibling (l / 2 ^ t) then Function.update path t x else path

variable {hash leaf} {l k t : ℕ} {stack path : ℕ → α}

/-- The leaves up to `k` fill the places up to `k / 2 ^ t` of level `t`. -/
theorem succ_div_of_full (h : 2 ^ t ∣ k + 1) : (k + 1) / 2 ^ t = k / 2 ^ t + 1 := by
  rw [Nat.succ_div, if_pos h]

/-- At a right child the parent is full as well. -/
theorem full_of_odd (h : 2 ^ t ∣ k + 1) (hodd : k / 2 ^ t % 2 = 1) : 2 ^ (t + 1) ∣ k + 1 := by
  rw [← Nat.div_mul_cancel h, succ_div_of_full h, pow_succ, Nat.mul_comm]
  exact Nat.mul_dvd_mul_right (by omega) _

/-- Above a left child nothing more gets full. -/
theorem succ_div_of_even {u : ℕ} (h : 2 ^ t ∣ k + 1) (heven : k / 2 ^ t % 2 = 0) (hu : t < u) :
    (k + 1) / 2 ^ u = k / 2 ^ u := by
  rw [Nat.succ_div, if_neg]
  · rfl
  · intro hdvd
    have hnext : 2 ^ (t + 1) ∣ k + 1 := (Nat.pow_dvd_pow 2 hu).trans hdvd
    rw [← Nat.div_mul_cancel h, succ_div_of_full h, pow_succ, Nat.mul_comm (_ + 1)] at hnext
    have := Nat.dvd_of_mul_dvd_mul_left (Nat.two_pow_pos t) hnext
    omega

/-- Below a full place there is an even number of full places. -/
theorem succ_div_mod_two {u : ℕ} (h : 2 ^ t ∣ k + 1) (hu : u < t) : (k + 1) / 2 ^ u % 2 = 0 := by
  have hdvd : 2 ^ u * 2 ∣ k + 1 := (Nat.pow_dvd_pow 2 hu).trans h
  exact Nat.mod_eq_zero_of_dvd (Nat.dvd_div_of_mul_dvd hdvd)

/-- The saved value of a right child's level is the left child. -/
theorem Saved.join (hs : Saved hash leaf k t stack) (hodd : k / 2 ^ t % 2 = 1) :
    hash (t + 1) (k / 2 ^ (t + 1)) (stack t) (node hash leaf t (k / 2 ^ t)) =
      node hash leaf (t + 1) (k / 2 ^ (t + 1)) := by
  rw [node, hs t (le_refl t) hodd, pow_succ, ← Nat.div_div_eq_div_mul]
  congr 2 <;> omega

/-- A left child is saved until its sibling comes. -/
theorem Saved.save (hs : Saved hash leaf k t stack) (h : 2 ^ t ∣ k + 1)
    (heven : k / 2 ^ t % 2 = 0) :
    Saved hash leaf (k + 1) 0
      (Function.update stack t (node hash leaf t (k / 2 ^ t))) := by
  intro u _ hu
  rcases Nat.lt_trichotomy u t with hlt | rfl | hgt
  · have := succ_div_mod_two h hlt
    omega
  · rw [Function.update_self, succ_div_of_full h, Nat.add_sub_cancel]
  · rw [succ_div_of_even h heven hgt] at hu ⊢
    rw [Function.update_of_ne (by omega), hs u (by omega) hu]

theorem OnPath.keep (hp : OnPath hash leaf l k t path) (h : 2 ^ t ∣ k + 1) :
    OnPath hash leaf l k (t + 1)
      (keep l (k / 2 ^ t) t (node hash leaf t (k / 2 ^ t)) path) := by
  intro u hu
  have hold := hp u
  unfold done at hu hold
  by_cases hut : u = t
  · subst hut
    rw [if_pos (by omega), succ_div_of_full h] at hu
    rw [if_neg (by omega)] at hold
    unfold Merkle.keep
    split
    · next heq => rw [Function.update_self, heq]
    · next hne => exact hold (by omega)
  · have hsame : Merkle.keep l (k / 2 ^ t) t (node hash leaf t (k / 2 ^ t)) path u = path u := by
      unfold Merkle.keep
      split
      · exact Function.update_of_ne hut _ _
      · rfl
    rw [hsame]
    refine hold ?_
    split at hu <;> split <;> first | exact hu | omega

theorem OnPath.stop (hp : OnPath hash leaf l k (t + 1) path) (h : 2 ^ t ∣ k + 1)
    (heven : k / 2 ^ t % 2 = 0) : OnPath hash leaf l (k + 1) 0 path := by
  intro u hu
  refine hp u ?_
  unfold done at hu ⊢
  rw [if_neg (by omega)] at hu
  split
  · exact hu
  · rwa [succ_div_of_even h heven (by omega)] at hu

/-- When the tree of height `t` is full, the path has every sibling. -/
theorem OnPath.all (hp : OnPath hash leaf l k t path) (hk : k + 1 = 2 ^ t) (hl : l < 2 ^ t)
    {u : ℕ} (hu : u < t) : path u = node hash leaf u (sibling (l / 2 ^ u)) := by
  refine hp u ?_
  obtain ⟨d, rfl⟩ := Nat.exists_eq_add_of_lt hu
  have hpow : 2 ^ (u + d + 1) = 2 ^ u * (2 * 2 ^ d) := by ring
  rw [done, if_pos hu, hk, hpow, Nat.mul_div_cancel_left _ (Nat.two_pow_pos u)]
  refine sibling_lt ?_
  rw [hpow] at hl
  exact Nat.div_lt_of_lt_mul hl

end Merkle
