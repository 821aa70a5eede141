import Mathlib.Data.Finset.Card
import Mathlib.Data.Fintype.Basic
import Mathlib.Data.Option.Basic
import Tlcp.Lib.Butterfly

/-!
# Shuffle

The in-place shuffle that puts signs at random places of an array: for one
place after the other, an entry that is not behind it is moved there and
overwritten with a sign.  `Drawn` says what such an array is, and `Drawn.loop`
that every step of the loop adds one sign.
-/

namespace Shuffle

open Butterfly

variable {α : Type*} [Zero α] [DecidableEq α] {n m i : ℕ} {S : α → Prop} {c : Fin n → α}

/-- The number of nonzero entries. -/
def weight (c : Fin n → α) : ℕ := (Finset.univ.filter fun j => c j ≠ 0).card

/-- An array of `m` signs, with nothing from the place `i` on. -/
structure Drawn (S : α → Prop) (c : Fin n → α) (i m : ℕ) : Prop where
  sign : ∀ j, c j = 0 ∨ S (c j)
  free : ∀ j : Fin n, i ≤ j.val → c j = 0
  weight_eq : weight c = m

/-- Moving the entry `b` to the free place `i` and overwriting it adds one
nonzero entry. -/
theorem weight_swap {i b : Fin n} {v : α} (hi : c i = 0) (hv : v ≠ 0) :
    weight (put (put c i (c b)) b v) = weight c + 1 := by
  have hinsert : (Finset.univ.filter fun j => put (put c i (c b)) b v j ≠ 0) =
      insert (if c b = 0 then b else i) (Finset.univ.filter fun j => c j ≠ 0) := by
    ext j
    simp only [put, Finset.mem_insert, Finset.mem_filter, Finset.mem_univ, true_and, Fin.val_inj]
    grind
  rw [weight, hinsert, Finset.card_insert_of_notMem, weight]
  simp only [Finset.mem_filter, Finset.mem_univ, true_and, not_not]
  split <;> assumption

theorem Drawn.swap (h : Drawn S c i m) (hS : ¬ S 0) (hi : i < n) {b : ℕ} (hb : b ≤ i) {v : α}
    (hv : S v) : Drawn S (put (put c i (cell c b)) b v) (i + 1) (m + 1) := by
  rw [cell_of_lt c (hb.trans_lt hi)]
  refine ⟨fun j => ?_, fun j hj => ?_, ?_⟩
  · simp only [put]
    split
    · exact .inr hv
    · split
      · exact h.sign _
      · exact h.sign j
  · have hjb : ¬ j.val = b := by omega
    have hji : ¬ j.val = i := by omega
    simp only [put, if_neg hjb, if_neg hji]
    exact h.free j (by omega)
  · have hswap := weight_swap (i := ⟨i, hi⟩) (b := ⟨b, hb.trans_lt hi⟩) (h.free _ le_rfl)
      (fun hzero => hS (hzero ▸ hv) : v ≠ 0)
    rwa [h.weight_eq] at hswap

/-- **The loop** over the places from `i` on leaves one sign for each of them. -/
theorem Drawn.loop {σ : Type*} (get : σ → Fin n → α) {step : σ → ℕ → Option σ} (hS : ¬ S 0)
    (hstep : ∀ s i s', step s i = some s' →
      ∃ b ≤ i, ∃ v, S v ∧ get s' = put (put (get s) i (cell (get s) b)) b v)
    (hend : i + m ≤ n) {s t : σ} (hs : get s = fun _ => 0)
    (h : (List.range' i m).foldlM step s = some t) : Drawn S (get t) (i + m) m := by
  induction m generalizing t with
  | zero =>
    obtain rfl := Option.some.inj h
    exact ⟨fun j => .inl (by rw [hs]), fun j _ => by rw [hs], by simp [weight, hs]⟩
  | succ m ih =>
    rw [List.range'_concat, List.foldlM_append, Nat.one_mul] at h
    obtain ⟨s₁, h₁, h⟩ := Option.bind_eq_some_iff.mp h
    rw [List.foldlM_cons, Option.bind_eq_bind, Option.bind_eq_some_iff] at h
    obtain ⟨s₂, h₂, h⟩ := h
    obtain rfl := Option.some.inj h
    obtain ⟨b, hb, v, hv, hget⟩ := hstep s₁ _ s₂ h₂
    rw [hget]
    exact (ih (by omega) h₁).swap hS (by omega) hb hv

end Shuffle
