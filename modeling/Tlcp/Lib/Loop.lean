import Mathlib.Data.Fintype.Basic
import Mathlib.Data.Option.Basic

/-!
# Loop

Loops that end when something fits, with a bound on the number of rounds
(`repeatUntil`): a bound that is too small gives nothing, and all bounds that
give a result give the same.  `collect` is a loop over an index of which every
round has to give a result.
-/

namespace Loop

variable {σ β : Type*}

/-! ## until done -/

/-- Repeat a step until it is done, for at most `n` rounds.  A step may fail, go
on with a new state or be done. -/
def repeatUntil (step : σ → Option (σ ⊕ β)) : ℕ → σ → Option β
  | 0, _ => none
  | n + 1, s =>
    match step s with
    | none => none
    | some (.inl s) => repeatUntil step n s
    | some (.inr b) => some b

section

variable {step : σ → Option (σ ⊕ β)} {n m : ℕ} {s : σ} {b b' : β}

/-- An invariant of the rounds, and what it says at the end. -/
theorem repeatUntil_inv {P : σ → Prop} {Q : β → Prop} (hnext : ∀ s s', P s → step s = some (.inl s') → P s')
    (hdone : ∀ s b, P s → step s = some (.inr b) → Q b) (hs : P s) (h : repeatUntil step n s = some b) :
    Q b := by
  induction n generalizing s with
  | zero => contradiction
  | succ n ih =>
    unfold repeatUntil at h
    split at h
    · contradiction
    · next s' hstep => exact ih (hnext s s' hs hstep) h
    · next b' hstep => exact Option.some.inj h ▸ hdone s b' hs hstep

/-- A larger bound changes nothing. -/
theorem repeatUntil_mono (h : repeatUntil step n s = some b) (hnm : n ≤ m) :
    repeatUntil step m s = some b := by
  induction n generalizing s m with
  | zero => contradiction
  | succ n ih =>
    obtain ⟨m, rfl⟩ : ∃ k, m = k + 1 := ⟨m - 1, by omega⟩
    unfold repeatUntil at h ⊢
    split at h
    · contradiction
    · exact ih h (by omega)
    · exact h

/-- The result does not depend on the bound. -/
theorem repeatUntil_unique (h : repeatUntil step n s = some b) (h' : repeatUntil step m s = some b') :
    b = b' := by
  rcases Nat.le_total n m with hnm | hmn
  · exact Option.some.inj ((repeatUntil_mono h hnm).symm.trans h')
  · exact Option.some.inj (h.symm.trans (repeatUntil_mono h' hmn))

end

/-! ## over a list -/

section

variable {α : Type*} {P : σ → Prop} {f : σ → α → Option σ} {l : List α} {s s' : σ}

/-- A loop no step of which fails. -/
theorem foldlM_returns (hstep : ∀ s, P s → ∀ a ∈ l, ∃ s', f s a = some s' ∧ P s') (hs : P s) :
    ∃ s', l.foldlM f s = some s' := by
  induction l generalizing s with
  | nil => exact ⟨s, rfl⟩
  | cons a l ih =>
    obtain ⟨s₁, h₁, hs₁⟩ := hstep s hs a List.mem_cons_self
    obtain ⟨s', h'⟩ := ih (fun s hs a ha => hstep s hs a (List.mem_cons_of_mem _ ha)) hs₁
    exact ⟨s', by rw [List.foldlM_cons, h₁]; exact h'⟩

end

/-! ## every index -/

/-- The results of a loop over `Fin n`, when every one of them is there. -/
def collect {n : ℕ} (f : Fin n → Option β) : Option (Fin n → β) :=
  if h : ∀ i, (f i).isSome then some fun i => (f i).get (h i) else none

theorem collect_eq_some {n : ℕ} {f : Fin n → Option β} {g : Fin n → β} :
    collect f = some g ↔ ∀ i, f i = some (g i) := by
  unfold collect
  split
  · next h =>
    rw [Option.some.injEq, funext_iff]
    exact forall_congr' fun i => by rw [Option.eq_some_iff_get_eq]; simp [h i]
  · next h =>
    simp only [reduceCtorEq, false_iff]
    intro hg
    exact h fun i => by rw [hg i, Option.isSome_some]

end Loop
