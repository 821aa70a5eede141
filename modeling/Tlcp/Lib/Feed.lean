import Mathlib.Data.List.Basic

/-!
# Feed

Consumers that are fed symbol by symbol, from a source that hands its symbols
out in pieces of any size.

A consumer is a function `feed : σ → α → σ` with a predicate `active`: it
takes symbols as long as it is active.  A piece is smooth (`Smooth`) if the
consumer is active before each of its symbols.  A reader that takes smooth
pieces (`Reads`) cannot be told from one that takes single symbols: where two
readers have read equally far, their consumers are in the same state, and
readers that are not stopped early all end where `consume` does.
-/

namespace Feed

variable {σ τ α : Type} {feed : σ → α → σ} {active : σ → Prop}

/-! ## feeding -/

/-- Feed a list as long as the consumer is active, and what is left then. -/
def consume (feed : σ → α → σ) (active : σ → Prop) [DecidablePred active] : σ → List α → σ × List α
  | s, [] => (s, [])
  | s, a :: as => if active s then consume feed active (feed s a) as else (s, a :: as)

/-- The consumer is active before each symbol of the list. -/
def Smooth (feed : σ → α → σ) (active : σ → Prop) : σ → List α → Prop
  | _, [] => True
  | s, a :: as => active s ∧ Smooth feed active (feed s a) as

theorem Smooth.append {s : σ} {as bs : List α} (ha : Smooth feed active s as)
    (hb : Smooth feed active (as.foldl feed s) bs) : Smooth feed active s (as ++ bs) := by
  induction as generalizing s with
  | nil => exact hb
  | cons a as ih => exact ⟨ha.1, ih ha.2 hb⟩

theorem consume_of_not_active [DecidablePred active] {s : σ} (h : ¬ active s) (as : List α) :
    consume feed active s as = (s, as) := by
  cases as with
  | nil => rfl
  | cons a as => exact if_neg h

theorem Smooth.consume_append [DecidablePred active] {s : σ} {as : List α}
    (h : Smooth feed active s as) (bs : List α) :
    consume feed active s (as ++ bs) = consume feed active (as.foldl feed s) bs := by
  induction as generalizing s with
  | nil => rfl
  | cons a as ih =>
    rw [List.cons_append, consume, if_pos h.1]
    exact ih h.2

/-! ## reading in pieces -/

/-- What to check of a reader: in the states with `P`, a call takes a smooth
piece from the front of what is left, and a call that may take something does,
if the consumer is active. -/
structure Reads (feed : σ → α → σ) (active : σ → Prop) (P : τ × σ → Prop) (left : τ → List α)
    (call : Nat → τ × σ → τ × σ) : Prop where
  keeps : ∀ n x, P x → P (call n x)
  takes : ∀ n x, P x → ∃ piece, left x.1 = piece ++ left (call n x).1 ∧
    Smooth feed active x.2 piece ∧ (call n x).2 = piece.foldl feed x.2
  goesOn : ∀ n x, P x → 0 < n → active x.2 → left x.1 ≠ [] →
    (left (call n x).1).length < (left x.1).length

/-- The calls of a schedule. -/
def calls (call : Nat → τ × σ → τ × σ) (ns : List Nat) (x : τ × σ) : τ × σ :=
  ns.foldl (fun x n => call n x) x

section reads

variable {P : τ × σ → Prop} {left : τ → List α} {call : Nat → τ × σ → τ × σ} {x y : τ × σ}

/-- **All the calls together** take one smooth piece. -/
theorem Reads.takes_calls (h : Reads feed active P left call) (ns : List Nat) (hx : P x) :
    ∃ piece, left x.1 = piece ++ left (calls call ns x).1 ∧ Smooth feed active x.2 piece ∧
      (calls call ns x).2 = piece.foldl feed x.2 := by
  induction ns generalizing x with
  | nil => exact ⟨[], rfl, trivial, rfl⟩
  | cons n ns ih =>
    obtain ⟨first, hleft, hsmooth, hstate⟩ := h.takes n x hx
    obtain ⟨more, hleft', hsmooth', hstate'⟩ := ih (h.keeps n x hx)
    refine ⟨first ++ more, ?_, hsmooth.append (hstate ▸ hsmooth'), ?_⟩
    · rw [hleft, hleft', List.append_assoc]
      rfl
    · rw [List.foldl_append, ← hstate]
      exact hstate'

/-- The states that a reader can be in. -/
theorem Reads.keeps_calls (h : Reads feed active P left call) (ns : List Nat) (hx : P x) :
    P (calls call ns x) := by
  induction ns generalizing x with
  | nil => exact hx
  | cons n ns ih => exact ih (h.keeps n x hx)

/-- What is left never grows. -/
theorem Reads.left_le (h : Reads feed active P left call) (n : Nat) (hx : P x) :
    (left (call n x).1).length ≤ (left x.1).length := by
  obtain ⟨piece, hleft, _⟩ := h.takes n x hx
  rw [hleft, List.length_append]
  omega

/-- A consumer that is no longer active takes nothing. -/
theorem Reads.stays (h : Reads feed active P left call) (ns : List Nat) (hx : P x)
    (hidle : ¬ active x.2) : (calls call ns x).2 = x.2 := by
  obtain ⟨piece, _, hsmooth, hstate⟩ := h.takes_calls ns hx
  cases piece with
  | nil => exact hstate
  | cons a as => exact absurd hsmooth.1 hidle

/-- With as many calls that may take something as there are symbols, the reader
gets to the end, unless the consumer stops before. -/
theorem Reads.ends (h : Reads feed active P left call) (ns : List Nat) (hx : P x)
    (hns : (left x.1).length ≤ ns.countP (0 < ·)) :
    ¬ active (calls call ns x).2 ∨ left (calls call ns x).1 = [] := by
  induction ns generalizing x with
  | nil =>
    have hnil : left x.1 = [] := by simpa using hns
    exact .inr hnil
  | cons n ns ih =>
    by_cases hidle : active x.2
    · refine ih (x := call n x) (h.keeps n x hx) ?_
      have hle := h.left_le n hx
      rw [List.countP_cons] at hns
      by_cases hpos : 0 < n ∧ left x.1 ≠ []
      · have hlt := h.goesOn n x hx hpos.1 hidle hpos.2
        simp only [hpos.1, decide_true, if_true] at hns
        omega
      · by_cases hn : 0 < n
        · have hnil : left x.1 = [] := by
            by_contra hne
            exact hpos ⟨hn, hne⟩
          rw [hnil, List.length_nil] at hle
          omega
        · simp only [hn, decide_false, Bool.false_eq_true, if_false] at hns
          omega
    · exact .inl (h.stays (n :: ns) hx hidle ▸ hidle)

/-- **Equally far**: readers of one list of symbols that have the same number
of them left have fed their consumers the same. -/
theorem Reads.agree (h : Reads feed active P left call) {ns ms : List Nat} (hx : P x) (hy : P y)
    (hstate : x.2 = y.2) (hleft : left x.1 = left y.1)
    (hfar : (left (calls call ns x).1).length = (left (calls call ms y).1).length) :
    (calls call ns x).2 = (calls call ms y).2 := by
  obtain ⟨p, hp, _, hps⟩ := h.takes_calls ns hx
  obtain ⟨q, hq, _, hqs⟩ := h.takes_calls ms hy
  have hpq : p ++ left (calls call ns x).1 = q ++ left (calls call ms y).1 := by
    rw [← hp, ← hq, hleft]
  rw [hps, hqs, hstate, (List.append_inj' hpq hfar).1]

/-- **To the end**: readers of one list of symbols that got to the end feed
their consumers the same. -/
theorem Reads.agree_end [DecidablePred active] (h : Reads feed active P left call)
    {ns ms : List Nat} (hx : P x) (hy : P y) (hstate : x.2 = y.2) (hleft : left x.1 = left y.1)
    (hns : (left x.1).length ≤ ns.countP (0 < ·)) (hms : (left y.1).length ≤ ms.countP (0 < ·)) :
    (calls call ns x).2 = (calls call ms y).2 := by
  have hend : ∀ {z : τ × σ} (ks : List Nat), P z → (left z.1).length ≤ ks.countP (0 < ·) →
      consume feed active z.2 (left z.1) = ((calls call ks z).2, left (calls call ks z).1) := by
    intro z ks hz hks
    obtain ⟨p, hp, hsmooth, hps⟩ := h.takes_calls ks hz
    rw [hp, hsmooth.consume_append, ← hps]
    cases h.ends ks hz hks with
    | inl hidle => exact consume_of_not_active hidle _
    | inr hnil => rw [hnil, consume]
  have heq := hend ns hx hns
  rw [hstate, hleft, hend ms hy hms] at heq
  exact (Prod.mk.inj heq).1.symm

end reads

end Feed
