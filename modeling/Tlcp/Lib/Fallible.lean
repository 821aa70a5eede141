import Mathlib.Logic.Basic

/-!
# Fallible

Imperative code that mutates one state and may stop with an error, as
programs of `EStateM ε σ`: an error keeps the state it was raised in.  The
lemmas turn a successful run of a program into the successful runs of its
parts, so that a proof takes a program apart with `obtain` and never unfolds
the monad.  `Keeps` is for properties that a failing run keeps too; its rules
follow the shape of a program.
-/

namespace Fallible

variable {ε σ α β : Type} {s t : σ}
variable {e : ε} {x y : EStateM ε σ α} {p : Prop} {a : α} {b : β} {o : Option α} {u : Unit}
  {g : σ → σ}

/-- The value of an option, or the error `e`. -/
def orThrow (e : ε) : Option α → EStateM ε σ α
  | some a => pure a
  | none => throw e

/-- Go on only if `p` holds. -/
def check (p : Prop) [Decidable p] (e : ε) : EStateM ε σ Unit := if p then pure () else throw e

/-- Run `x` only if `p` holds, and go on either way. -/
def onlyIf (p : Prop) [Decidable p] (x : EStateM ε σ Unit) : EStateM ε σ Unit :=
  if p then x else pure ()

/-- Lift a pure computation that may fail. -/
def lift : Except ε α → EStateM ε σ α
  | .ok a => pure a
  | .error e => throw e

/-! ## successful runs -/

variable {f : α → EStateM ε σ β}

theorem run_bind_ok :
    (x >>= f).run s = .ok b t ↔ ∃ a s', x.run s = .ok a s' ∧ (f a).run s' = .ok b t := by
  rw [EStateM.run_bind]
  cases x.run s with
  | ok a s' =>
    constructor
    · intro h
      exact ⟨a, s', rfl, h⟩
    · intro ⟨a', s'', hx, hf⟩
      injection hx with ha hs
      subst ha hs
      exact hf
  | error e s' =>
    constructor
    · intro h
      injection h
    · intro ⟨_, _, hx, _⟩
      injection hx

@[simp] theorem run_pure_ok {b : α} : (pure a : EStateM ε σ α).run s = .ok b t ↔ a = b ∧ s = t := by
  simp [EStateM.run_pure]

@[simp] theorem run_modify_ok {f : σ → σ} :
    (modify f : EStateM ε σ Unit).run s = .ok u t ↔ f s = t := by
  simp [EStateM.run_modify]

theorem run_throw : (throw e : EStateM ε σ α).run s = .error e s := rfl

@[simp] theorem run_throw_ok : (throw e : EStateM ε σ α).run s = .ok a t ↔ False := by
  simp [run_throw]

@[simp] theorem run_orThrow_ok :
    (orThrow e o : EStateM ε σ α).run s = .ok a t ↔ o = some a ∧ s = t := by
  cases o <;> simp [orThrow]

@[simp] theorem run_check_ok [Decidable p] :
    (check p e : EStateM ε σ Unit).run s = .ok u t ↔ p ∧ s = t := by
  unfold check
  split <;> simp_all

@[simp] theorem run_lift_ok {x : Except ε α} :
    (lift x : EStateM ε σ α).run s = .ok a t ↔ x = .ok a ∧ s = t := by
  cases x <;> simp [lift]

theorem run_onlyIf_ok [Decidable p] {x : EStateM ε σ Unit} :
    (onlyIf p x).run s = .ok u t ↔ (p ∧ x.run s = .ok u t) ∨ (¬ p ∧ s = t) := by
  unfold onlyIf
  split <;> simp_all

/- A program whose first step is one of the above, by what that step did. -/

theorem run_get_bind_ok {f : σ → EStateM ε σ β} :
    (get >>= f).run s = .ok b t ↔ (f s).run s = .ok b t := by
  simp

theorem run_modify_bind_ok {f : Unit → EStateM ε σ β} :
    (modify g >>= f).run s = .ok b t ↔ (f ()).run (g s) = .ok b t := by
  simp

theorem run_check_bind_ok [Decidable p] {f : Unit → EStateM ε σ β} :
    (check p e >>= f).run s = .ok b t ↔ p ∧ (f ()).run s = .ok b t := by
  unfold check
  split <;> simp_all

theorem run_orThrow_bind_ok :
    (orThrow e o >>= f).run s = .ok b t ↔ ∃ a, o = some a ∧ (f a).run s = .ok b t := by
  cases o <;> simp [orThrow, run_throw]

theorem run_lift_bind_ok {x : Except ε α} :
    (lift x >>= f).run s = .ok b t ↔ ∃ a, x = .ok a ∧ (f a).run s = .ok b t := by
  cases x <;> simp [lift, run_throw]

/-! ## what every run keeps -/

/-- The state that a run ended in, with success or not. -/
def final : EStateM.Result ε σ α → σ
  | .ok _ s => s
  | .error _ s => s

/-- The program keeps `P`, also where it fails. -/
structure Keeps (P : σ → Prop) (x : EStateM ε σ α) : Prop where
  kept : ∀ s, P s → P (final (x.run s))

variable {P : σ → Prop}

theorem Keeps.bind (hx : Keeps P x)
    (hf : ∀ a, Keeps P (f a)) : Keeps P (x >>= f) := by
  constructor
  intro s hs
  have h := hx.kept s hs
  rw [EStateM.run_bind]
  cases hr : x.run s with
  | ok a s' =>
    rw [hr] at h
    exact (hf a).kept s' h
  | error e s' =>
    rw [hr] at h
    exact h

theorem Keeps.ok {s t : σ} (hx : Keeps P x) (hs : P s)
    (h : x.run s = .ok a t) : P t := by
  have hkept := hx.kept s hs
  rw [h] at hkept
  exact hkept

theorem keeps_pure : Keeps P (pure a : EStateM ε σ α) := ⟨fun _ h => h⟩

theorem keeps_get : Keeps P (get : EStateM ε σ σ) := ⟨fun _ h => h⟩

theorem keeps_throw : Keeps P (throw e : EStateM ε σ α) := ⟨fun _ h => h⟩

theorem keeps_modify {f : σ → σ} (h : ∀ s, P s → P (f s)) : Keeps P (modify f : EStateM ε σ Unit) :=
  ⟨h⟩

theorem keeps_orThrow : Keeps P (orThrow e o : EStateM ε σ α) := by
  cases o with
  | none => exact keeps_throw
  | some a => exact keeps_pure

theorem keeps_lift {x : Except ε α} : Keeps P (lift x : EStateM ε σ α) := by
  cases x with
  | error e => exact keeps_throw
  | ok a => exact keeps_pure

theorem Keeps.ite [Decidable p] (hx : Keeps P x)
    (hy : Keeps P y) : Keeps P (if p then x else y) := by
  split
  · exact hx
  · exact hy

theorem keeps_check [Decidable p] : Keeps P (check p e : EStateM ε σ Unit) :=
  keeps_pure.ite keeps_throw

theorem Keeps.onlyIf [Decidable p] {x : EStateM ε σ Unit} (hx : Keeps P x) :
    Keeps P (Fallible.onlyIf p x) :=
  hx.ite keeps_pure

/-! ## what one run ends in -/

/-- The run from `s` ends in a state with `P`, also where it fails. -/
def Ends (P : σ → Prop) (x : EStateM ε σ α) (s : σ) : Prop := P (final (x.run s))

theorem Keeps.ends (hx : Keeps P x) (hs : P s) : Ends P x s := hx.kept s hs

theorem Ends.ok (hx : Ends P x s) (h : x.run s = .ok a t) : P t := by
  unfold Ends at hx
  rw [h] at hx
  exact hx

theorem Ends.bind (hx : Ends P x s)
    (hf : ∀ a t, x.run s = .ok a t → Ends P (f a) t) : Ends P (x >>= f) s := by
  unfold Ends at hx ⊢
  rw [EStateM.run_bind]
  cases hr : x.run s with
  | ok a t => exact hf a t hr
  | error e t =>
    rw [hr] at hx
    exact hx

/-- What follows keeps the property in any state. -/
theorem Ends.bind_keeps (hx : Ends P x s)
    (hf : ∀ a, Keeps P (f a)) : Ends P (x >>= f) s :=
  hx.bind fun a _ ht => (hf a).ends (hx.ok ht)

theorem ends_get_bind {f : σ → EStateM ε σ α} (hf : Ends P (f s) s) : Ends P (get >>= f) s := hf

theorem ends_modify_bind {f : Unit → EStateM ε σ α} (hf : Ends P (f ()) (g s)) :
    Ends P (modify g >>= f) s := hf

theorem ends_check_bind [Decidable p] {f : Unit → EStateM ε σ α} (hs : P s)
    (hf : p → Ends P (f ()) s) : Ends P (check p e >>= f) s :=
  Ends.bind (keeps_check.ends hs) fun _ _ h => by
    obtain ⟨hp, ht⟩ := run_check_ok.mp h
    subst ht
    exact hf hp

theorem ends_orThrow_bind (hs : P s)
    (hf : ∀ a, o = some a → Ends P (f a) s) : Ends P (orThrow e o >>= f) s :=
  Ends.bind (keeps_orThrow.ends hs) fun a _ h => by
    obtain ⟨ho, ht⟩ := run_orThrow_ok.mp h
    subst ht
    exact hf a ho

/- The same where it is known that the step goes through: the property need not
hold before. -/

theorem ends_bind_of (hx : x.run s = .ok a t) (hf : Ends P (f a) t) :
    Ends P (x >>= f) s := by
  rw [Ends, EStateM.run_bind, hx]
  exact hf

theorem ends_check_bind_of [Decidable p] {f : Unit → EStateM ε σ α} (hp : p)
    (hf : Ends P (f ()) s) : Ends P (check p e >>= f) s := by
  rw [check, if_pos hp]
  exact hf

theorem ends_orThrow_bind_some (ho : o = some a)
    (hf : Ends P (f a) s) : Ends P (orThrow e o >>= f) s := by
  subst ho
  exact hf

/-! ## what a program does not look at -/

/-- The program does not look at what `f` changes: where it goes through, it
does so with the same result behind `f`. -/
structure Blind (f : σ → σ) (x : EStateM ε σ α) : Prop where
  run : ∀ s a t, x.run s = .ok a t → x.run (f s) = .ok a (f t)

section blind

variable {f : σ → σ}

theorem Blind.bind {k : α → EStateM ε σ β} (hx : Blind f x)
    (hk : ∀ a, Blind f (k a)) : Blind f (x >>= k) := by
  constructor
  intro s b t h
  obtain ⟨a, u, ha, hb⟩ := run_bind_ok.mp h
  exact run_bind_ok.mpr ⟨a, f u, hx.run s a u ha, (hk a).run u b t hb⟩

/-- What is read from the state is the same behind `f`. -/
theorem Blind.get_bind {k : σ → EStateM ε σ β} (hsame : ∀ s, k (f s) = k s)
    (hk : ∀ s, Blind f (k s)) : Blind f (get >>= k) := by
  constructor
  intro s b t h
  rw [run_get_bind_ok] at h ⊢
  rw [hsame]
  exact (hk s).run s b t h

theorem blind_modify (h : ∀ s, g (f s) = f (g s)) : Blind f (modify g : EStateM ε σ Unit) := by
  constructor
  intro s u t ht
  rw [run_modify_ok] at ht ⊢
  rw [h, ht]

theorem blind_pure : Blind f (pure a : EStateM ε σ α) := by
  constructor
  intro s b t h
  rw [run_pure_ok] at h ⊢
  exact ⟨h.1, by rw [h.2]⟩

theorem blind_throw : Blind f (throw e : EStateM ε σ α) := ⟨fun _ _ _ h => (run_throw_ok.mp h).elim⟩

theorem blind_orThrow : Blind f (orThrow e o : EStateM ε σ α) := by
  cases o with
  | none => exact blind_throw
  | some a => exact blind_pure

theorem blind_lift {x : Except ε α} : Blind f (lift x : EStateM ε σ α) := by
  cases x with
  | error e => exact blind_throw
  | ok a => exact blind_pure

theorem Blind.ite [Decidable p] (hx : Blind f x)
    (hy : Blind f y) : Blind f (if p then x else y) := by
  split
  · exact hx
  · exact hy

theorem blind_check [Decidable p] : Blind f (check p e : EStateM ε σ Unit) :=
  blind_pure.ite blind_throw

theorem Blind.onlyIf [Decidable p] {x : EStateM ε σ Unit} (hx : Blind f x) :
    Blind f (Fallible.onlyIf p x) :=
  hx.ite blind_pure

end blind

/-! ## pure computations -/

theorem except_bind_ok {x : Except ε α} {f : α → Except ε β} :
    (x >>= f) = .ok b ↔ ∃ a, x = .ok a ∧ f a = .ok b := by
  cases x <;> simp [bind, Except.bind]

end Fallible
