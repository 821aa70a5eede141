import Tlcp.Lib.Run

/-!
# Tlcp.Lib.Duplex

Two parties that take turns in sending, joined by two queues.

A `Protocol` says at each stage whose turn it is and which messages lead on
from there.  A party is ahead of the other by the messages that are in the
queue between them, and as only one of the two can be ahead, a pair that starts
at one stage

* never finds a message in its queue that the protocol does not have there
  (`Joined.expected`),
* never waits on both sides with nothing under way (`Link.Joined.progress`),
* ends with both sides having seen the same messages in the same order
  (`Link.Joined.agree`), and
* ends after a bounded number of moves, if no party asks to be called again
  (`Link.Joined.length_le`), so that every run can be continued until no move is
  left (`Link.Joined.exhaust`).

`Follows` is what has to be shown of each party for that.
-/

namespace Tlcp.Duplex

variable {σ τ α β μ γ : Type}

/-! ## the pair -/

/-- What a party does at an event: the message that the event takes from its
queue, and the state after it with the messages that it sends. -/
structure Party (σ α μ : Type) where
  takes : α → Option μ
  step : σ → α → Option (σ × List μ)

/-- The two parties, and what is under way to each of them. -/
structure Link (σ τ μ : Type) where
  left : σ
  right : τ
  toLeft : List μ := []
  toRight : List μ := []

/-- One of the two makes a step. -/
inductive Move (α β : Type) where
  | left (a : α)
  | right (b : β)

/-- What is left of a queue after an event that takes `o` from it. -/
def take [DecidableEq μ] : Option μ → List μ → Option (List μ)
  | none, q => some q
  | some _, [] => none
  | some m, m' :: q => if m = m' then some q else none

theorem take_eq_some [DecidableEq μ] {o : Option μ} {q q' : List μ} (h : take o q = some q') :
    (o = none ∧ q' = q) ∨ ∃ m, o = some m ∧ q = m :: q' := by
  unfold take at h
  split at h
  · injection h with h
    exact .inl ⟨rfl, h.symm⟩
  · simp at h
  · next m m' q =>
    split at h
    · next heq =>
      injection h with h
      exact .inr ⟨m, rfl, by rw [heq, h]⟩
    · simp at h

/-- One move of the pair. -/
def step [DecidableEq μ] (L : Party σ α μ) (R : Party τ β μ) (p : Link σ τ μ) :
    Move α β → Option (Link σ τ μ)
  | .left a => do
      let toLeft ← take (L.takes a) p.toLeft
      let (left, ms) ← L.step p.left a
      some { p with left := left, toLeft := toLeft, toRight := p.toRight ++ ms }
  | .right b => do
      let toRight ← take (R.takes b) p.toRight
      let (right, ms) ← R.step p.right b
      some { p with right := right, toRight := toRight, toLeft := p.toLeft ++ ms }

/-! ## the protocol -/

inductive Side where
  | left
  | right
  deriving DecidableEq, Repr

def Side.other : Side → Side
  | .left => .right
  | .right => .left

theorem Side.other_ne (d : Side) : d.other ≠ d := by cases d <;> simp [Side.other]

/-- Whose turn it is at a stage, if it is not the last one, and which message
leads where. -/
structure Protocol (γ μ : Type) where
  turn : γ → Option Side
  next : γ → μ → γ → Prop
  /-- a bound on the messages that are still to come -/
  togo : γ → Nat
  togo_lt {g g' : γ} {m : μ} : next g m g' → togo g' < togo g

/-- One side leads from a stage to another by sending `ms`. -/
inductive Protocol.Sent (P : Protocol γ μ) (d : Side) : γ → List μ → γ → Prop where
  | nil (g : γ) : P.Sent d g [] g
  | cons {g g' h : γ} {m : μ} {ms : List μ} (hturn : P.turn g = some d) (hnext : P.next g m g')
      (hrest : P.Sent d g' ms h) : P.Sent d g (m :: ms) h

theorem Protocol.Sent.concat {P : Protocol γ μ} {d : Side} {g h h' : γ} {m : μ} {ms : List μ}
    (hs : P.Sent d g ms h) (hturn : P.turn h = some d) (hnext : P.next h m h') :
    P.Sent d g (ms ++ [m]) h' := by
  induction hs with
  | nil g => exact .cons hturn hnext (.nil _)
  | cons hturn' hnext' _ ih => exact .cons hturn' hnext' (ih hturn hnext)

/-- What the sender keeps along its messages. -/
theorem Protocol.Sent.invariant {P : Protocol γ μ} {d : Side} {K : γ → Prop} {g h : γ}
    {ms : List μ} (hkeep : ∀ g m g', K g → P.turn g = some d → P.next g m g' → K g') (hg : K g)
    (hs : P.Sent d g ms h) : K h := by
  induction hs with
  | nil g => exact hg
  | cons hturn hnext _ ih => exact ih (hkeep _ _ _ hg hturn hnext)

/-- How a party is seen: the stages that a state can be at, the messages that
it has seen, whether it has to be called again before it goes on, whether it
waits for a message, and whether it has finished. -/
structure View (σ γ μ : Type) where
  At : σ → γ → Prop
  log : σ → List μ
  slack : σ → Nat
  again : σ → Prop
  waits : σ → Prop
  done : σ → Prop

/-- What a party has to keep to.  `C` is what its steps may assume of an event
and of the two states that it happens in. -/
structure Follows (P : Protocol γ μ) (d : Side) (A : Party σ α μ) (V : View σ γ μ)
    (W : View τ γ μ) (C : σ → τ → α → Prop) : Prop where
  act {s t : σ} {u : τ} {g : γ} {a : α} {ms : List μ} : A.takes a = none → V.At s g → C s u a →
    A.step s a = some (t, ms) → (ms = [] ∧ V.At t g ∧ V.log t = V.log s ∧ (V.slack t < V.slack s ∨
        (V.again t ∧ V.slack t ≤ V.slack s))) ∨
      ∃ m g', ms = [m] ∧ P.turn g = some d ∧ P.next g m g' ∧ V.At t g' ∧ V.log t = V.log s ++ [m]
  read {s t : σ} {u : τ} {g g' h : γ} {a : α} {m : μ} {ms queue : List μ} :
    A.takes a = some m → V.At s g → P.turn g = some d.other → P.next g m g' →
    P.Sent d.other g' queue h → W.At u h → C s u a → A.step s a = some (t, ms) →
      ms = [] ∧ V.At t g' ∧ V.log t = V.log s ++ [m]
  slack_le (s : σ) : V.slack s ≤ 4
  waits {s : σ} {g : γ} : V.At s g → V.waits s → P.turn g = some d.other
  done {s : σ} {g : γ} : V.At s g → V.done s → P.turn g = none

/-! ## what a pair keeps -/

section pair

variable {P : Protocol γ μ} {d : Side} {A : Party σ α μ} {V : View σ γ μ} {W : View τ γ μ}
  {s t : σ} {u : τ} {qs qu : List μ} {n : Nat}

/-- `s` is behind `u` by the messages of its queue, and the two have `n` moves
to go at most. -/
def Behind (P : Protocol γ μ) (d : Side) (V : View σ γ μ) (W : View τ γ μ) (s : σ) (u : τ)
    (qs qu : List μ) (n : Nat) : Prop :=
  ∃ g h, V.At s g ∧ W.At u h ∧ P.Sent d.other g qs h ∧ qu = [] ∧ W.log u = V.log s ++ qs ∧
    (5 * P.togo g + V.slack s) + (5 * P.togo h + W.slack u) ≤ n

/-- One of the two is behind the other. -/
def Joined (P : Protocol γ μ) (d : Side) (V : View σ γ μ) (W : View τ γ μ) (s : σ) (u : τ)
    (qs qu : List μ) (n : Nat) : Prop :=
  Behind P d V W s u qs qu n ∨ Behind P d.other W V u s qu qs n

theorem Joined.symm (h : Joined P d V W s u qs qu n) : Joined P d.other W V u s qu qs n := by
  have hd : d.other.other = d := by cases d <;> rfl
  unfold Joined
  rw [hd]
  exact Or.symm h

variable {C : σ → τ → α → Prop} {a : α} {ms : List μ}

/-- A step that takes no message. -/
theorem Joined.act (hf : Follows P d A V W C) (hj : Joined P d V W s u qs qu n)
    (htakes : A.takes a = none) (hc : C s u a) (hstep : A.step s a = some (t, ms)) :
    ∃ n', Joined P d V W t u qs (qu ++ ms) n' ∧ n' ≤ n ∧ (¬ V.again t → n' < n) := by
  have hother : d.other.other = d := by cases d <;> rfl
  have hslack := hf.slack_le t
  cases hj with
  | inl hbehind =>
    obtain ⟨g, h, hs, hu, hsent, hqu, hlog, hn⟩ := hbehind
    rcases hf.act htakes hs hc hstep with ⟨hms, ht, hlog', hrank⟩ | ⟨m, g', hms, hturn, hnext, ht, hlog'⟩
    · subst hms hqu
      refine ⟨5 * P.togo g + V.slack t + (5 * P.togo h + W.slack u),
        .inl ⟨g, h, ht, hu, hsent, rfl, by rw [hlog', hlog], Nat.le_refl _⟩, ?_, ?_⟩
      · rcases hrank with hlt | ⟨_, hle⟩ <;> omega
      · intro hagain
        have hlt := hrank.resolve_right fun hr => hagain hr.1
        omega
    · -- the other party is not ahead, or it would be its turn
      cases hsent with
      | cons hturn' _ _ =>
        rw [hturn] at hturn'
        injection hturn' with hd
        exact absurd hd.symm d.other_ne
      | nil =>
        subst hms hqu
        have hlt := P.togo_lt hnext
        refine ⟨5 * P.togo g' + V.slack t + (5 * P.togo g + W.slack u),
          .inr ⟨g, g', hu, ht, ?_, rfl, ?_, ?_⟩, ?_, ?_⟩
        · rw [hother]
          exact .cons hturn hnext (.nil _)
        · rw [hlog', hlog, List.append_nil, List.nil_append]
        · omega
        · omega
        · intro _
          omega
  | inr hahead =>
    obtain ⟨g, h, hu, hs, hsent, hqs, hlog, hn⟩ := hahead
    rcases hf.act htakes hs hc hstep with ⟨hms, ht, hlog', hrank⟩ | ⟨m, h', hms, hturn, hnext, ht, hlog'⟩
    · subst hms hqs
      rw [List.append_nil]
      refine ⟨5 * P.togo h + V.slack t + (5 * P.togo g + W.slack u),
        .inr ⟨g, h, hu, ht, hsent, rfl, by rw [hlog', hlog], by omega⟩, ?_, ?_⟩
      · rcases hrank with hlt | ⟨_, hle⟩ <;> omega
      · intro hagain
        have hlt := hrank.resolve_right fun hr => hagain hr.1
        omega
    · subst hms hqs
      have hlt := P.togo_lt hnext
      refine ⟨5 * P.togo h' + V.slack t + (5 * P.togo g + W.slack u),
        .inr ⟨g, h', hu, ht, ?_, rfl, ?_, by omega⟩, by omega, by omega⟩
      · rw [hother] at hsent ⊢
        exact hsent.concat hturn hnext
      · rw [hlog', hlog, List.append_assoc]

/-- A step that takes the first message of the queue. -/
theorem Joined.read {m : μ} (hf : Follows P d A V W C) (hj : Joined P d V W s u (m :: qs) qu n)
    (htakes : A.takes a = some m) (hc : C s u a) (hstep : A.step s a = some (t, ms)) :
    ms = [] ∧ ∃ n', Joined P d V W t u qs qu n' ∧ n' < n := by
  have hslack := hf.slack_le t
  cases hj with
  | inl hbehind =>
    obtain ⟨g, h, hs, hu, hsent, hqu, hlog, hn⟩ := hbehind
    cases hsent with
    | cons hturn hnext hrest =>
      next g' =>
      obtain ⟨hms, ht, hlog'⟩ := hf.read htakes hs hturn hnext hrest hu hc hstep
      have hlt := P.togo_lt hnext
      refine ⟨hms, 5 * P.togo g' + V.slack t + (5 * P.togo h + W.slack u),
        .inl ⟨g', h, ht, hu, hrest, hqu, ?_, Nat.le_refl _⟩, by omega⟩
      rw [hlog', hlog, List.append_assoc, List.singleton_append]
  | inr hahead =>
    obtain ⟨_, _, _, _, _, hqs, _⟩ := hahead
    simp at hqs

/-- A message in the queue of a party is one that the protocol has there. -/
theorem Joined.expected {m : μ} (hj : Joined P d V W s u (m :: qs) qu n) :
    ∃ g g', V.At s g ∧ P.turn g = some d.other ∧ P.next g m g' := by
  cases hj with
  | inl hbehind =>
    obtain ⟨g, _, hs, _, hsent, _⟩ := hbehind
    cases hsent with
    | cons hturn hnext _ => exact ⟨g, _, hs, hturn, hnext⟩
  | inr hahead =>
    obtain ⟨_, _, _, _, _, hqs, _⟩ := hahead
    simp at hqs

/-- If the party that is behind has nothing to do, neither has the other
anything left, or it is not idle. -/
theorem Behind.progress (hb : Behind P d V W s u qs qu n)
    (hwaits : ∀ {s g}, V.At s g → V.waits s → P.turn g = some d.other)
    (hdone : ∀ {s g}, V.At s g → V.done s → P.turn g = none)
    (hwaits' : ∀ {u h}, W.At u h → W.waits u → P.turn h = some d)
    (hdone' : ∀ {u h}, W.At u h → W.done u → P.turn h = none)
    (hs : (V.waits s ∧ qs = []) ∨ V.done s) (hu : W.waits u ∨ W.done u) :
    V.done s ∧ W.done u := by
  obtain ⟨g, h, hsg, huh, hsent, _⟩ := hb
  have hgh : qs = [] → g = h := by
    intro hqs
    subst hqs
    cases hsent
    rfl
  rcases hs with ⟨hws, hqs⟩ | hds
  · have hg := hwaits hsg hws
    obtain rfl := hgh hqs
    rcases hu with hwu | hdu
    · have hg' := hwaits' huh hwu
      rw [hg] at hg'
      injection hg' with hd
      exact absurd hd d.other_ne
    · have hg' := hdone' huh hdu
      simp [hg] at hg'
  · have hg := hdone hsg hds
    refine ⟨hds, ?_⟩
    cases hsent with
    | cons hturn _ _ => simp [hg] at hturn
    | nil =>
      rcases hu with hwu | hdu
      · have hg' := hwaits' huh hwu
        simp [hg] at hg'
      · exact hdu

/-- Two parties that have finished have seen the same messages. -/
theorem Behind.agree (hb : Behind P d V W s u qs qu n)
    (hdone : ∀ {s g}, V.At s g → V.done s → P.turn g = none) (hs : V.done s) :
    qs = [] ∧ qu = [] ∧ V.log s = W.log u := by
  obtain ⟨g, h, hsg, _, hsent, hqu, hlog, _⟩ := hb
  have hg := hdone hsg hs
  cases hsent with
  | cons hturn _ _ => simp [hg] at hturn
  | nil => exact ⟨rfl, hqu, by rw [hlog, List.append_nil]⟩

end pair

/-! ## runs of a pair -/

section runs

variable {P : Protocol γ μ} {L : Party σ α μ} {R : Party τ β μ}
  {V : View σ γ μ} {W : View τ γ μ} {C : σ → τ → α → Prop} {D : τ → σ → β → Prop}
  {p q : Link σ τ μ} {n : Nat}

/-- The pair is joined as the protocol asks. -/
def Link.Joined (P : Protocol γ μ) (V : View σ γ μ) (W : View τ γ μ) (p : Link σ τ μ) (n : Nat) :
    Prop :=
  Duplex.Joined P .left V W p.left p.right p.toLeft p.toRight n

/-- Two parties that both have nothing to do have finished. -/
theorem Link.Joined.progress (hL : Follows P .left L V W C) (hR : Follows P .right R W V D)
    (hj : p.Joined P V W n) (hleft : (V.waits p.left ∧ p.toLeft = []) ∨ V.done p.left)
    (hright : (W.waits p.right ∧ p.toRight = []) ∨ W.done p.right) :
    V.done p.left ∧ W.done p.right := by
  cases hj with
  | inl hb => exact hb.progress hL.waits hL.done hR.waits hR.done hleft (hright.imp_left And.left)
  | inr hb =>
    exact (hb.progress hR.waits hR.done hL.waits hL.done hright (hleft.imp_left And.left)).symm

/-- Two parties that have finished have seen the same messages. -/
theorem Link.Joined.agree (hL : Follows P .left L V W C) (hR : Follows P .right R W V D)
    (hj : p.Joined P V W n) (hleft : V.done p.left) (hright : W.done p.right) :
    V.log p.left = W.log p.right := by
  cases hj with
  | inl hb => exact (hb.agree hL.done hleft).2.2
  | inr hb => exact (hb.agree hR.done hright).2.2.symm

variable [DecidableEq μ]

/-- What the two may assume of a move. -/
def Allowed (C : σ → τ → α → Prop) (D : τ → σ → β → Prop) (p : Link σ τ μ) : Move α β → Prop
  | .left a => C p.left p.right a
  | .right b => D p.right p.left b

/-- A move after which its party does not have to be called again, unless it
was to read a message. -/
def Prompt (L : Party σ α μ) (R : Party τ β μ) (V : View σ γ μ) (W : View τ γ μ)
    (p : Link σ τ μ) (e : Move α β) : Prop :=
  ∀ q, step L R p e = some q → match e with
    | .left a => L.takes a = none → ¬ V.again q.left
    | .right b => R.takes b = none → ¬ W.again q.right

/-- **One move** keeps a pair joined. -/
theorem Link.Joined.step (hL : Follows P .left L V W C) (hR : Follows P .right R W V D)
    {e : Move α β} (hj : p.Joined P V W n) (hc : Allowed C D p e)
    (hstep : Duplex.step L R p e = some q) :
    ∃ n', q.Joined P V W n' ∧ n' ≤ n ∧ (Prompt L R V W p e → n' < n) := by
  cases e with
  | left a =>
    have hq := hstep
    simp only [Duplex.step, Option.bind_eq_bind, Option.bind_eq_some_iff] at hstep
    obtain ⟨toLeft, htake, ⟨left, ms⟩, hleft, hend⟩ := hstep
    injection hend with hend
    subst hend
    rcases take_eq_some htake with ⟨htakes, hqueue⟩ | ⟨m, htakes, hqueue⟩
    · subst hqueue
      obtain ⟨n', hj', hle, hlt⟩ := Duplex.Joined.act hL hj htakes hc hleft
      exact ⟨n', hj', hle, fun hprompt => hlt (hprompt _ hq htakes)⟩
    · have hj' : Duplex.Joined P .left V W p.left p.right (m :: toLeft) p.toRight n := by
        rw [← hqueue]
        exact hj
      obtain ⟨hms, n', hj', hlt⟩ := Duplex.Joined.read hL hj' htakes hc hleft
      subst hms
      refine ⟨n', ?_, Nat.le_of_lt hlt, fun _ => hlt⟩
      unfold Link.Joined
      rw [List.append_nil]
      exact hj'
  | right b =>
    have hq := hstep
    simp only [Duplex.step, Option.bind_eq_bind, Option.bind_eq_some_iff] at hstep
    obtain ⟨toRight, htake, ⟨right, ms⟩, hright, hend⟩ := hstep
    injection hend with hend
    subst hend
    have hsym := Duplex.Joined.symm hj
    rcases take_eq_some htake with ⟨htakes, hqueue⟩ | ⟨m, htakes, hqueue⟩
    · subst hqueue
      obtain ⟨n', hj', hle, hlt⟩ := Duplex.Joined.act hR hsym htakes hc hright
      exact ⟨n', hj'.symm, hle, fun hprompt => hlt (hprompt _ hq htakes)⟩
    · have hsym' : Duplex.Joined P .right W V p.right p.left (m :: toRight) p.toLeft n := by
        rw [← hqueue]
        exact hsym
      obtain ⟨hms, n', hj', hlt⟩ := Duplex.Joined.read hR hsym' htakes hc hright
      subst hms
      refine ⟨n', ?_, Nat.le_of_lt hlt, fun _ => hlt⟩
      unfold Link.Joined
      rw [List.append_nil]
      exact hj'.symm

/-- **Every run** keeps a pair joined. -/
theorem Link.Joined.run (hL : Follows P .left L V W C) (hR : Follows P .right R W V D)
    {es : List (Move α β)} (hj : p.Joined P V W n)
    (hc : Run.Meets (Duplex.step L R) (Allowed C D) p es)
    (hrun : Run.run (Duplex.step L R) p es = some q) : ∃ n', q.Joined P V W n' ∧ n' ≤ n := by
  refine Run.invariant (P := fun p => ∃ n', p.Joined P V W n' ∧ n' ≤ n) ?_ ⟨n, hj, Nat.le_refl _⟩ hc hrun
  intro p e q ⟨m, hj, hm⟩ hc hstep
  obtain ⟨m', hj', hm', _⟩ := hj.step hL hR hc hstep
  exact ⟨m', hj', Nat.le_trans hm' hm⟩

/-- A run in which nobody asks to be called again is not longer than the
moves that the pair has to go. -/
theorem Link.Joined.length_le (hL : Follows P .left L V W C) (hR : Follows P .right R W V D)
    {es : List (Move α β)} (hj : p.Joined P V W n)
    (hc : Run.Meets (Duplex.step L R) (Allowed C D) p es)
    (hprompt : Run.Meets (Duplex.step L R) (Prompt L R V W) p es)
    (hrun : Run.run (Duplex.step L R) p es = some q) : es.length ≤ n := by
  induction es generalizing p n with
  | nil => exact Nat.zero_le _
  | cons e es ih =>
    obtain ⟨r, hr, hrest⟩ := Run.run_cons_eq_some.mp hrun
    obtain ⟨hce, hc⟩ := hc
    obtain ⟨hpe, hprompt⟩ := hprompt
    rw [hr] at hc hprompt
    obtain ⟨n', hj', _, hlt⟩ := hj.step hL hR hce hr
    have hlen := ih hj' hc hprompt hrest
    have hn := hlt hpe
    rw [List.length_cons]
    omega

/-- A pair can go on with moves that meet `G`, until there is none left after
which nobody asks to be called again. -/
theorem Link.Joined.exhaust (hL : Follows P .left L V W C) (hR : Follows P .right R W V D)
    {G : Link σ τ μ → Move α β → Prop} (hG : ∀ p e, G p e → Allowed C D p e)
    (hj : p.Joined P V W n) :
    ∃ es q n', Run.Meets (Duplex.step L R) G p es ∧
      Run.Meets (Duplex.step L R) (Prompt L R V W) p es ∧
      Run.run (Duplex.step L R) p es = some q ∧ es.length ≤ n ∧ q.Joined P V W n' ∧
      ∀ e r, G q e → Prompt L R V W q e → Duplex.step L R q e ≠ some r := by
  induction n using Nat.strongRecOn generalizing p with
  | ind n ih =>
  by_cases hmove : ∃ e r, G p e ∧ Prompt L R V W p e ∧ Duplex.step L R p e = some r
  · obtain ⟨e, r, hg, hprompt, hr⟩ := hmove
    obtain ⟨m, hj', _, hlt⟩ := hj.step hL hR (hG p e hg) hr
    have hm := hlt hprompt
    obtain ⟨es, q, n', hges, hpes, hrun, hlen, hjq, hlast⟩ := ih m hm hj'
    refine ⟨e :: es, q, n', ⟨hg, ?_⟩, ⟨hprompt, ?_⟩, Run.run_cons_eq_some.mpr ⟨r, hr, hrun⟩, ?_, hjq,
      hlast⟩
    · rw [hr]
      exact hges
    · rw [hr]
      exact hpes
    · rw [List.length_cons]
      omega
  · exact ⟨[], p, n, trivial, trivial, rfl, Nat.zero_le _, hj,
      fun e r hg hprompt hr => hmove ⟨e, r, hg, hprompt, hr⟩⟩

end runs

end Tlcp.Duplex
